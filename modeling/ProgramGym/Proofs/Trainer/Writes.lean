import ProgramGym.Proofs.Trainer.Course

/-! The writes of a training. A write is tried where the storage stands by then, whatever became of
the writes before it; its answer goes to the books of the trainer and nowhere else. A trainer that
does not stop on failures tries all writes of its course, and one that stops tries them up to the
first that fails. -/
namespace ProgramGym

/-- What a trainer asks its storage to keep. -/
inductive Writing where
  | checkpoint (episode : Nat) (content : String)
  | curve (episode : Nat) (content : String)

namespace Writing
variable {ω : Type}

def episode : Writing → Nat
  | checkpoint episode _ | curve episode _ => episode

def key : Writing → String
  | checkpoint episode _ => checkpointKey (.count episode)
  | curve _ _ => curveKey

def content : Writing → String
  | checkpoint _ content | curve _ content => content

def perform (storage : TrainingStorage ω) : Writing → Op ω Unit
  | checkpoint episode content => storage.checkpoints.save (checkpointKey (.count episode)) content
  | curve _ content => storage.writeCurve content

/-- The key that is noted for a write that has been done; the curve has none. -/
def noted : Writing → List String
  | checkpoint episode _ => [checkpointKey (.count episode)]
  | curve _ _ => []

/-- What is recorded of a write that failed. -/
def failure (w : Writing) (fault : Fault) : CheckpointFailure := ⟨w.episode, w.key, fault.message⟩

end Writing

/-- A write with the answer of the storage. -/
structure Attempt where
  write : Writing
  answer : Except Fault Unit

namespace Attempt

def failures (attempts : List Attempt) : List CheckpointFailure :=
  attempts.flatMap fun a => match a.answer with
    | .ok () => []
    | .error fault => [a.write.failure fault]

def stored (attempts : List Attempt) : List String :=
  attempts.flatMap fun a => match a.answer with
    | .ok () => a.write.noted
    | .error _ => []

section
variable (attempts : List Attempt) (w : Writing) (u : Unit) (fault : Fault)

theorem failures_ok : failures (attempts ++ [⟨w, .ok u⟩]) = failures attempts := by
  simp [failures]

theorem failures_error :
    failures (attempts ++ [⟨w, .error fault⟩]) = failures attempts ++ [w.failure fault] := by
  simp [failures]

theorem stored_ok : stored (attempts ++ [⟨w, .ok u⟩]) = stored attempts ++ w.noted := by
  simp [stored]

theorem stored_error : stored (attempts ++ [⟨w, .error fault⟩]) = stored attempts := by
  simp [stored]

end

variable {ω : Type}

/-- Writes one after the other, and the world after them. -/
def all (storage : TrainingStorage ω) : List Writing → ω → List Attempt × ω
  | [], world => ([], world)
  | w :: ws, world =>
    let tried := (w.perform storage).run world
    let rest := all storage ws tried.2
    (⟨w, tried.1⟩ :: rest.1, rest.2)

theorem all_append (storage : TrainingStorage ω) (ws : List Writing) (w : Writing) (world : ω) :
    all storage (ws ++ [w]) world =
      ((all storage ws world).1 ++ [⟨w, ((w.perform storage).run (all storage ws world).2).1⟩],
        ((w.perform storage).run (all storage ws world).2).2) := by
  induction ws generalizing world with
  | nil => rfl
  | cons v ws ih =>
    rw [List.cons_append, all, ih]
    rfl

end Attempt

namespace Trainer
variable {ω : Type}

/-- What a trainer has come to, without its writes. -/
def course (t : Trainer ω) : Course := ⟨t.scene.env, t.scene.agent, t.history, t.evaluations⟩

/-- A trainer that has come to a course from a first state on, and has tried some writes. -/
structure Follows (start : Trainer ω) (c : Course) (ws : List Writing) (t : Trainer ω) : Prop where
  plan : t.plan = start.plan
  storage : t.storage = start.storage
  course : t.course = c
  world : t.world = (Attempt.all start.storage ws start.world).2
  failures : t.failures =
    start.failures ++ Attempt.failures (Attempt.all start.storage ws start.world).1
  checkpoints : t.checkpoints =
    start.checkpoints ++ Attempt.stored (Attempt.all start.storage ws start.world).1

/-- All writes so far were done. -/
def Done (start : Trainer ω) (ws : List Writing) : Prop :=
  ∀ a ∈ (Attempt.all start.storage ws start.world).1, a.answer = .ok ()

/-- A trainer that still goes on: it does not stop on failures, or there were none. -/
structure Going (start : Trainer ω) (c : Course) (ws : List Writing) (t : Trainer ω) : Prop extends
    Follows start c ws t where
  unstopped : start.plan.stopOnFailure = true → Done start ws

/-- A trainer after a write that was the first one to fail. -/
structure Failed (start : Trainer ω) (c : Course) (ws : List Writing) (w : Writing) (e : Fault)
    (t : Trainer ω) : Prop extends Follows start c (ws ++ [w]) t where
  unstopped : start.plan.stopOnFailure = true → Done start ws
  answer : ((w.perform start.storage).run (Attempt.all start.storage ws start.world).2).1 = .error e

section
variable {start t : Trainer ω} {c : Course} {ws : List Writing} {w : Writing}

theorem Going.unheard (start : Trainer ω) (c : Course) (ws : List Writing) :
    Unheard (Going start c ws) :=
  fun _ _ going => { going with }

theorem Failed.unheard (start : Trainer ω) (c : Course) (ws : List Writing) (w : Writing)
    (e : Fault) : Unheard (Failed start c ws w e) :=
  fun _ _ failed => { failed with }

/-- A write that is done or fails leaves the course alone. -/
theorem Going.tried (going : Going start c ws t) (w : Writing) :
    Op.Ensures (· = t.world) (w.perform t.storage)
      (fun _ world => Going start c (ws ++ [w])
        { t with world, checkpoints := t.checkpoints ++ w.noted })
      (fun e world => Failed start c ws w e
        { t with world, failures := t.failures ++ [w.failure e] }) := by
  obtain ⟨plan, storage, course, world, failures, checkpoints⟩ := going.toFollows
  have all := Attempt.all_append start.storage ws w start.world
  rw [← world, ← storage] at all
  rintro _ rfl
  rcases answered : (w.perform t.storage).run t.world with ⟨fault | u, after⟩ <;>
    rw [answered] at all
  · refine ⟨⟨plan, storage, course, ?_, ?_, ?_⟩, going.unstopped, ?_⟩
    · rw [← storage, all]
    · rw [← storage, all, Attempt.failures_error, failures, storage, List.append_assoc]
    · rw [← storage, all, Attempt.stored_error, checkpoints, storage]
    · rw [← storage, storage, ← world, ← storage, answered]
  · refine ⟨⟨plan, storage, course, ?_, ?_, ?_⟩, fun stops => ?_⟩
    · rw [← storage, all]
    · rw [← storage, all, Attempt.failures_ok, failures, storage]
    · rw [← storage, all, Attempt.stored_ok, checkpoints, storage, List.append_assoc]
    · unfold Done
      rw [← storage, all, storage]
      intro a inside
      rcases List.mem_append.mp inside with earlier | latest
      · exact going.unstopped stops a earlier
      · rw [List.mem_singleton.mp latest]

end
end Trainer
end ProgramGym
