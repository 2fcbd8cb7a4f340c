import ProgramGym.Proofs.Agent.Saveable
import ProgramGym.Proofs.Trainer.Diary
import ProgramGym.Proofs.Trainer.Lessons

/-! Training taken up again from a checkpoint. Lessons that no fault ends can be cut in two: the
rest of them are the lessons of the agent that the first ones leave, under later numbers. A learner
is all that goes on from one episode to the next, and right after an episode its text says all of
it. A write that fails may stop a trainer, but only between two lessons. Main statement: a
checkpoint is the text of the agent right after its episode, however long ago, and training a new
agent from it leads where training led. -/
namespace ProgramGym

namespace Agent

theorem simulates_eq (train : Bool) : Rollout.Simulates train (Eq : Agent → Agent → Prop) where
  act _ same := same ▸ ⟨rfl, rfl⟩
  startEpisode _ _ _ same := same ▸ rfl
  learn _ _ _ _ _ _ _ _ same := same ▸ ⟨rfl, rfl⟩

end Agent

namespace Trainer
variable {ω : Type}

section
variable {r : Rules Float} {first n m : Nat} {a b : Agent}

theorem going_before (going : (lessons r first a m).ended = false) (earlier : n ≤ m) :
    (lessons r first a n).ended = false := by
  cases ended : (lessons r first a n).ended with
  | false => rfl
  | true => rw [← going, lessons_of_ended ended earlier, ended]

/-- The last lesson that no fault has ended. -/
theorem lessons_last (going : (lessons r first a (n + 1)).ended = false) :
    ∃ record env b, Rollout.run true (first + n) (.ofRules r) (lessons r first a n).agent =
        (.ok record, env, b) ∧
      lessons r first a (n + 1) = ⟨(lessons r first a n).records ++ [record], b, false⟩ := by
  have before := going_before going (Nat.le_succ n)
  rcases ran : Rollout.run true (first + n) (.ofRules r) (lessons r first a n).agent with
    ⟨fault | record, env, b⟩
  · rw [lessons, next_error before ran] at going
    cases going
  · exact ⟨record, env, b, rfl, next_ok before ran⟩

theorem length_lessons (going : (lessons r first a n).ended = false) :
    (lessons r first a n).records.length = n := by
  induction n with
  | zero => rfl
  | succ n ih =>
    obtain ⟨record, _, _, _, last⟩ := lessons_last going
    rw [last, List.length_append, ih (going_before going (Nat.le_succ n))]
    rfl

/-- Lessons are cut in two anywhere. -/
theorem lessons_add (going : (lessons r first a (n + m)).ended = false) :
    lessons r first a (n + m) =
      ⟨(lessons r first a n).records ++
          (lessons r (first + n) (lessons r first a n).agent m).records,
        (lessons r (first + n) (lessons r first a n).agent m).agent, false⟩ ∧
      (lessons r (first + n) (lessons r first a n).agent m).ended = false := by
  induction m with
  | zero =>
    have going : (lessons r first a n).ended = false := going
    constructor
    · simp [lessons, ← going]
    · rfl
  | succ m ih =>
    have going : (lessons r first a (n + m + 1)).ended = false := going
    obtain ⟨record, env, b, ran, last⟩ := lessons_last going
    obtain ⟨cut, rest⟩ := ih (going_before going (Nat.le_succ _))
    have same : Rollout.run true (first + n + m) (.ofRules r)
        (lessons r (first + n) (lessons r first a n).agent m).agent = (.ok record, env, b) := by
      rw [cut, ← Nat.add_assoc] at ran
      exact ran
    have after := next_ok rest same
    rw [← Nat.add_assoc, last, cut, lessons, after, List.append_assoc]
    constructor <;> rfl

/-- Related agents make the same lessons, whatever numbers these go by. -/
theorem lessons_simulated (budget : 0 < r.settings.maxSteps) {R : Agent → Agent → Prop}
    (sim : Rollout.Simulates true R) (related : R a b) (first shift n : Nat) :
    (lessons r (first + shift) a n).records =
        (lessons r first b n).records.map (fun x => { x with episode := x.episode + shift }) ∧
      R (lessons r (first + shift) a n).agent (lessons r first b n).agent ∧
      (lessons r (first + shift) a n).ended = (lessons r first b n).ended := by
  induction n with
  | zero => exact ⟨rfl, related, rfl⟩
  | succ n ih =>
    obtain ⟨records, agents, ends⟩ := ih
    cases ended : (lessons r first b n).ended with
    | true =>
      rw [ended] at ends
      rw [lessons_of_ended ends (Nat.le_succ n), lessons_of_ended ended (Nat.le_succ n)]
      exact ⟨records, agents, ends.trans ended.symm⟩
    | false =>
      rw [ended] at ends
      have alike := sim.run agents (first + shift + n) (.ofRules r)
      rw [Rollout.run_renumber true (first + n) (first + shift + n) _
        (lessons r first b n).agent] at alike
      rcases ran : Rollout.run true (first + n) (.ofRules r) (lessons r first b n).agent with
        ⟨fault | x, env, b'⟩ <;>
        rcases other : Rollout.run true (first + shift + n) (.ofRules r)
          (lessons r (first + shift) a n).agent with ⟨fault' | x', env', a'⟩ <;>
        rw [ran, other] at alike <;> obtain ⟨answers, _, taught⟩ := alike
      · rw [lessons, lessons, next_error ends other, next_error ended ran]
        exact ⟨records, taught, rfl⟩
      · cases answers
      · cases answers
      · have number := (Rollout.run_ok budget ran).1
        have renumbered : x' = { x with episode := x.episode + shift } := by
          rw [number, Nat.add_right_comm]
          exact Except.ok.inj answers
        rw [lessons, lessons, next_ok ends other, next_ok ended ran, List.map_append, records,
          renumbered]
        exact ⟨rfl, taught, rfl⟩

/-- What a training episode keeps of an agent, lessons keep. -/
theorem lessons_keep {property : Agent → Prop}
    (step : ∀ a episode, property a → property (Rollout.run true episode (.ofRules r) a).2.2)
    (holds : property a) : property (lessons r first a n).agent := by
  induction n with
  | zero => exact holds
  | succ n ih =>
    have after := step _ (first + n) ih
    cases ended : (lessons r first a n).ended with
    | true =>
      rw [lessons_of_ended ended (Nat.le_succ n)]
      exact ih
    | false =>
      rcases ran : Rollout.run true (first + n) (.ofRules r) (lessons r first a n).agent with
        ⟨fault | x, env, b⟩ <;> rw [ran] at after
      · rw [lessons, next_error ended ran]
        exact after
      · rw [lessons, next_ok ended ran]
        exact after

theorem lessons_clock (budget : 0 < r.settings.maxSteps) :
    (lessons r first a n).agent.clock = a.clock := by
  have kept : ∀ (b : Agent) (episode : Nat), b.clock = a.clock →
      (Rollout.run true episode (.ofRules r) b).2.2.clock = a.clock := by
    intro b episode same
    rcases ran : Rollout.run true episode (.ofRules r) b with ⟨fault | x, env, c⟩
    · exact (Rollout.run_error budget ran).clock.trans same
    · exact (Rollout.run_ok budget ran).2.clock.trans same
  exact lessons_keep kept rfl

theorem lessons_shaped (shaped : a.Shaped) : (lessons r first a n).agent.Shaped := by
  apply lessons_keep _ shaped
  intro b episode shaped
  exact Agent.shaped_run shaped true episode _

/-- Right after a lesson the agent has just been updated, and no step waits. -/
theorem lessons_settled (budget : 0 < r.settings.maxSteps)
    (going : (lessons r first a (n + 1)).ended = false) :
    (lessons r first a (n + 1)).agent.updated = a.clock ∧
      (lessons r first a (n + 1)).agent.learner.pending = [] := by
  obtain ⟨record, env, b, ran, last⟩ := lessons_last going
  have counts := (Rollout.run_ok budget ran).2
  rw [last]
  constructor
  · exact counts.updated.trans (lessons_clock budget)
  · exact counts.settled rfl

end

/-! Trainers between two lessons. -/

/-- A trainer right after so many lessons, none of which a fault has cut short. -/
structure Led (r : Rules Float) (a : Agent) (n : Nat) (t : Trainer ω) : Prop where
  rules : t.scene.env.rules = r
  going : (lessons r 1 a n).ended = false
  history : t.history = (lessons r 1 a n).records
  agent : t.scene.agent = (lessons r 1 a n).agent

/-- The accepted ones among some calls are answered. -/
def Answers (t : Trainer ω) : List TrainingCall → Prop
  | [] => True
  | c :: calls => (c.accepted?.isSome → ((call c).run t).1.isOk) ∧
      Answers ((call c).run t).2 calls

section
variable {r : Rules Float} {a : Agent} {n : Nat} {t : Trainer ω} {d : List Agent}

theorem Led.length (led : Led r a n t) : t.history.length = n := by
  rw [led.history]
  exact length_lessons led.going

theorem Led.unheard : Unheard (Led r a n : Trainer ω → Prop) := fun _ _ led => { led with }

theorem Led.unwritten : Unwritten (Led r a n : Trainer ω → Prop) :=
  fun _ _ _ _ led => { led with }

variable (budget : 0 < r.settings.maxSteps) (functional : r.interpreter.Functional)
  (learner : a.kind ≠ .random)

include functional in
/-- A lesson in the trainer's environment goes as in a fresh one. -/
theorem run_led (led : Led r a n t) :
    (∃ x env b, Rollout.run true (1 + n) t.scene.env t.scene.agent = (.ok x, env, b) ∧
      env.rules = r ∧ lessons r 1 a (n + 1) = ⟨t.history ++ [x], b, false⟩) ∨
    (∃ fault, (Rollout.run true (1 + n) t.scene.env t.scene.agent).1 = .error fault) ∧
      (lessons r 1 a (n + 1)).ended = true := by
  obtain ⟨rules, going, history, agent⟩ := led
  have alike := Rollout.run_ofRules true (1 + n) (rules ▸ functional) t.scene.agent
  have kept := Rollout.run_rules true (1 + n) t.scene.env t.scene.agent
  rw [rules] at alike kept
  rcases ran : Rollout.run true (1 + n) (.ofRules r) t.scene.agent with ⟨fault | x, env, b⟩
  · rw [ran] at alike
    apply Or.inr
    constructor
    · exact ⟨fault, alike.1⟩
    · rw [agent] at ran
      rw [lessons, next_error going ran]
  · rw [ran] at alike
    apply Or.inl
    rw [agent] at ran
    have last : lessons r 1 a (n + 1) = ⟨t.history ++ [x], b, false⟩ := by
      rw [lessons, next_ok going ran, history]
    rcases found : Rollout.run true (1 + n) t.scene.env t.scene.agent with ⟨answer, env', b'⟩
    rw [found] at alike kept
    obtain ⟨answers, taught⟩ := alike
    cases answers
    cases taught
    exact ⟨x, env', b, rfl, kept, last⟩

include functional in
theorem runEpisode_led :
    Op.Ensures (Led r a n : Trainer ω → Prop) (inScene (Scene.runEpisode true (1 + n)))
      (fun x t => Led r a (n + 1) (record x t))
      fun _ _ => (lessons r 1 a (n + 1)).ended = true := by
  apply Op.ensures_onPart
  rintro t led s rfl
  rw [Scene.run_runEpisode]
  rcases run_led functional led with ⟨x, env, b, ran, rules, last⟩ | ⟨⟨fault, ran⟩, ended⟩
  · rw [ran]
    constructor
    · exact rules
    · rw [last]
    · rw [last]
      rfl
    · rw [last]
      rfl
  · rw [ran]
    exact ended

include budget learner in
/-- A learner that is evaluated stays as it is, even if a fault ends the evaluation. -/
theorem evaluate_led (episode : Nat) :
    Op.Ensures (Led r a n : Trainer ω → Prop) (evaluate episode) (fun _ => Led r a n)
      fun _ => Led r a n := by
  apply ensures_evaluate Led.unheard _ fun _ _ led => { led with }
  intro t number s led
  have kind : s.agent.kind = a.kind := by
    rw [show s.agent = (lessons r 1 a n).agent from led.agent]
    exact (lessons_alike budget).2
  have rules := (Rollout.run_rules false number s.env s.agent).trans led.rules
  have same := (Agent.run_greedy_self (kind ▸ learner) number s.env).trans led.agent
  rw [Scene.run_runEpisode]
  rcases (Rollout.run false number s.env s.agent).1 with fault | x <;>
    exact { led with rules, agent := same }

include budget functional learner in
/-- A training episode with its bookkeeping is one more lesson, and if it fails, then at a write or
because a fault has cut the lesson short. -/
theorem trainOne_led (last evalEvery saveEvery : Nat) :
    Op.Ensures (Led r a n : Trainer ω → Prop) (trainOne (1 + n) last evalEvery saveEvery)
      (fun _ => Led r a (n + 1))
      fun _ t => Led r a (n + 1) t ∨ (lessons r 1 a (n + 1)).ended = true := by
  have one : Op.Ensures (Led r a n : Trainer ω → Prop) (inScene (Scene.runEpisode true (1 + n)))
      (fun x t => Led r a (n + 1) (record x t))
      fun _ t => Led r a (n + 1) t ∨ (lessons r 1 a (n + 1)).ended = true :=
    (runEpisode_led functional).weaken (fun _ => id) (fun _ _ => id) fun _ _ => .inr
  have evaluated : Op.Ensures (Led r a (n + 1) : Trainer ω → Prop) (evaluate (1 + n))
      (fun _ => Led r a (n + 1))
      fun _ t => Led r a (n + 1) t ∨ (lessons r 1 a (n + 1)).ended = true :=
    (evaluate_led budget learner _).weaken (fun _ => id) (fun _ _ => id) fun _ _ => .inl
  have saved : Op.Ensures (Led r a (n + 1) : Trainer ω → Prop) (saveCheckpoint (1 + n))
      (fun _ => Led r a (n + 1))
      fun _ t => Led r a (n + 1) t ∨ (lessons r 1 a (n + 1)).ended = true :=
    ensures_saveCheckpoint Led.unheard Led.unwritten (fun _ _ led _ => .inl led) _
  exact ensures_trainOne last evalEvery saveEvery Led.unheard one (fun _ _ => id)
    (fun _ => evaluated) (fun _ _ => id) (fun _ => saved) (fun _ _ => id)
    fun _ _ led => { led with }

include budget functional learner in
/-- A call that is answered makes all its lessons; one that is not stops after some of them. -/
theorem call_led (c : TrainingCall) (led : Led r a n t) :
    Op.Ensures (· = t) (call c)
      (fun _ u => ∃ count, c.accepted? = some count ∧ Led r a (n + count) u)
      fun _ u => ∃ k ≤ c.accepted?.getD 0,
        Led r a (n + k) u ∨ (lessons r 1 a (n + k)).ended = true := by
  have length := led.length
  refine (ensures_call t c (fun i => Led r a (n + i)) (fun i => Led r a (n + i))
    (fun i => Led r a (n + i)) Led.unheard (fun _ => Led.unheard) led ?_ ?_ ?_ ?_).weaken
    (fun _ => id) (fun _ _ answered => answered.2) fun _ _ => id
  · intro _ _
    exact ⟨0, Nat.zero_le _, .inl led⟩
  · intro count accepted i within evalEvery saveEvery _ _
    rw [length, accepted, Nat.add_assoc n 1 i, Nat.add_left_comm]
    apply (trainOne_led budget functional learner _ _ _).weaken (fun _ => id) (fun _ _ => id)
    intro _ u cut
    exact ⟨i + 1, within, cut⟩
  · intro count accepted
    have stopped (t : Trainer ω) (led : Led r a (n + count) t) : ∃ k ≤ c.accepted?.getD 0,
        Led r a (n + k) t ∨ (lessons r 1 a (n + k)).ended = true :=
      ⟨count, by rw [accepted]; rfl, .inl led⟩
    refine ensures_finalEvaluation ?_ fun _ led _ => led
    exact (evaluate_led budget learner _).weaken (fun _ => And.left) (fun _ _ => id)
      fun _ => stopped
  · intro count accepted
    refine ensures_saveCurve Led.unheard Led.unwritten (fun _ u led _ => ?_) _
    exact ⟨count, by rw [accepted]; rfl, .inl led⟩

include budget functional learner in
/-- Lessons that nothing cuts short are all that calls come to, wherever writes stop them. -/
theorem afterCalls_led {m : Nat} (going : (lessons r 1 a m).ended = false) (led : Led r a n t)
    (calls : List TrainingCall) (within : n + (calls.filterMap TrainingCall.accepted?).sum ≤ m) :
    Led r a (t.afterCalls calls).history.length (t.afterCalls calls) := by
  induction calls generalizing n t with
  | nil =>
    rw [afterCalls, List.foldl_nil, led.length]
    exact led
  | cons c calls ih =>
    rw [afterCalls_cons]
    have trained := call_led budget functional learner c led t rfl
    cases accepted : c.accepted? with
    | none =>
      obtain ⟨e, refused⟩ := call_refused accepted t
      rw [List.filterMap_cons_none accepted] at within
      rw [refused]
      exact ih led within
    | some count =>
      rw [List.filterMap_cons_some accepted, List.sum_cons] at within
      rcases answered : (call c).run t with ⟨fault | result, u⟩ <;> rw [answered] at trained
      · obtain ⟨k, few, after | cut⟩ := trained
        · rw [accepted, Option.getD_some] at few
          exact ih after (by omega)
        · rw [accepted, Option.getD_some] at few
          rw [going_before going (by omega)] at cut
          cases cut
      · obtain ⟨count', same, after⟩ := trained
        cases same.symm.trans accepted
        exact ih after (by omega)

/-- A trainer whose diary holds the agents of its lessons. -/
structure Told (r : Rules Float) (a : Agent) (d : List Agent) (t : Trainer ω) : Prop
    extends Led r a d.length t where
  entries : d = (List.range d.length).map fun i => (lessons r 1 a (i + 1)).agent

theorem Told.unheard (d : List Agent) : Unheard (Told r a d : Trainer ω → Prop) :=
  fun _ _ told => { told with }

theorem Told.unwritten (d : List Agent) : Unwritten (Told r a d : Trainer ω → Prop) :=
  fun _ _ _ _ told => { told with }

theorem Told.entry (told : Told r a d t) {b : Agent} (there : d[n]? = some b) :
    n < d.length ∧ b = (lessons r 1 a (n + 1)).agent := by
  obtain ⟨below, at_⟩ := List.getElem?_eq_some_iff.mp there
  rw [told.entries, List.getElem?_map, List.getElem?_range below] at there
  exact ⟨below, (Option.some.inj there).symm⟩

include functional in
theorem taught_led (led : Led r a n t) (going : (lessons r 1 a (n + 1)).ended = false) :
    t.taught (1 + n) = [(lessons r 1 a (n + 1)).agent] := by
  rcases run_led functional led with ⟨x, env, b, ran, _, last⟩ | ⟨_, ended⟩
  · have answer : (inScene (Scene.runEpisode true (1 + n))).run t =
        (.ok x, { t with scene := { t.scene with env, agent := b } }) := by
      have apart : (inScene (Scene.runEpisode true (1 + n))).run t =
          (((Scene.runEpisode true (1 + n)).run t.scene).1,
            { t with scene := ((Scene.runEpisode true (1 + n)).run t.scene).2 }) := rfl
      rw [apart, Scene.run_runEpisode, ran]
    rw [taught, answer, last]
  · rw [going] at ended
    cases ended

include budget functional learner in
theorem keeps_told : Keeps (Told r a : List Agent → Trainer ω → Prop) fun _ _ => True := by
  intro d t last evalEvery saveEvery told
  have length : t.history.length = d.length := told.length
  rw [length, Nat.add_comm d.length 1]
  have one := trainOne_led (ω := ω) (n := d.length) budget functional learner last evalEvery saveEvery
  apply one.weaken
  · rintro _ rfl
    exact told.toLed
  · intro _ u led
    rw [taught_led functional told.toLed led.going]
    have grown : (d ++ [(lessons r 1 a (d.length + 1)).agent]).length = d.length + 1 := by simp
    constructor
    · constructor
      · rw [grown]
        exact led
      · rw [grown, List.range_succ, List.map_append, ← told.entries]
        rfl
    · exact led.length.trans (Nat.add_comm _ _)
  · exact fun _ _ _ => trivial

include budget functional learner in
theorem afterCalls_told (told : Told r a d t) {calls : List TrainingCall}
    (answers : t.Answers calls) : Told r a (d ++ t.diary calls) (t.afterCalls calls) := by
  induction calls generalizing d t with
  | nil =>
    rw [diary, List.append_nil]
    exact told
  | cons c calls ih =>
    obtain ⟨answered, later⟩ := answers
    have led := (keeps_told (ω := ω) budget functional learner).call Told.unheard
      (fun _ _ _ => trivial) ?_ ?_ told c t rfl
    · rw [diary, afterCalls_cons, ← List.append_assoc]
      apply ih _ later
      cases accepted : c.accepted? with
      | none =>
        obtain ⟨e, refused⟩ := call_refused accepted t
        rw [entries_refused accepted, List.append_nil, refused]
        exact told
      | some count =>
        have answered := answered (by rw [accepted]; rfl)
        rcases ran : (call c).run t with ⟨fault | result, u⟩ <;> rw [ran] at led answered
        · cases answered
        · exact led
    · intro d last count
      refine ensures_finalEvaluation ?_ fun _ told _ => told
      have evaluated := evaluate_led (ω := ω) (r := r) (n := d.length) budget learner last
      intro u holds
      have stays := evaluated u holds.1.toLed
      rcases ran : (evaluate last).run u with ⟨fault | _, v⟩ <;> rw [ran] at stays
      · trivial
      · exact ⟨stays, holds.1.entries⟩
    · intro d last
      exact ensures_saveCurve (Told.unheard d) (Told.unwritten d) (fun _ _ _ _ => trivial) last

end

/-- The lessons of one agent after the other are the lessons of the first one. -/
theorem schooling_of_lessons {r : Rules Float} {a : Agent} (counts : List Nat)
    (earlier : List (EpisodeRecord Float))
    (going : (lessons r (earlier.length + 1) a counts.sum).ended = false) :
    schooling r earlier a counts =
      (earlier ++ (lessons r (earlier.length + 1) a counts.sum).records,
        (lessons r (earlier.length + 1) a counts.sum).agent) := by
  induction counts generalizing earlier a with
  | nil => simp [schooling, lessons]
  | cons count counts ih =>
    rw [List.sum_cons] at going ⊢
    obtain ⟨cut, rest⟩ := lessons_add going
    have begun := going_before going (Nat.le_add_right count counts.sum)
    have length : (earlier ++ (lessons r (earlier.length + 1) a count).records).length + 1 =
        earlier.length + 1 + count := by
      rw [List.length_append, length_lessons begun, Nat.add_right_comm]
    rw [cut]
    change schooling r (earlier ++ (lessons r (earlier.length + 1) a count).records)
      (lessons r (earlier.length + 1) a count).agent counts = _
    rw [ih _ (length ▸ rest), length, List.append_assoc]

/-- A trainer that failed writes do not stop makes all its lessons. -/
theorem length_of_lenient {r : Rules Float} {a : Agent} {t : Trainer ω} {m : Nat}
    (budget : 0 < r.settings.maxSteps) (functional : r.interpreter.Functional)
    (total : r.interpreter.NeverFaults) (learner : a.kind ≠ .random)
    (stands : Stands r [] ⟨[], a, false⟩ t) {calls : List TrainingCall}
    (counts : (calls.filterMap TrainingCall.accepted?).sum = m)
    (going : (lessons r 1 a m).ended = false) : (t.afterCalls calls).history.length = m := by
  have schooled := afterCalls_schooling budget functional total learner stands calls
  rw [← counts] at going
  rw [schooling_of_lessons _ [] going] at schooled
  have history : (t.afterCalls calls).history = [] ++ _ := congrArg Prod.fst schooled
  rw [history, List.nil_append, ← counts]
  exact length_lessons going

/-- What an agent right after an episode has saved makes a new agent of its kind and spaces the same
agent, with a source and a clock of its own. -/
theorem load_taught {r : Rules Float} {a b : Agent} {n : Nat} {text : String}
    (budget : 0 < r.settings.maxSteps) (shaped : a.Shaped) (dated : a.clock.Dated)
    (going : (lessons r 1 a (n + 1)).ended = false)
    (saved : (lessons r 1 a (n + 1)).agent.save = .ok text)
    (plain : ∀ x ∈ (lessons r 1 a (n + 1)).agent.numbers, x.isFinite = true ∧ x ≠ -0.0)
    (kind : b.kind = a.kind) (spaces : b.spaces = a.spaces) :
    b.load text = (.ok (), { (lessons r 1 a (n + 1)).agent with source := b.source, clock := b.clock }) := by
  obtain ⟨updated, settled⟩ := lessons_settled budget going
  have clock : (lessons r 1 a (n + 1)).agent.clock = a.clock := lessons_clock budget
  have taught : (lessons r 1 a (n + 1)).agent.Shaped := lessons_shaped shaped
  have sound := taught.sound (clock ▸ dated) (updated ▸ dated)
  have alike : a.Alike (lessons r 1 a (n + 1)).agent := lessons_alike budget
  apply Agent.load_saved sound settled _ saved (kind.trans alike.2.symm)
    (spaces.trans alike.1.symm)
  intro x inside
  obtain ⟨finite, unsigned⟩ := plain x inside
  exact ⟨finite, Number.reread_self finite unsigned⟩

/-- The lessons that are left after some, by an agent that is related to the one by then. -/
theorem lessons_resumed {r : Rules Float} {a b : Agent} {m n : Nat}
    (budget : 0 < r.settings.maxSteps) {R : Agent → Agent → Prop}
    (sim : Rollout.Simulates true R) (early : n ≤ m)
    (going : (lessons r 1 a m).ended = false) (related : R (lessons r 1 a n).agent b) :
    (lessons r 1 b (m - n)).ended = false ∧
      (lessons r 1 b (m - n)).records.map (fun x => { x with episode := x.episode + n }) =
        (lessons r 1 a m).records.drop n ∧
      R (lessons r 1 a m).agent (lessons r 1 b (m - n)).agent := by
  obtain ⟨k, rfl⟩ := Nat.exists_eq_add_of_le early
  obtain ⟨cut, rest⟩ := lessons_add going
  obtain ⟨records, agents, ends⟩ := lessons_simulated budget sim related 1 n k
  have length := length_lessons (going_before going early)
  rw [Nat.add_sub_cancel_left, cut]
  refine ⟨ends.symm.trans rest, ?_, agents⟩
  rw [← records, List.drop_left' length]

theorem lessons_learner {r : Rules Float} {a : Agent} {n : Nat} (budget : 0 < r.settings.maxSteps)
    (now : Instant) (learner : a.kind ≠ .random) :
    { (lessons r 1 a n).agent with clock := now }.kind ≠ .random := by
  have kept : (lessons r 1 a n).agent.kind = a.kind := (lessons_alike budget).2
  change (lessons r 1 a n).agent.kind ≠ .random
  rw [kept]
  exact learner

/-- A trainer whose agent is, but for its clock, the one after some lessons of another trainer, ends
after the lessons that are left where that one has ended. -/
theorem ends_of_resumed {υ : Type} {r : Rules Float} {a : Agent} {m n : Nat} {t : Trainer ω}
    {again : Trainer υ} {now : Instant} (budget : 0 < r.settings.maxSteps)
    (functional : r.interpreter.Functional) (learner : a.kind ≠ .random) (led : Led r a m t)
    (early : n ≤ m) (begun : Led r { (lessons r 1 a n).agent with clock := now } 0 again)
    {calls : List TrainingCall} (counts : (calls.filterMap TrainingCall.accepted?).sum = m - n)
    (all : (again.afterCalls calls).history.length = m - n) :
    (again.afterCalls calls).history.map (fun x => { x with episode := x.episode + n }) =
        t.history.drop n ∧
      t.scene.agent.Retimed (again.afterCalls calls).scene.agent ∧
      (now = a.clock → (again.afterCalls calls).scene.agent = t.scene.agent) := by
  have retimed : (lessons r 1 a n).agent.Retimed { (lessons r 1 a n).agent with clock := now } := rfl
  obtain ⟨rest, records, agents⟩ :=
    lessons_resumed budget (Agent.simulates_retimed true) early led.going retimed
  have after := afterCalls_led budget functional (lessons_learner budget now learner) rest begun calls
    (by omega)
  rw [all] at after
  refine ⟨?_, ?_, ?_⟩
  · rw [after.history, records, led.history]
  · rw [after.agent, led.agent]
    exact agents
  · intro same
    have clock : now = (lessons r 1 a n).agent.clock := same.trans (lessons_clock budget).symm
    have equal : (lessons r 1 a n).agent = { (lessons r 1 a n).agent with clock := now } := by
      rw [clock]
    have ends := (lessons_resumed budget (Agent.simulates_eq true) early led.going equal).2.2
    rw [after.agent, led.agent]
    exact ends.symm

section
variable {storage : TrainingStorage ω} {holds : ω → String → Option String} {d : List Agent}
  {t : Trainer ω}

/-- As long as no two episodes have keys of one text, a checkpoint stays what it is. -/
theorem held_load (working : storage.Working holds) (held : Held storage holds [] d t)
    (later : List TrainingCall) (exact : (t.afterCalls later).history.length < Quantity.exactBound)
    {n : Nat} {a : Agent} (there : d[n]? = some a)
    (stored : checkpointKey (.count (n + 1)) ∈ t.checkpoints) :
    ∃ text, a.save = .ok text ∧
      ((storage.checkpoints.load (checkpointKey (.count (n + 1)))).run
        (t.afterCalls later).world).1 = .ok text := by
  have based : Held storage holds t.checkpoints d t := { held with kept := fun _ => id }
  have after := afterCalls_held working based later
  obtain ⟨m, b, text, key, entry, saved, kept⟩ := after.stored _ (after.kept _ stored)
  have within : m < (d ++ t.diary later).length := (List.getElem?_eq_some_iff.mp entry).1
  have below : n < d.length := (List.getElem?_eq_some_iff.mp there).1
  have more : d.length ≤ (d ++ t.diary later).length := by simp
  rw [← after.length] at within more
  rw [checkpointKey_count (by omega), checkpointKey_count (by omega)] at key
  have same : n = m := Nat.succ.inj (key_injective key)
  rw [← same, List.getElem?_append_left below, there] at entry
  cases entry
  exact ⟨text, saved, working.loaded _ _ _ kept⟩

end

/-- Checkpoints and what they are good for, with a store that gives back what was saved last. After
any calls each checkpoint is, and stays, the text of the agent right after its episode. And where
the interpreter is a function that never faults and the agent a learner, a new agent of its kind and
spaces that loads such a text of plain numbers and gets the source of that moment makes, in whatever
further training, the rest of the episodes, and ends as the same agent but for the times that it has
read off its clock. -/
theorem checkpoints_resume {υ : Type} {task : Task} {vocabulary : Vocabulary}
    {interpreter : Interpreter Float} {reward : Reward Float} {request : SettingsRequest}
    {fresh : Environment Float} {kind : AgentKind} {actions features : Quantity Float}
    {settings : Json.Members Json} {source : Source Float} {clock : Instant} {made : Agent}
    (created : Environment.create task vocabulary interpreter reward request = .ok fresh)
    (accepted : Agent.create kind actions features settings source clock = .ok made)
    (past : List Agent.Call) (commands : List (Command Float)) {console : List Entry}
    {training : TrainingRequest} {storage : TrainingStorage ω} {holds : ω → String → Option String}
    (working : storage.Working holds) {world : ω} {first : Trainer ω}
    (built : create training storage ⟨fresh.after commands, made.after past, console⟩ world =
      .ok first)
    (earlier later : List TrainingCall) :
    let t := first.afterCalls earlier
    let u := t.afterCalls later
    let diary := first.diary earlier
    diary.length = t.history.length ∧
    (∀ key ∈ t.checkpoints, ∃ n a, key = checkpointKey (.count (n + 1)) ∧ diary[n]? = some a) ∧
    (∀ n a, diary[n]? = some a → checkpointKey (.count (n + 1)) ∈ t.checkpoints →
      u.history.length < Quantity.exactBound → ∃ text, a.save = .ok text ∧
        ((storage.checkpoints.load (checkpointKey (.count (n + 1)))).run u.world).1 = .ok text) ∧
    (interpreter.Functional → interpreter.NeverFaults → kind ≠ .random →
      (made.after past).clock.Dated → first.Answers earlier →
      ∀ n a text, diary[n]? = some a → a.save = .ok text →
      (∀ x ∈ a.numbers, x.isFinite = true ∧ x ≠ -0.0) →
      ∀ {given : Json.Members Json} {drawn : Source Float} {now : Instant} {b : Agent},
      Agent.create kind actions features given drawn now = .ok b →
      (b.load text).1 = .ok () ∧
      ∀ {commands' : List (Command Float)} {console' : List Entry} {training' : TrainingRequest}
        {storage' : TrainingStorage υ} {world' : υ} {again : Trainer υ},
      create training' storage'
        ⟨fresh.after commands', { (b.load text).2 with source := a.source }, console'⟩ world' =
        .ok again →
      ∀ calls, (calls.filterMap TrainingCall.accepted?).sum = t.history.length - (n + 1) →
      let v := again.afterCalls calls
      (training'.stopOnFailure = false → v.history.length = t.history.length - (n + 1)) ∧
      (v.history.length = t.history.length - (n + 1) →
        v.history.map (fun x => { x with episode := x.episode + (n + 1) }) =
          t.history.drop (n + 1) ∧
        t.scene.agent.Retimed v.scene.agent ∧
        (now = (made.after past).clock → v.scene.agent = t.scene.agent))) := by
  intro t u diary
  obtain ⟨resolved, checked, rfl⟩ := Environment.create_eq_ok created
  have budget : 0 < resolved.maxSteps := Settings.maxSteps_pos checked
  let r : Rules Float := ⟨resolved, task, vocabulary, interpreter, reward⟩
  obtain ⟨plan, _, start⟩ := create_eq_ok built
  have opened : Held storage holds [] [] first := by
    rw [start]
    exact ⟨rfl, rfl, nofun, nofun⟩
  have held : Held storage holds [] diary t := afterCalls_held working opened earlier
  refine ⟨held.length.symm, ?_, ?_, ?_⟩
  · intro key inside
    obtain ⟨n, a, _, same, there, _⟩ := held.stored key inside
    exact ⟨n, a, same, there⟩
  · intro n a there stored exact
    exact held_load working held later exact there stored
  intro functional total learner dated answers n a text there saved plain given drawn now b another
  let agent := made.after past
  have step (a : Agent) (call : Agent.Call) (shaped : a.Shaped) := Agent.shaped_perform shaped call
  have shaped : agent.Shaped := Agent.keeps_after step (Agent.shaped_create accepted) past
  have alike : made.Alike agent := made.after_alike past
  have kinds : agent.kind = kind := alike.2.trans (Agent.create_kind accepted)
  have told : Told r agent [] first := by
    rw [start]
    exact ⟨⟨Environment.after_rules _ commands, rfl, rfl, rfl⟩, rfl⟩
  have told : Told r agent diary t :=
    afterCalls_told budget functional (kinds ▸ learner) told answers
  obtain ⟨early, entry⟩ := told.entry there
  have going : (lessons r 1 agent (n + 1)).ended = false := going_before told.going early
  rw [entry] at saved plain ⊢
  have sameKind : b.kind = agent.kind := (Agent.create_kind another).trans kinds.symm
  have sameSpaces : b.spaces = agent.spaces := by
    obtain ⟨spaces, _, _, sizes, _, rfl⟩ := Agent.create_eq_ok accepted
    obtain ⟨others, _, _, rechecked, _, rfl⟩ := Agent.create_eq_ok another
    cases sizes.symm.trans rechecked
    exact alike.1.symm
  have loaded := load_taught budget shaped dated going saved plain sameKind sameSpaces
  have clock : b.clock = now := by
    obtain ⟨_, _, _, _, _, rfl⟩ := Agent.create_eq_ok another
    rfl
  constructor
  · rw [loaded]
  intro commands' console' training' storage' world' again rebuilt calls counts v
  rw [loaded] at rebuilt
  rw [held.length] at counts ⊢
  obtain ⟨plan', _, start'⟩ := create_eq_ok rebuilt
  have begun : Led r { (lessons r 1 agent (n + 1)).agent with clock := b.clock } 0 again := by
    rw [start']
    exact ⟨Environment.after_rules _ commands', rfl, rfl, rfl⟩
  have learns : agent.kind ≠ .random := kinds ▸ learner
  constructor
  · intro lenient
    have retimed : (lessons r 1 agent (n + 1)).agent.Retimed
        { (lessons r 1 agent (n + 1)).agent with clock := b.clock } := rfl
    have rest := (lessons_resumed budget (Agent.simulates_retimed true) early told.going retimed).1
    exact length_of_lenient budget functional total (lessons_learner budget b.clock learns)
      (create_stands lenient rebuilt) counts rest
  · intro all
    rw [← clock]
    exact ends_of_resumed budget functional learns told.toLed early begun counts all

theorem lookup_put (m : Checkpoints.Memory) (key payload other : String) :
    (m.put key payload).lookup other = Function.update (m.lookup ·) key (some payload) other := by
  by_cases same : other = key
  · subst same
    rw [Function.update_self]
    induction m with
    | nil => simp [Checkpoints.Memory.put]
    | cons entry m ih =>
      by_cases here : entry.1 = other
      · simp [Checkpoints.Memory.put, here]
      · simp [Checkpoints.Memory.put, List.lookup, here, beq_false_of_ne (Ne.symm here), ih]
  · rw [Function.update_of_ne same]
    induction m with
    | nil => simp [Checkpoints.Memory.put, List.lookup, beq_false_of_ne same]
    | cons entry m ih =>
      by_cases here : entry.1 = key
      · simp [Checkpoints.Memory.put, List.lookup, here, beq_false_of_ne same]
      · simp [Checkpoints.Memory.put, List.lookup, here, ih]

/-- A memory is a working store, whatever keys it refuses. -/
theorem working_refusing (refuse : String → Option Fault) :
    (⟨Checkpoints.refusing refuse, fun _ => pure ()⟩ : TrainingStorage Checkpoints.Memory).Working
      fun m key => m.lookup key where
  saved key payload m := by
    simp only [Checkpoints.refusing]
    cases refuse key with
    | none =>
      funext other
      exact lookup_put m key payload other
    | some fault => rfl
  loaded key payload m held := by
    change ((Checkpoints.memory.load key).run m).1 = _
    simp only [Checkpoints.memory, ExceptT.run, held]
  curve _ _ _ _ := rfl

def sampleSchool : Except Fault (Trainer Checkpoints.Memory) := do
  let fresh ← Environment.sample 1 (.ofFunction "echo" Interpreter.runEcho)
  let made ← Agent.create .qlearning (.count 3) (.count 16) [] (.ofSeed 1) (.moment 0)
  create sampleEvaluating sampleStorage ⟨fresh.after [], made.after [], []⟩ []

def sampleTerm : TrainingCall := ⟨.count 3, .count 0, .count 1⟩

/-- Of three episodes the second one is not saved; two are made again by an agent that had other
settings and another source, and whose trainer saves nothing. -/
theorem checkpoints_resume_sample : ∃ fresh made first a text b again,
    Environment.sample 1 (.ofFunction "echo" Interpreter.runEcho) = .ok fresh ∧
    Agent.create .qlearning (.count 3) (.count 16) [] (.ofSeed 1) (.moment 0) = .ok made ∧
    create sampleEvaluating sampleStorage ⟨fresh.after [], made.after [], []⟩ [] = .ok first ∧
    let t := first.afterCalls [sampleTerm]
    t.checkpoints = ["checkpoint_ep1", "checkpoint_ep3"] ∧
    (first.diary [sampleTerm])[0]? = some a ∧ a.save = .ok text ∧
    ((sampleStorage.checkpoints.load "checkpoint_ep1").run (t.afterCalls [sampleTerm]).world).1 =
      .ok text ∧
    Agent.create .qlearning (.count 3) (.count 16) [("gamma", .number 0.5)] (.ofSeed 7)
      (.moment 0) = .ok b ∧
    create samplePlain sampleStorage
      ⟨fresh.after [], { (b.load text).2 with source := a.source }, []⟩ [] = .ok again ∧
    let v := again.afterCalls [⟨.count 2, .count 0, .count 0⟩]
    v.history.map (fun x => { x with episode := x.episode + 1 }) = t.history.drop 1 ∧
    v.scene.agent = t.scene.agent := by
  have functional : (Interpreter.ofFunction "echo" Interpreter.runEcho :
    Interpreter Float).Functional := fun _ _ _ => rfl
  have total : (Interpreter.ofFunction "echo" Interpreter.runEcho : Interpreter Float).NeverFaults :=
    Interpreter.ofFunction_neverFaults "echo" Interpreter.runEcho
  have dated : (Instant.moment 0).Dated := ⟨0, rfl, by decide⟩
  obtain ⟨fresh, created⟩ : ∃ fresh,
    Environment.sample 1 (.ofFunction "echo" Interpreter.runEcho) = .ok fresh := ⟨_, rfl⟩
  obtain ⟨made, accepted⟩ : ∃ made, Agent.create .qlearning (.count 3) (.count 16) [] (.ofSeed 1)
    (.moment 0) = .ok made := ⟨_, rfl⟩
  obtain ⟨b, another⟩ : ∃ b, Agent.create .qlearning (.count 3) (.count 16)
    [("gamma", .number 0.5)] (.ofSeed 7) (.moment 0) = .ok b := ⟨_, rfl⟩
  obtain ⟨first, built⟩ : ∃ first, create sampleEvaluating sampleStorage
    ⟨fresh.after [], made.after [], []⟩ [] = .ok first := ⟨_, rfl⟩
  have whole : sampleSchool = .ok first := by
    cases created
    cases accepted
    exact built
  have clock : made.clock = .moment 0 := by
    cases accepted
    rfl
  have run : sampleSchool.toOption.any (fun first =>
      let t := first.afterCalls [sampleTerm]
      ((call sampleTerm).run first).1.isOk &&
        t.checkpoints == ["checkpoint_ep1", "checkpoint_ep3"] && t.history.length == 3 &&
        (t.afterCalls [sampleTerm]).history.length == 6 &&
        (first.diary [sampleTerm])[0]?.any fun a =>
          decide (∀ x ∈ a.numbers, x.isFinite = true ∧ x ≠ -0.0)) = true := by
    decide +kernel
  simp only [whole, Except.toOption, Option.any_some, Bool.and_eq_true, beq_iff_eq,
    Option.any_eq_true_iff_get, decide_eq_true_eq] at run
  obtain ⟨⟨⟨⟨answered, checkpoints⟩, three⟩, six⟩, plain⟩ := run
  obtain ⟨a, there, plain⟩ : ∃ a, (first.diary [sampleTerm])[0]? = some a ∧
      ∀ x ∈ a.numbers, x.isFinite = true ∧ x ≠ -0.0 := by
    obtain ⟨_, plain⟩ := plain
    exact ⟨_, Option.some_get .. |>.symm, plain⟩
  have answers : first.Answers [sampleTerm] := ⟨fun _ => answered, trivial⟩
  have key : checkpointKey (.count 1) = "checkpoint_ep1" := by decide +kernel
  have stored : checkpointKey (.count 1) ∈ (first.afterCalls [sampleTerm]).checkpoints := by
    rw [key, checkpoints]
    exact List.mem_cons_self
  obtain ⟨_, _, texts, resumed⟩ := checkpoints_resume (υ := Checkpoints.Memory) created accepted
    [] [] (working_refusing _) built [sampleTerm] [sampleTerm]
  obtain ⟨text, saved, loads⟩ := texts 0 a there stored (by rw [six]; decide)
  obtain ⟨_, goes⟩ := resumed functional total (by decide) (clock ▸ dated) answers 0 a text there saved
    plain another
  obtain ⟨again, rebuilt⟩ : ∃ again, create samplePlain sampleStorage
    ⟨fresh.after [], { (b.load text).2 with source := a.source }, []⟩ [] = .ok again := ⟨_, rfl⟩
  obtain ⟨long, same⟩ := goes rebuilt [⟨.count 2, .count 0, .count 0⟩] (by rw [three]; rfl)
  obtain ⟨records, _, agents⟩ := same (long rfl)
  rw [key] at loads
  exact ⟨fresh, made, first, a, text, b, again, created, accepted, built, checkpoints, there, saved,
    loads, another, rebuilt, records, agents clock.symm⟩

end Trainer
end ProgramGym
