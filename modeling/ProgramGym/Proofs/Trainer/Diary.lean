import Mathlib.Logic.Function.Basic
import ProgramGym.Proofs.Rollout.Simulation
import ProgramGym.Proofs.Trainer.Calls

/-! The diary of a training: the agent as it is right after each episode of the history, before the
evaluation and the checkpoint that may follow. The trainer keeps no diary; it is read off the run
here, to say what checkpoints are checkpoints of. What an episode with its bookkeeping does to a
property of diary and trainer, calls do. Main statement: in a store that gives back what was saved
last, each checkpoint stays the text of the agent in the diary. -/
namespace ProgramGym.Trainer
variable {ω : Type}

/-- The agent right after an episode, if it ends well. -/
def taught (t : Trainer ω) (episode : Nat) : List Agent :=
  match (inScene (Scene.runEpisode true episode)).run t with
  | (.ok _, u) => [u.scene.agent]
  | (.error _, _) => []

def taughtIn (last evalEvery saveEvery : Nat) : (count episode : Nat) → Trainer ω → List Agent
  | 0, _, _ => []
  | count + 1, episode, t => t.taught episode ++
    match (trainOne episode last evalEvery saveEvery).run t with
    | (.ok _, u) => taughtIn last evalEvery saveEvery count (episode + 1) u
    | (.error _, _) => []

/-- The agents right after the episodes of a call. -/
def entries (t : Trainer ω) (c : TrainingCall) : List Agent :=
  match Scene.requireCount "numEpisodes" c.count, requireInterval "evalEvery" c.evalEvery,
    requireInterval "saveEvery" c.saveEvery with
  | .ok count, .ok evalEvery, .ok saveEvery =>
    taughtIn (t.history.length + count) evalEvery saveEvery count (t.history.length + 1)
      ((announceStart count).run t).2
  | _, _, _ => []

/-- The agents right after the episodes of calls. -/
def diary (t : Trainer ω) : List TrainingCall → List Agent
  | [] => []
  | c :: calls => t.entries c ++ ((call c).run t).2.diary calls

theorem entries_refused {c : TrainingCall} (refused : c.accepted? = none) (t : Trainer ω) :
    t.entries c = [] := by
  rw [entries]
  split
  · next counted evaluates saves =>
    rw [TrainingCall.accepted?, counted, evaluates, saves] at refused
    cases refused
  · rfl

section
variable {p failed : List Agent → Trainer ω → Prop}

/-- What an episode with its bookkeeping does to diary and trainer. -/
def Keeps (p failed : List Agent → Trainer ω → Prop) : Prop :=
  ∀ d (t : Trainer ω) last evalEvery saveEvery, p d t →
    Op.Ensures (· = t) (trainOne (t.history.length + 1) last evalEvery saveEvery)
      (fun _ u => p (d ++ t.taught (t.history.length + 1)) u ∧
        u.history.length = t.history.length + 1)
      fun _ => failed (d ++ t.taught (t.history.length + 1))

theorem Keeps.trainMany (keeps : Keeps p failed) {d : List Agent} {t : Trainer ω} (holds : p d t)
    (last evalEvery saveEvery count : Nat) :
    Op.Ensures (· = t) (trainMany last evalEvery saveEvery count (t.history.length + 1))
      (fun _ => p (d ++ taughtIn last evalEvery saveEvery count (t.history.length + 1) t))
      fun _ => failed (d ++ taughtIn last evalEvery saveEvery count (t.history.length + 1) t) := by
  induction count generalizing d t with
  | zero =>
    simp only [taughtIn, List.append_nil]
    exact Op.ensures_pure fun u same => same ▸ holds
  | succ count ih =>
    have led := keeps d t last evalEvery saveEvery holds t rfl
    intro s same
    rw [same, Trainer.trainMany, Op.run_bind, taughtIn]
    rcases ran : (trainOne (t.history.length + 1) last evalEvery saveEvery).run t with ⟨e | _, u⟩ <;>
      rw [ran] at led
    · simpa using led
    · obtain ⟨holds, length⟩ := led
      have rest := ih holds u rfl
      rw [length, List.append_assoc] at rest
      exact rest

theorem Keeps.call (keeps : Keeps p failed) (unheard : ∀ d, Unheard (p d))
    (weaker : ∀ d t, p d t → failed d t)
    (evaluation : ∀ d last count, Op.Ensures (p d) (finalEvaluation last count) (fun _ => p d)
      fun _ => failed d)
    (curve : ∀ d last, Op.Ensures (p d) (saveCurve last) (fun _ => p d) fun _ => failed d)
    {d : List Agent} {t : Trainer ω} (holds : p d t) (c : TrainingCall) :
    Op.Ensures (· = t) (call c) (fun _ => p (d ++ t.entries c)) fun _ => failed (d ++ t.entries c) := by
  have after (i : Nat) : Unheard (p (d ++ t.entries c)) := unheard _
  refine (ensures_call_of_many t c (fun _ => p (d ++ t.entries c)) (fun _ => p (d ++ t.entries c))
    (fun _ => p (d ++ t.entries c)) after (fun e refused => ?_)
    (fun count accepted evalEvery saveEvery evaluates saves => ?_)
    (fun count _ => evaluation _ _ _) fun count _ => curve _ _).weaken (fun _ => id)
    (fun _ _ led => led.2.choose_spec.2) fun _ _ => id
  · rw [entries_refused refused, List.append_nil]
    exact weaker d t holds
  · have counted : Scene.requireCount "numEpisodes" c.count = .ok count := by
      unfold TrainingCall.accepted? at accepted
      split at accepted
      · next counted _ _ => rw [counted, Option.some.inj accepted]
      · cases accepted
    have entries : t.entries c = taughtIn (t.history.length + count) evalEvery saveEvery count
        (t.history.length + 1) ((announceStart count).run t).2 := by
      simp only [Trainer.entries, counted, evaluates, saves]
    obtain ⟨console, ran⟩ := t.run_announceStart count
    rw [entries, ran]
    exact keeps.trainMany (unheard d t console holds) _ _ _ _

end
/-! Evaluations and writes, next to a diary. -/

/-- A greedy episode leaves another environment with the same rules and the agent with another
source, whether it ends well or not. -/
theorem ensures_greedy {p : Trainer ω → Prop}
    (blind : ∀ t env source, env.rules = t.scene.env.rules → p t →
      p { t with scene := { t.scene with env, agent := { t.scene.agent with source } } })
    (t : Trainer ω) (number : Nat) :
    Op.Ensures (fun s => p { t with scene := s }) (Scene.runEpisode false number)
      (fun _ s => p { t with scene := s }) fun _ s => p { t with scene := s } := by
  intro s holds
  have rules := Rollout.run_rules false number s.env s.agent
  have agent := s.agent.run_greedy_source number s.env
  have after := blind { t with scene := s } _ (Rollout.run false number s.env s.agent).2.2.source
    rules holds
  rw [← agent] at after
  rw [Scene.run_runEpisode]
  rcases (Rollout.run false number s.env s.agent).1 with fault | record <;> exact after

theorem ensures_evaluate_blind {p : Trainer ω → Prop} {failed : Fault → Trainer ω → Prop}
    (unheard : Unheard p)
    (blind : ∀ t env source, env.rules = t.scene.env.rules → p t →
      p { t with scene := { t.scene with env, agent := { t.scene.agent with source } } })
    (noted : ∀ t evaluations, p t → p { t with evaluations })
    (weaker : ∀ e t, p t → failed e t) (episode : Nat) :
    Op.Ensures p (evaluate episode) (fun _ => p) failed :=
  ensures_evaluate unheard
    (fun t number => (ensures_greedy blind t number).weaken (fun _ => id) (fun _ _ => id)
      fun e _ => weaker e _)
    fun t _ holds => noted t _ holds

end ProgramGym.Trainer

namespace ProgramGym
variable {ω : Type}

/-- A store in which each save that succeeds puts its text in the place of what it held under the
key, one that fails changes nothing, and a load gives what is held. The curve is kept elsewhere. -/
structure TrainingStorage.Working (storage : TrainingStorage ω)
    (holds : ω → String → Option String) : Prop where
  saved : ∀ key payload world, match (storage.checkpoints.save key payload).run world with
    | (.ok _, after) => holds after = Function.update (holds world) key (some payload)
    | (.error _, after) => holds after = holds world
  loaded : ∀ key payload world, holds world key = some payload →
    ((storage.checkpoints.load key).run world).1 = .ok payload
  curve : ∀ content world key, key ≠ curveKey →
    holds ((storage.writeCurve content).run world).2 key = holds world key

namespace Trainer
variable {storage : TrainingStorage ω} {holds : ω → String → Option String} {base : List String}
  {d : List Agent} {t : Trainer ω}

/-- Each checkpoint is the text of an agent in the diary, under the number of its episode, and none
of some earlier ones is gone. -/
structure Held (storage : TrainingStorage ω) (holds : ω → String → Option String)
    (base : List String) (d : List Agent) (t : Trainer ω) : Prop where
  storage : t.storage = storage
  length : t.history.length = d.length
  kept : ∀ key ∈ base, key ∈ t.checkpoints
  stored : ∀ key ∈ t.checkpoints, ∃ n a text, key = checkpointKey (.count (n + 1)) ∧
    d[n]? = some a ∧ a.save = .ok text ∧ holds t.world key = some text

/-- Between an episode and the end of its bookkeeping the agent is the last one in the diary, but
for what an evaluation has drawn. -/
structure Latest (storage : TrainingStorage ω) (holds : ω → String → Option String)
    (base : List String) (d : List Agent) (t : Trainer ω) : Prop
    extends Held storage holds base d t where
  latest : ∃ a, d.getLast? = some a ∧ t.scene.agent = { a with source := t.scene.agent.source }

theorem Held.unheard (d : List Agent) :
    Unheard (Held storage holds base d : Trainer ω → Prop) := fun _ _ held => { held with }

theorem Latest.unheard (d : List Agent) :
    Unheard (Latest storage holds base d : Trainer ω → Prop) := fun _ _ latest => { latest with }

theorem Held.grow (held : Held storage holds base d t) (a : Agent) (r : EpisodeRecord Float)
    (scene : Scene) :
    Held storage holds base (d ++ [a]) { t with scene, history := t.history ++ [r] } where
  storage := held.storage
  length := by simp [held.length]
  kept := held.kept
  stored key inside := by
    obtain ⟨n, b, text, key, there, saved, loaded⟩ := held.stored key inside
    refine ⟨n, b, text, key, ?_, saved, loaded⟩
    rw [List.getElem?_append_left (List.getElem?_eq_some_iff.mp there).1, there]

theorem runEpisode_held (held : Held storage holds base d t) (episode : Nat) :
    Op.Ensures (· = t) (inScene (Scene.runEpisode true episode))
      (fun r u => Latest storage holds base (d ++ t.taught episode) (record r u) ∧
        (d ++ t.taught episode).length = t.history.length + 1)
      fun _ => Held storage holds base (d ++ t.taught episode) := by
  rintro s rfl
  have ran : (inScene (Scene.runEpisode true episode)).run s =
      (((Scene.runEpisode true episode).run s.scene).1,
        { s with scene := ((Scene.runEpisode true episode).run s.scene).2 }) := rfl
  rw [taught, ran]
  rcases (Scene.runEpisode true episode).run s.scene with ⟨fault | r, scene⟩
  · rw [List.append_nil]
    exact { held with }
  · exact ⟨{ held.grow scene.agent r scene with latest := ⟨scene.agent, by simp, rfl⟩ },
      by simp [held.length]⟩

theorem evaluate_held (d : List Agent) (episode : Nat) :
    Op.Ensures (Held storage holds base d : Trainer ω → Prop) (evaluate episode)
      (fun _ => Held storage holds base d) fun _ => Held storage holds base d :=
  ensures_evaluate_blind (Held.unheard d) (fun _ _ _ _ held => { held with })
    (fun _ _ held => { held with }) (fun _ _ => id) episode

theorem evaluate_latest (d : List Agent) (episode : Nat) :
    Op.Ensures (Latest storage holds base d : Trainer ω → Prop) (evaluate episode)
      (fun _ => Latest storage holds base d) fun _ => Held storage holds base d :=
  ensures_evaluate_blind (Latest.unheard d)
    (fun t env source _ latest =>
      { latest with
        latest := by
          obtain ⟨a, last, same⟩ := latest.latest
          exact ⟨a, last, by simp only; rw [same]⟩ })
    (fun _ _ latest => { latest with }) (fun _ _ latest => latest.toHeld) episode

theorem Latest.stores (latest : Latest storage holds base d t)
    {payload : String} (saved : t.scene.agent.save = .ok payload) {after : ω}
    (holding : holds after =
      Function.update (holds t.world) (checkpointKey (.count d.length)) (some payload)) :
    Latest storage holds base d { t with
      world := after, checkpoints := t.checkpoints ++ [checkpointKey (.count d.length)] } where
  storage := latest.storage
  length := latest.length
  kept key inside := List.mem_append_left _ (latest.kept key inside)
  latest := latest.latest
  stored key inside := by
    obtain ⟨a, last, same⟩ := latest.latest
    rw [holding]
    by_cases new : key = checkpointKey (.count d.length)
    · have some : 0 < d.length := List.length_pos_of_mem (List.mem_of_getLast? last)
      refine ⟨d.length - 1, a, payload, ?_, ?_, ?_, ?_⟩
      · rw [new, Nat.sub_add_cancel some]
      · rw [← List.getLast?_eq_getElem?, last]
      · rw [← saved, same]
        rfl
      · rw [new, Function.update_self]
    · have old : key ∈ t.checkpoints := by simpa [new] using inside
      rw [Function.update_of_ne new]
      exact latest.stored key old

theorem saveCheckpoint_latest (working : storage.Working holds) (d : List Agent) :
    Op.Ensures (Latest storage holds base d : Trainer ω → Prop) (saveCheckpoint d.length)
      (fun _ => Latest storage holds base d) fun _ => Held storage holds base d := by
  refine ensures_persist (fun _ => Latest.unheard d) ?_ (fun _ _ latest _ => latest)
    fun _ _ latest _ => latest.toHeld
  refine Op.ensures_get fun t => ?_
  refine Op.Ensures.bind
    (fun payload u => t.scene.agent.save = .ok payload ∧ u = t ∧ Latest storage holds base d u)
    ((Op.ensures_ofExcept _).weaken (fun _ => id) (fun _ _ => id) fun _ _ fails =>
      { fails.2.2 with }) fun payload => ?_
  refine Op.Ensures.bind (fun _ u => Latest storage holds base d { u with
    checkpoints := u.checkpoints ++ [checkpointKey (.count d.length)] }) ?_
    fun _ => Op.ensures_modify fun _ => id
  refine Op.ensures_onPart fun u ⟨saved, same, latest⟩ world at_ => ?_
  subst same at_
  have write := working.saved (checkpointKey (.count d.length)) payload u.world
  rw [← latest.storage] at write
  rcases ran : (u.storage.checkpoints.save (checkpointKey (.count d.length)) payload).run u.world with
    ⟨fault | _, after⟩ <;> rw [ran] at write
  · exact { latest with stored := by simpa only [write] using latest.stored }
  · exact latest.stores saved write

theorem checkpointKey_ne_curveKey (episode : Quantity Float) : checkpointKey episode ≠ curveKey := by
  intro same
  have := congrArg (fun key => key.toList.head?) same
  simp [checkpointKey, curveKey] at this

theorem saveCurve_held (working : storage.Working holds) (d : List Agent) (episode : Nat) :
    Op.Ensures (Held storage holds base d : Trainer ω → Prop) (saveCurve episode)
      (fun _ => Held storage holds base d) fun _ => Held storage holds base d := by
  refine ensures_persist (fun _ => Held.unheard d) ?_ (fun _ _ held _ => held) fun _ _ held _ => held
  refine Op.ensures_get fun t => Op.ensures_onPart fun u ⟨same, held⟩ world at_ => ?_
  subst same at_
  have kept (key : String) (other : key ≠ curveKey) :=
    working.curve (curveJson u.history).indented u.world key other
  rw [← held.storage] at kept
  have stored : ∀ key ∈ u.checkpoints, ∃ n a text, key = checkpointKey (.count (n + 1)) ∧
      d[n]? = some a ∧ a.save = .ok text ∧
      holds ((u.storage.writeCurve (curveJson u.history).indented).run u.world).2 key = some text := by
    intro key inside
    obtain ⟨n, a, text, named, rest⟩ := held.stored key inside
    exact ⟨n, a, text, named, by rwa [kept key (named ▸ checkpointKey_ne_curveKey _)]⟩
  rcases ran : (u.storage.writeCurve (curveJson u.history).indented).run u.world with
    ⟨fault | _, after⟩ <;> rw [ran] at stored <;> exact { held with stored }

theorem finalEvaluation_held (d : List Agent) (last count : Nat) :
    Op.Ensures (Held storage holds base d : Trainer ω → Prop) (finalEvaluation last count)
      (fun _ => Held storage holds base d) fun _ => Held storage holds base d :=
  ensures_finalEvaluation ((evaluate_held d last).weaken (fun _ => And.left) (fun _ _ => id)
    fun _ _ => id) fun _ held _ => held

theorem keeps_held (working : storage.Working holds) :
    Keeps (Held storage holds base) (Held storage holds base) := by
  intro d t last evalEvery saveEvery held
  have recorded := runEpisode_held held (t.history.length + 1)
  generalize d ++ t.taught (t.history.length + 1) = grown at recorded ⊢
  have saved : Op.Ensures (fun u : Trainer ω => Latest storage holds base grown u ∧
      grown.length = t.history.length + 1) (saveCheckpoint (t.history.length + 1))
      (fun _ u => Latest storage holds base grown u ∧ grown.length = t.history.length + 1)
      fun _ => Held storage holds base grown :=
    Op.Ensures.given (fun _ latest => latest.2) fun length =>
      length ▸ (saveCheckpoint_latest working grown).frame _
  exact (ensures_trainOne last evalEvery saveEvery
    (fun u console latest => ⟨latest.1.unheard _ _ console, latest.2⟩)
    recorded (fun _ _ => id) (fun _ => (evaluate_latest grown _).frame _) (fun _ _ => id) (fun _ => saved) (fun _ _ => id)
    fun a u latest => ⟨{ latest.1.toHeld with }, latest.1.length.trans latest.2⟩)

theorem afterCalls_held (working : storage.Working holds) (held : Held storage holds base d t)
    (calls : List TrainingCall) :
    Held storage holds base (d ++ t.diary calls) (t.afterCalls calls) := by
  induction calls generalizing d t with
  | nil => simpa [diary, afterCalls] using held
  | cons c calls ih =>
    have led := (keeps_held working).call Held.unheard (fun _ _ => id)
      (fun d last count => finalEvaluation_held d last count)
      (fun d last => saveCurve_held working d last) held c t rfl
    rw [diary, afterCalls_cons, ← List.append_assoc]
    refine ih ?_
    rcases ran : (call c).run t with ⟨fault | r, u⟩ <;> rw [ran] at led <;> exact led

end Trainer
end ProgramGym
