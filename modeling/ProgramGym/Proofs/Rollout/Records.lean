import ProgramGym.Proofs.ClosedLoop

/-! What an episode says of itself. Its figures are added up beside the environment, which keeps
every step on its own, and an actor whose calls are noted is told the steps one by one. Main
statement: with an interpreter that never faults and an actor that never fails, whatever actions it
chooses, an episode ends within its budget, its record says what the environment says, and in
training exactly the transitions have been learned from, in their order. -/
namespace ProgramGym

theorem Rules.reason_eq_success_iff {α : Type} (r : Rules α) (matched isStop invalid : Bool)
    (stepCount : Nat) : r.reason matched isStop invalid stepCount = some .success ↔
      matched = true := by
  unfold reason
  constructor
  · intro success
    split_ifs at success with same
    · exact same
    all_goals cases success
  · intro same
    rw [if_pos same]

/-- Only the policy that says so ends an episode for an invalid action. -/
theorem Rules.terminate_of_reason {α : Type} (r : Rules α) {matched isStop invalid : Bool}
    {stepCount : Nat} (ended : r.reason matched isStop invalid stepCount = some .invalidAction) :
    r.settings.invalidActionPolicy = .terminate := by
  unfold reason at ended
  split_ifs at ended with _ _ _ terminates
  all_goals try cases ended
  rw [Bool.and_eq_true, beq_iff_eq] at terminates
  exact terminates.2

namespace Environment
variable {α : Type} [Scalar α] {env next : Environment α} {action : Quantity α} {r : StepResult α}

/-- What the environment keeps of a step. -/
def transition (env : Environment α) (action : Quantity α) (r : StepResult α) : Transition α :=
  ⟨env.observe, action, r.reward, r.observation, r.done, r.info⟩

/-- What a step that succeeds leaves behind of itself. -/
structure Noted (env next : Environment α) (action : Quantity α) (r : StepResult α) : Prop where
  transitions : next.transitions = env.transitions ++ [env.transition action r]
  tokens : next.episode.tokens = env.episode.tokens ++ r.info.token.toList
  success : r.info.outcome.matched = true ↔ next.episode.reason = some .success
  invalid : next.episode.reason = some .invalidAction →
    next.rules.settings.invalidActionPolicy = .terminate

theorem step_noted (taken : env.step action = (.ok r, next)) : Noted env next action r := by
  obtain ⟨_, outcome, calls, _, rfl, rfl⟩ := step_eq_ok taken
  constructor
  · rfl
  · rfl
  · rw [conclusion_reason]
    exact (env.rules.reason_eq_success_iff ..).symm
  · intro invalid
    rw [conclusion_reason] at invalid
    exact env.rules.terminate_of_reason invalid

theorem step_consistent (consistent : env.Consistent) (taken : env.step action = (.ok r, next)) :
    next.Consistent := by
  obtain ⟨going, outcome, calls, _, rfl, rfl⟩ := step_eq_ok taken
  exact consistent_conclusion consistent going action outcome calls

end Environment

/-- A call that an episode makes of its actor. -/
inductive ActorCall (α : Type) where
  | startEpisode
  | act (seen : Observation α) (explore : Bool)
  | learn (seen : Observation α) (action : Quantity α) (reward : α) (next : Observation α)
      (done : Bool)

/-- An actor together with the calls that have been made of it. -/
structure Logged (σ α : Type) where
  actor : σ
  calls : List (ActorCall α)

instance {σ α : Type} [Actor σ α] : Actor (Logged σ α) α where
  act a seen explore :=
    let (answer, actor) := Actor.act a.actor seen explore
    (answer, ⟨actor, a.calls ++ [.act seen explore]⟩)
  startEpisode a := ⟨Actor.startEpisode a.actor, a.calls ++ [.startEpisode]⟩
  learn a seen action reward next done :=
    let (answer, actor) := Actor.learn a.actor seen action reward next done
    (answer, ⟨actor, a.calls ++ [.learn seen action reward next done]⟩)

namespace Rollout

section
variable {σ : Type} [Actor σ Float]

/-- Actors that never fail: they choose something for everything they can see and, in training, can
learn from whatever comes of it. -/
structure Unfailing (train : Bool) (features : Nat) (fine : σ → Prop) : Prop where
  startEpisode : train = true → ∀ {a}, fine a → fine (Actor.startEpisode a)
  act : ∀ {a} {seen : Observation Float}, fine a → seen.features.length = features →
    ∃ action acted, Actor.act a seen train = (.ok action, acted) ∧ fine acted ∧
      (train = true → ∀ reward (next : Observation Float) done, next.features.length = features →
        ∃ learnt, Actor.learn acted seen action reward next done = (.ok (), learnt) ∧ fine learnt)

/-- The calls that go with one step. -/
def stepCalls (train : Bool) (t : Transition Float) : List (ActorCall Float) :=
  .act t.observation train ::
    if train then [.learn t.observation t.action t.reward t.nextObservation t.done] else []

/-- All calls of an episode. -/
def episodeCalls (train : Bool) (transitions : List (Transition Float)) : List (ActorCall Float) :=
  (if train then [.startEpisode] else []) ++ transitions.flatMap (stepCalls train)

/-- What has been added up is what the environment has kept. -/
structure Kept (tally : Tally Float) (env : Environment Float) : Prop where
  consistent : env.Consistent
  steps : tally.steps = env.episode.stepCount
  totalReward : tally.totalReward = env.trajectory.totalReturn
  success : tally.success = true ↔ env.episode.reason = some .success
  tokens : env.episode.tokens = env.transitions.filterMap (·.info.token)
  invalid : env.episode.reason = some .invalidAction →
    env.rules.settings.invalidActionPolicy = .terminate

/-- What the record of an episode and the environment at its end say of one another. -/
structure Reports (env : Environment Float) (record : EpisodeRecord Float) : Prop where
  ended : env.done = true
  started : 1 ≤ record.steps
  within : record.steps ≤ env.rules.settings.maxSteps
  stepCount : record.steps = env.episode.stepCount
  length : record.steps = env.trajectory.transitions.length
  totalReward : record.totalReward = env.trajectory.totalReturn
  reason : record.reason = env.episode.reason
  isSome : record.reason.isSome = true
  success : record.success = true ↔ record.reason = some .success
  invalid : record.reason = some .invalidAction →
    env.rules.settings.invalidActionPolicy = .terminate
  /-- The tokens that were emitted, without the end token. -/
  program : record.program = Text.join env.rules.settings.separator
    ((env.trajectory.transitions.filterMap (·.info.token)).filter
      fun token => some token != env.rules.settings.endToken)
  unfinished : ∀ t ∈ env.trajectory.transitions.dropLast, t.done = false
  finished : ∀ t ∈ env.trajectory.transitions.getLast?, t.done = true

variable {train : Bool} {env next : Environment Float} {actor : σ} {fuel features : Nat}
  {fine : σ → Prop} {tally : Tally Float} {record : EpisodeRecord Float} {action : Quantity Float} {r : StepResult Float}

theorem kept_restart (env : Environment Float) (budget : 0 < env.rules.settings.maxSteps) :
    Kept .zero env.restart where
  consistent := Environment.consistent_restart env budget
  steps := rfl
  totalReward := rfl
  success := by simp [Tally.zero, Environment.restart, Episode.start]
  tokens := rfl
  invalid := nofun

theorem Kept.step (kept : Kept tally env) (taken : env.step action = (.ok r, next)) :
    Kept (tally.add r) next := by
  have led := Environment.step_followed taken
  have noted := Environment.step_noted taken
  constructor
  · exact Environment.step_consistent kept.consistent taken
  · rw [led.stepCount, ← kept.steps]
    rfl
  · simp only [Environment.trajectory, noted.transitions, List.foldl_append, List.foldl_cons,
      List.foldl_nil]
    exact congrArg (· + r.reward) kept.totalReward
  · exact noted.success
  · rw [noted.tokens, noted.transitions, kept.tokens, List.filterMap_append]
    cases token : r.info.token <;> simp [Environment.transition, token]
  · exact noted.invalid

theorem learnFrom_logged (train : Bool) (actor : σ) (calls : List (ActorCall Float))
    (seen : Observation Float) (action : Quantity Float) (r : StepResult Float) :
    learnFrom train (Logged.mk actor calls) seen action r =
      ((learnFrom train actor seen action r).1, ⟨(learnFrom train actor seen action r).2,
        calls ++ if train then [.learn seen action r.reward r.observation r.done] else []⟩) := by
  cases train with
  | false => exact congrArg (fun calls => (_, Logged.mk actor calls)) (List.append_nil calls).symm
  | true => rfl

/-- A turn cannot fail, with or without its calls noted. -/
theorem turn_unfailing (unfailing : Unfailing train features fine) (holds : fine actor)
    (total : env.rules.interpreter.NeverFaults) (going : env.done = false)
    (width : env.rules.shape.featureCount = features) :
    ∃ action r next after, env.step action = (.ok r, next) ∧ fine after ∧
      turn train env.observe env actor = (.ok r, next, after) ∧
      ∀ calls, turn train env.observe env (Logged.mk actor calls) =
        (.ok r, next, ⟨after, calls ++ stepCalls train (env.transition action r)⟩) := by
  have sees (env : Environment Float) (width : env.rules.shape.featureCount = features) :
      env.observe.features.length = features := width ▸ Observation.length_encode ..
  obtain ⟨action, acted, chosen, stays, learns⟩ := unfailing.act holds (sees env width)
  obtain ⟨r, next, taken⟩ := Environment.step_total total going action
  have led := Environment.step_followed taken
  have follows : r.observation.features.length = features := by
    rw [led.observation]
    exact sees next (led.rules ▸ width)
  obtain ⟨after, learnt, stays⟩ : ∃ after,
      learnFrom train acted env.observe action r = (.ok (), after) ∧ fine after := by
    cases train with
    | false => exact ⟨acted, rfl, stays⟩
    | true => exact learns rfl r.reward r.observation r.done follows
  refine ⟨action, r, next, after, taken, stays, ?_, fun calls => ?_⟩
  · rw [turn, chosen]
    simp only [taken, learnt]
  · have noted : Actor.act (Logged.mk actor calls) env.observe train =
        (.ok action, ⟨acted, calls ++ [.act env.observe train]⟩) :=
      congrArg (fun answered : Except Fault (Quantity Float) × σ =>
        (answered.1, Logged.mk answered.2 (calls ++ [.act env.observe train]))) chosen
    rw [turn, noted]
    simp only [taken, learnFrom_logged, learnt, List.append_assoc]
    rfl

/-- No turn of an episode fails, and its calls are those that go with its transitions. -/
theorem steps_unfailing (unfailing : Unfailing train features fine) (holds : fine actor)
    (way : UnderWay env fuel) (kept : Kept tally env)
    (total : env.rules.interpreter.NeverFaults)
    (width : env.rules.shape.featureCount = features) :
    ∃ sum next after later, steps train fuel tally env.observe env actor = (.ok sum, next, after) ∧
      (∀ calls, steps train fuel tally env.observe env (Logged.mk actor calls) =
        (.ok sum, next, ⟨after, calls ++ later.flatMap (stepCalls train)⟩)) ∧
      next.transitions = env.transitions ++ later ∧ next.rules = env.rules ∧ next.done = true ∧
      fine after ∧ Kept sum next ∧ env.episode.stepCount < next.episode.stepCount := by
  induction fuel generalizing tally env actor with
  | zero => exact absurd way.enough (Nat.not_le.mpr way.below)
  | succ fuel ih =>
    obtain ⟨action, r, next, after, taken, holds, turned, noted⟩ :=
      turn_unfailing unfailing holds total way.going width
    have led := Environment.step_followed taken
    have transitions := (Environment.step_noted taken).transitions
    have kept := kept.step taken
    simp only [steps_succ _ _ _ _ _ _ way.going, turned, noted]
    rcases way.followed led with ⟨_, ended⟩ | ⟨_, way⟩
    · refine ⟨tally.add r, next, after, _, steps_done _ _ _ _ _ _ ended, fun calls => ?_,
        transitions, led.rules, ended, holds, kept, led.stepCount ▸ Nat.lt_succ_self _⟩
      rw [steps_done _ _ _ _ _ _ ended, List.flatMap_singleton]
    · obtain ⟨sum, last, final, later, ran, logged, all, rules, ended, holds, kept, more⟩ :=
        ih holds way kept (led.rules ▸ total) (led.rules ▸ width)
      rw [led.observation]
      refine ⟨sum, last, final, env.transition action r :: later, ran, fun calls => ?_, ?_, rules.trans led.rules, ended,
        holds, kept, ?_⟩
      · rw [logged, List.flatMap_cons, List.append_assoc]
      · rw [all, transitions, List.append_assoc]
        rfl
      · have := led.stepCount
        omega

/-- What has been added up by the end is what the record reports. -/
theorem Kept.reports (kept : Kept tally env) (ended : env.done = true)
    (some : 0 < env.episode.stepCount) (episode : Nat) :
    Reports env ⟨episode, tally.totalReward, tally.success, tally.steps, env.episode.reason,
      env.program⟩ where
  ended := ended
  started := kept.steps.symm ▸ some
  within := kept.steps.trans_le kept.consistent.stepCount_le
  stepCount := kept.steps
  length := kept.steps.trans kept.consistent.recorded.symm
  totalReward := kept.totalReward
  reason := rfl
  isSome := ended
  success := kept.success
  invalid := kept.invalid
  program := by
    change env.rules.program env.episode.tokens = _
    rw [kept.tokens]
    rfl
  unfinished := kept.consistent.unfinished
  finished t last := (kept.consistent.latest t last).2.trans ended

/-- An episode of an actor that never fails, and the calls that it makes. -/
theorem run_unfailing (unfailing : Unfailing train features fine) (holds : fine actor)
    (budget : 0 < env.rules.settings.maxSteps) (total : env.rules.interpreter.NeverFaults)
    (width : env.rules.shape.featureCount = features) (episode : Nat) :
    ∃ record next after, run train episode env actor = (.ok record, next, after) ∧
      (∀ calls, run train episode env (Logged.mk actor calls) =
        (.ok record, next, ⟨after, calls ++ episodeCalls train next.trajectory.transitions⟩)) ∧
      next.rules = env.rules ∧ fine after ∧ Reports next record := by
  have started : fine (if train then Actor.startEpisode actor else actor) := by
    cases train with
    | true => exact unfailing.startEpisode rfl holds
    | false => exact holds
  obtain ⟨sum, next, after, later, ran, logged, transitions, rules, ended, holds, kept, more⟩ :=
    steps_unfailing unfailing started (underWay_restart budget) (kept_restart env budget) total width
  replace transitions : next.transitions = later := transitions
  refine ⟨_, next, after, by rw [run_eq, ran]; rfl, fun calls => ?_, rules, holds,
    kept.reports ended (Nat.zero_lt_of_lt more) episode⟩
  have begun : (if train then Actor.startEpisode (Logged.mk actor calls) else ⟨actor, calls⟩) =
      Logged.mk (if train then Actor.startEpisode actor else actor)
        (calls ++ if train then [.startEpisode] else []) := by
    cases train with
    | true => rfl
    | false => exact congrArg (Logged.mk actor) (List.append_nil calls).symm
  rw [run_eq, begun, logged, List.append_assoc, ← transitions]
  rfl

end

end Rollout
end ProgramGym
