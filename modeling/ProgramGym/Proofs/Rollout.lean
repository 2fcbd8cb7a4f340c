import ProgramGym.Evaluation
import ProgramGym.Proofs.Agent.Acting
import ProgramGym.Proofs.Environment.Calls
import ProgramGym.Proofs.Observation
import ProgramGym.Proofs.Operations

/-! Whole episodes of an agent. An episode is a chain of turns: an action, a step and, in training,
what is learned from it. An episode that ends well is counted once, by the learning at its last
step; one that is cut short by a fault is not counted. A greedy episode of a learner leaves the
agent as it is. Where the program alone decides what the interpreter reports, an episode depends on
nothing that earlier episodes left behind. An evaluation is episodes one after the other, and the
figures drawn from their records. -/
namespace ProgramGym

namespace Environment
variable {α : Type} [Scalar α] {env next : Environment α} {action : Quantity α} {r : StepResult α}

/-- What a step that succeeds says of the environment after it. -/
structure Followed (env next : Environment α) (r : StepResult α) : Prop where
  rules : next.rules = env.rules
  stepCount : next.episode.stepCount = env.episode.stepCount + 1
  done : r.done = next.done
  observation : r.observation = next.observe
  /-- The budget ends the episode. -/
  budget : env.rules.settings.maxSteps ≤ next.episode.stepCount → next.done = true

theorem step_followed (taken : env.step action = (.ok r, next)) : Followed env next r := by
  obtain ⟨_, outcome, calls, _, rfl, rfl⟩ := step_eq_ok taken
  exact
    { rules := rfl
      stepCount := rfl
      done := rfl
      observation := rfl
      budget := fun spent => env.rules.reason_of_budget _ _ _ spent }

theorem step_total (total : env.rules.interpreter.NeverFaults) (going : env.done = false)
    (action : Quantity α) : ∃ r next, env.step action = (.ok r, next) := by
  obtain ⟨outcome, calls, judged⟩ := judge_ok total action
  exact ⟨_, _, step_concluded going judged⟩

end Environment

namespace Rollout

section
variable {σ α : Type} [Scalar α] [Actor σ α]

/-- An action, the step that it leads to and what is learned from it. -/
def turn (train : Bool) (seen : Observation α) (env : Environment α) (actor : σ) :
    Except Fault (StepResult α) × Environment α × σ :=
  match Actor.act actor seen train with
  | (.error e, actor) => (.error e, env, actor)
  | (.ok action, actor) =>
    match env.step action with
    | (.error e, env) => (.error e, env, actor)
    | (.ok r, env) =>
      match learnFrom train actor seen action r with
      | (.error e, actor) => (.error e, env, actor)
      | (.ok (), actor) => (.ok r, env, actor)

/-- Everything that a turn can do. -/
theorem turn_cases (train : Bool) (seen : Observation α) (env : Environment α) (actor : σ) :
    (∃ fault after, Actor.act actor seen train = (.error fault, after) ∧
      turn train seen env actor = (.error fault, env, after)) ∨
    ∃ action acted, Actor.act actor seen train = (.ok action, acted) ∧
      ((∃ fault next, env.step action = (.error fault, next) ∧
        turn train seen env actor = (.error fault, next, acted)) ∨
      ∃ r next, env.step action = (.ok r, next) ∧
        ((∃ fault after, learnFrom train acted seen action r = (.error fault, after) ∧
          turn train seen env actor = (.error fault, next, after)) ∨
        ∃ after, learnFrom train acted seen action r = (.ok (), after) ∧
          turn train seen env actor = (.ok r, next, after))) := by
  unfold turn
  rcases Actor.act actor seen train with ⟨fault | action, acted⟩
  · exact .inl ⟨fault, acted, rfl, rfl⟩
  refine .inr ⟨action, acted, rfl, ?_⟩
  simp only
  rcases env.step action with ⟨fault | r, next⟩
  · exact .inl ⟨fault, next, rfl, rfl⟩
  refine .inr ⟨r, next, rfl, ?_⟩
  simp only
  rcases learnFrom train acted seen action r with ⟨fault | _, after⟩
  · exact .inl ⟨fault, after, rfl, rfl⟩
  · exact .inr ⟨after, rfl, rfl⟩

theorem steps_succ (train : Bool) (fuel : Nat) (tally : Tally α) (seen : Observation α)
    (env : Environment α) (actor : σ) (going : env.done = false) :
    steps train (fuel + 1) tally seen env actor = match turn train seen env actor with
      | (.error e, env, actor) => (.error e, env, actor)
      | (.ok r, env, actor) => steps train fuel (tally.add r) r.observation env actor := by
  rw [steps, if_neg (by simp [going]), turn]
  rcases Actor.act actor seen train with ⟨_ | action, actor⟩
  · rfl
  simp only
  rcases env.step action with ⟨_ | r, env⟩
  · rfl
  simp only
  rcases learnFrom train actor seen action r with ⟨_ | _, actor⟩ <;> rfl

theorem steps_done (train : Bool) (fuel : Nat) (tally : Tally α) (seen : Observation α)
    (env : Environment α) (actor : σ) (ended : env.done = true) :
    steps train fuel tally seen env actor = (.ok tally, env, actor) := by
  cases fuel with
  | zero => rfl
  | succ fuel => rw [steps, if_pos ended]

theorem turn_withCalls {env : Environment α} (functional : env.rules.interpreter.Functional)
    (train : Bool) (seen : Observation α) (actor : σ) (calls : Nat) :
    ∃ count, turn train seen (env.withCalls calls) actor =
      ((turn train seen env actor).1, (turn train seen env actor).2.1.withCalls count,
        (turn train seen env actor).2.2) := by
  unfold turn
  rcases Actor.act actor seen train with ⟨_ | action, actor⟩
  · exact ⟨calls, rfl⟩
  obtain ⟨count, stepped⟩ := Environment.step_withCalls functional action calls
  refine ⟨count, ?_⟩
  simp only [stepped]
  rcases env.step action with ⟨_ | r, next⟩
  · rfl
  simp only
  rcases learnFrom train actor seen action r with ⟨_ | _, actor⟩ <;> rfl

theorem turn_rules (train : Bool) (seen : Observation α) (env : Environment α) (actor : σ) :
    (turn train seen env actor).2.1.rules = env.rules := by
  have kept (action : Quantity α) := Environment.step_rules env action
  rcases turn_cases train seen env actor with ⟨_, _, _, turned⟩ | ⟨action, _, _,
    ⟨_, _, taken, turned⟩ | ⟨_, _, taken, ⟨_, _, _, turned⟩ | ⟨_, _, turned⟩⟩⟩ <;> rw [turned]
  all_goals simpa only [taken] using kept action

theorem steps_withCalls (train : Bool) (fuel : Nat) (tally : Tally α) (seen : Observation α)
    (env : Environment α) (functional : env.rules.interpreter.Functional) (actor : σ)
    (calls : Nat) :
    ∃ count, steps train fuel tally seen (env.withCalls calls) actor =
      ((steps train fuel tally seen env actor).1,
        (steps train fuel tally seen env actor).2.1.withCalls count,
        (steps train fuel tally seen env actor).2.2) := by
  induction fuel generalizing tally seen env actor calls with
  | zero => exact ⟨calls, rfl⟩
  | succ fuel ih =>
    cases ended : env.done with
    | true =>
      refine ⟨calls, ?_⟩
      rw [steps_done _ _ _ _ _ _ ended]
      exact steps_done _ _ _ _ (env.withCalls calls) _ ended
    | false =>
      obtain ⟨count, turned⟩ := turn_withCalls functional train seen actor calls
      have rules := turn_rules train seen env actor
      rw [steps_succ _ _ _ _ _ _ ended,
        steps_succ _ _ _ _ _ _ (show (env.withCalls calls).done = false from ended), turned]
      generalize turn train seen env actor = turned at rules
      obtain ⟨_ | r, next, actor⟩ := turned
      · exact ⟨count, rfl⟩
      · exact ih _ _ _ ((congrArg (·.interpreter.Functional) rules).mpr functional) _ _

theorem steps_rules (train : Bool) (fuel : Nat) (tally : Tally α) (seen : Observation α)
    (env : Environment α) (actor : σ) :
    (steps train fuel tally seen env actor).2.1.rules = env.rules := by
  induction fuel generalizing tally seen env actor with
  | zero => rfl
  | succ fuel ih =>
    cases ended : env.done with
    | true => rw [steps_done _ _ _ _ _ _ ended]
    | false =>
      have rules := turn_rules train seen env actor
      rw [steps_succ _ _ _ _ _ _ ended]
      generalize turn train seen env actor = turned at rules
      obtain ⟨_ | r, next, actor⟩ := turned
      · exact rules
      · exact (ih _ _ _ _).trans rules

/-- The record of an episode, if its steps have ended well. -/
def recorded (episode : Nat) (outcome : Except Fault (Tally α) × Environment α × σ) :
    Except Fault (EpisodeRecord α) × Environment α × σ :=
  (outcome.1.map fun tally =>
    { episode
      totalReward := tally.totalReward
      success := tally.success
      steps := tally.steps
      reason := outcome.2.1.episode.reason
      program := outcome.2.1.program },
    outcome.2)

theorem run_eq (train : Bool) (episode : Nat) (env : Environment α) (actor : σ) :
    run train episode env actor =
      recorded episode (steps train env.restart.rules.settings.maxSteps .zero env.restart.observe
        env.restart (if train then Actor.startEpisode actor else actor)) := by
  simp only [run, Environment.reset]
  rcases steps train env.restart.rules.settings.maxSteps .zero env.restart.observe env.restart
    (if train then Actor.startEpisode actor else actor) with ⟨_ | tally, next, actor⟩ <;> rfl

theorem run_rules (train : Bool) (episode : Nat) (env : Environment α) (actor : σ) :
    (run train episode env actor).2.1.rules = env.rules := by
  rw [run_eq]
  exact steps_rules train _ _ _ env.restart _

theorem run_episode {train : Bool} {episode : Nat} {env : Environment α} {actor : σ}
    {record : EpisodeRecord α} (ran : (run train episode env actor).1 = .ok record) :
    record.episode = episode := by
  rw [run_eq] at ran
  generalize steps train env.restart.rules.settings.maxSteps .zero env.restart.observe
    env.restart (if train then Actor.startEpisode actor else actor) = outcome at ran
  obtain ⟨fault | tally, env, actor⟩ := outcome <;> cases ran
  rfl

/-- An episode is the same whatever came before it. -/
theorem run_ofRules (train : Bool) (episode : Nat) {env : Environment α}
    (functional : env.rules.interpreter.Functional) (actor : σ) :
    (run train episode env actor).1 = (run train episode (.ofRules env.rules) actor).1 ∧
      (run train episode env actor).2.2 = (run train episode (.ofRules env.rules) actor).2.2 := by
  obtain ⟨count, same⟩ := steps_withCalls train env.rules.settings.maxSteps .zero
    (Environment.ofRules env.rules).observe (.ofRules env.rules) functional
    (if train then Actor.startEpisode actor else actor) env.calls
  have fresh : env.restart = (Environment.ofRules env.rules).withCalls env.calls := rfl
  rw [run_eq, run_eq, fresh]
  have records := congrArg (fun outcome => (recorded episode outcome).1) same
  have actors := congrArg (fun outcome => (recorded episode outcome).2.2) same
  exact ⟨records, actors⟩

end

section
variable {train : Bool} {seen : Observation Float} {env next : Environment Float} {a b : Agent}
  {r : StepResult Float} {tally total : Tally Float} {fuel : Nat} {fault : Fault}

theorem learnFrom_ok {action : Quantity Float}
    (learnt : learnFrom train a seen action r = (.ok (), b)) : a.Counts (train && r.done) b := by
  cases train with
  | false =>
    cases learnt
    exact a.counts_refl
  | true =>
    rcases a.learn_cases seen.features action r.reward r.observation.features r.done with
      ⟨_, refused⟩ | ⟨learner, kept, settled, accepted⟩
    · cases refused.symm.trans learnt
    · cases accepted.symm.trans learnt
      exact a.withLearner_counts kept settled

theorem learnFrom_error {action : Quantity Float}
    (refused : learnFrom train a seen action r = (.error fault, b)) : b = a := by
  cases train with
  | false => cases refused
  | true =>
    rcases a.learn_cases seen.features action r.reward r.observation.features r.done with
      ⟨_, refused'⟩ | ⟨_, _, _, accepted⟩
    · cases refused'.symm.trans refused
      rfl
    · cases accepted.symm.trans refused

theorem act_counts {outcome : Except Fault (Quantity Float)}
    (acted : Actor.act a seen train = (outcome, b)) : a.Counts false b := by
  have source := a.act_source seen.features train
  rw [show a.act seen.features train = (outcome, b) from acted] at source
  replace source : b = { a with source := b.source } := source
  rw [source]
  exact ⟨⟨rfl, rfl⟩, rfl, rfl, rfl, nofun⟩

/-- A turn that succeeds is counted if, in training, it ends the episode. -/
theorem turn_ok (turned : turn train seen env a = (.ok r, next, b)) :
    env.Followed next r ∧ seen.features.length = a.spaces.features ∧
      a.Counts (train && r.done) b := by
  rcases turn_cases train seen env a with ⟨_, _, _, led⟩ | ⟨action, acted, chosen,
    ⟨_, _, taken, led⟩ | ⟨_, _, taken, ⟨_, _, _, led⟩ | ⟨_, learnt, led⟩⟩⟩ <;>
    cases led.symm.trans turned
  refine ⟨Environment.step_followed taken, ?_, (act_counts chosen).trans (learnFrom_ok learnt)⟩
  rcases a.act_cases seen.features train with ⟨fits, _⟩ | ⟨_, _, refused⟩
  · exact fits
  · cases refused.symm.trans chosen

theorem turn_error (turned : turn train seen env a = (.error fault, next, b)) :
    a.Counts false b := by
  rcases turn_cases train seen env a with ⟨_, _, chosen, led⟩ | ⟨action, acted, chosen,
    ⟨_, _, _, led⟩ | ⟨_, _, _, ⟨_, _, refused, led⟩ | ⟨_, _, led⟩⟩⟩ <;>
    cases led.symm.trans turned
  · exact act_counts chosen
  · exact act_counts chosen
  · cases learnFrom_error refused
    exact act_counts chosen

/-- An episode that is going on with fuel for the rest of its budget. -/
structure UnderWay (env : Environment Float) (fuel : Nat) : Prop where
  going : env.done = false
  below : env.episode.stepCount < env.rules.settings.maxSteps
  enough : env.rules.settings.maxSteps ≤ env.episode.stepCount + fuel

theorem UnderWay.followed (way : UnderWay env (fuel + 1)) (led : env.Followed next r) :
    (r.done = true ∧ next.done = true) ∨ (r.done = false ∧ UnderWay next fuel) := by
  have := way.enough
  cases ended : next.done with
  | true => exact .inl ⟨led.done.trans ended, rfl⟩
  | false =>
    refine .inr ⟨led.done.trans ended, ended, ?_, ?_⟩
    · rw [led.rules]
      refine Nat.lt_of_not_le fun spent => ?_
      rw [led.budget spent] at ended
      cases ended
    · rw [led.rules, led.stepCount]
      omega

/-- Whatever becomes of an episode, it is counted only in training, and only if it ends well. -/
theorem steps_counted (way : UnderWay env fuel) (train : Bool) (tally : Tally Float)
    (seen : Observation Float) (a : Agent) :
    match steps train fuel tally seen env a with
    | (.ok _, _, b) => a.Counts train b
    | (.error _, _, b) => a.Counts false b := by
  induction fuel generalizing tally seen env a with
  | zero => exact absurd way.enough (Nat.not_le.mpr way.below)
  | succ fuel ih =>
    rw [steps_succ _ _ _ _ _ _ way.going]
    rcases turned : turn train seen env a with ⟨_ | r, next, b⟩
    · exact turn_error turned
    obtain ⟨led, _, counted⟩ := turn_ok turned
    rcases way.followed led with ⟨done, ended⟩ | ⟨going, way⟩
    · simp only [steps_done _ _ _ _ _ _ ended]
      rwa [done, Bool.and_true] at counted
    · rw [going, Bool.and_false] at counted
      have led := ih way (tally.add r) r.observation b
      simp only
      generalize steps train fuel (tally.add r) r.observation next b = outcome at led
      obtain ⟨_ | _, _, c⟩ := outcome <;> exact counted.trans led

/-- An agent of another shape fails at its first action. -/
theorem steps_fits {seen : Observation Float} (way : UnderWay env fuel)
    (ended : steps train fuel tally seen env a = (.ok total, next, b)) :
    seen.features.length = a.spaces.features := by
  cases fuel with
  | zero => exact absurd way.enough (Nat.not_le.mpr way.below)
  | succ fuel =>
    rw [steps_succ _ _ _ _ _ _ way.going] at ended
    rcases turned : turn train seen env a with ⟨_ | r, next, b⟩
    · rw [turned] at ended
      cases ended
    · exact (turn_ok turned).2.1

/-- A learner acts greedily, steps and learns nothing: nothing can fail, and the agent stays. -/
theorem turn_greedy (total : env.rules.interpreter.NeverFaults) (learner : a.kind ≠ .random)
    (fits : seen.features.length = a.spaces.features) (going : env.done = false) :
    ∃ r next, turn false seen env a = (.ok r, next, a) := by
  have stays := a.act_greedy learner seen.features
  rcases a.act_cases seen.features false with ⟨_, acted⟩ | ⟨misfit, _⟩
  case inr => exact absurd fits misfit
  rw [acted] at stays
  obtain ⟨r, next, taken⟩ := Environment.step_total total going (a.choose seen.features false).1
  refine ⟨r, next, ?_⟩
  have chosen : Actor.act a seen false = (.ok (a.choose seen.features false).1, a) :=
    acted.trans (congrArg (_, ·) stays)
  rw [turn, chosen]
  simp only [taken, learnFrom]
  rfl

theorem steps_greedy (way : UnderWay env fuel) (tally : Tally Float)
    (seen : Observation Float) (total : env.rules.interpreter.NeverFaults)
    (learner : a.kind ≠ .random) (fits : a.spaces.features = env.rules.shape.featureCount)
    (sees : seen.features.length = env.rules.shape.featureCount) :
    ∃ sum next, steps false fuel tally seen env a = (.ok sum, next, a) := by
  induction fuel generalizing tally seen env with
  | zero => exact absurd way.enough (Nat.not_le.mpr way.below)
  | succ fuel ih =>
    obtain ⟨r, next, turned⟩ := turn_greedy total learner (sees.trans fits.symm) way.going
    obtain ⟨led, _⟩ := turn_ok turned
    rw [steps_succ _ _ _ _ _ _ way.going, turned]
    rcases way.followed led with ⟨_, ended⟩ | ⟨_, way⟩
    · exact ⟨_, next, steps_done _ _ _ _ _ _ ended⟩
    · refine ih way _ _ (led.rules ▸ total) (led.rules ▸ fits) ?_
      rw [led.observation]
      exact Observation.length_encode ..

end

/-! Episodes from their beginning. -/

section
variable {train : Bool} {episode : Nat} {env next : Environment Float} {a b : Agent}
  {record : EpisodeRecord Float} {fault : Fault}

theorem underWay_restart (budget : 0 < env.rules.settings.maxSteps) :
    UnderWay env.restart env.restart.rules.settings.maxSteps where
  going := rfl
  below := budget
  enough := Nat.le_add_left ..

theorem startEpisode_counts (train : Bool) (a : Agent) :
    a.Counts false (if train then Actor.startEpisode a else a) := by
  cases train with
  | false => exact a.counts_refl
  | true => exact a.startEpisode_counts

/-- An episode is counted as its steps are, after what training does at its beginning. -/
theorem run_counts (budget : 0 < env.rules.settings.maxSteps) (train : Bool) (episode : Nat)
    (a : Agent) :
    match run train episode env a with
    | (.ok _, _, b) => a.Counts train b
    | (.error _, _, b) => a.Counts false b := by
  have started := startEpisode_counts train a
  have led := steps_counted (underWay_restart budget) train .zero env.restart.observe
    (if train then Actor.startEpisode a else a)
  rw [run_eq]
  generalize steps train env.restart.rules.settings.maxSteps .zero env.restart.observe
    env.restart (if train then Actor.startEpisode a else a) = outcome at led
  obtain ⟨_ | _, _, b⟩ := outcome <;> exact started.trans led

theorem run_ok (budget : 0 < env.rules.settings.maxSteps)
    (ran : run train episode env a = (.ok record, next, b)) :
    record.episode = episode ∧ a.Counts train b := by
  have counted := run_counts budget train episode a
  rw [ran] at counted
  exact ⟨run_episode (congrArg Prod.fst ran), counted⟩

theorem run_error (budget : 0 < env.rules.settings.maxSteps)
    (ran : run train episode env a = (.error fault, next, b)) : a.Counts false b := by
  have counted := run_counts budget train episode a
  rwa [ran] at counted

/-- However an episode ends, the agent is of the same kind and for the same spaces. -/
theorem run_alike (budget : 0 < env.rules.settings.maxSteps) (train : Bool) (episode : Nat)
    (a : Agent) : a.Alike (run train episode env a).2.2 := by
  rcases ran : run train episode env a with ⟨fault | record, next, b⟩
  · exact (run_error budget ran).alike
  · exact (run_ok budget ran).2.alike

/-- An episode that ends well shows that the agent's features are those of the environment. -/
theorem run_fits (budget : 0 < env.rules.settings.maxSteps)
    (ran : run train episode env a = (.ok record, next, b)) :
    a.spaces.features = env.rules.shape.featureCount := by
  rw [run_eq] at ran
  rcases outcome : steps train env.restart.rules.settings.maxSteps .zero env.restart.observe
    env.restart (if train then Actor.startEpisode a else a) with ⟨_ | tally, next, c⟩ <;>
    rw [outcome] at ran <;> cases ran
  have fits := steps_fits (underWay_restart budget) outcome
  rw [(startEpisode_counts train a).alike.1] at fits
  exact fits.symm.trans (Observation.length_encode ..)

/-- A learner's greedy episode cannot fail and leaves the agent as it is. -/
theorem run_greedy (budget : 0 < env.rules.settings.maxSteps)
    (total : env.rules.interpreter.NeverFaults) (learner : a.kind ≠ .random)
    (fits : a.spaces.features = env.rules.shape.featureCount) (episode : Nat) :
    ∃ record next, run false episode env a = (.ok record, next, a) := by
  obtain ⟨sum, next, led⟩ := steps_greedy (underWay_restart budget) .zero env.restart.observe
    (a := a) total learner fits (Observation.length_encode ..)
  rw [run_eq]
  exact ⟨_, next, congrArg (recorded episode) led⟩

end

/-- Episodes one after the other, numbered from a first number on. -/
def episodes {σ α : Type} [Scalar α] [Actor σ α] (train : Bool) : (first count : Nat) →
    Environment α → σ → Except Fault (List (EpisodeRecord α)) × Environment α × σ
  | _, 0, env, actor => (.ok [], env, actor)
  | first, count + 1, env, actor =>
    match run train first env actor with
    | (.error e, env, actor) => (.error e, env, actor)
    | (.ok r, env, actor) =>
      match episodes train (first + 1) count env actor with
      | (.error e, env, actor) => (.error e, env, actor)
      | (.ok rs, env, actor) => (.ok (r :: rs), env, actor)

end Rollout

namespace Scene

theorem run_runEpisode (train : Bool) (episode : Nat) (s : Scene) :
    (runEpisode train episode).run s =
      ((Rollout.run train episode s.env s.agent).1,
        { s with
          env := (Rollout.run train episode s.env s.agent).2.1
          agent := (Rollout.run train episode s.env s.agent).2.2 }) := rfl

theorem run_runEpisodes (train : Bool) (first count : Nat) (s : Scene) :
    (runEpisodes train first count).run s =
      ((Rollout.episodes train first count s.env s.agent).1,
        { s with
          env := (Rollout.episodes train first count s.env s.agent).2.1
          agent := (Rollout.episodes train first count s.env s.agent).2.2 }) := by
  induction count generalizing first s with
  | zero => rfl
  | succ count ih =>
    simp only [runEpisodes, Op.run_bind, run_runEpisode, Rollout.episodes]
    rcases Rollout.run train first s.env s.agent with ⟨fault | record, env, agent⟩
    · rfl
    · simp only [ih]
      rcases Rollout.episodes train (first + 1) count env agent with ⟨fault | records, env, agent⟩ <;>
        rfl

theorem run_logIf (verbose : Bool) (text : String) (s : Scene) :
    ∃ console, (logIf verbose text).run s = (.ok (), { s with console }) := by
  cases verbose with
  | true => exact ⟨_, rfl⟩
  | false => exact ⟨s.console, rfl⟩

/-- An evaluation is its greedy episodes and their figures. -/
theorem run_evaluate {count : Quantity Float} {n : Nat} (counted : count.index? = some n)
    {env next : Environment Float} {a after : Agent} {records : List (EpisodeRecord Float)}
    (ran : Rollout.episodes false 1 n env a = (.ok records, next, after)) (verbose : Bool)
    (console : List Entry) :
    ∃ written, (evaluate verbose count).run ⟨env, a, console⟩ =
      (.ok (Metrics.compute records Metrics.sampleLimit), ⟨next, after, written⟩) := by
  have greedy : (greedyEpisodes count).run ⟨env, a, console⟩ =
      (.ok records, ⟨next, after, console⟩) := by
    have given : requireCount "nEpisodes" count = .ok n := by rw [requireCount, counted]
    rw [greedyEpisodes, given]
    refine (run_runEpisodes false 1 n ⟨env, a, console⟩).trans ?_
    rw [ran]
  obtain ⟨first, logged⟩ := run_logIf verbose
    s!"[Evaluator] {after.kind.name} on {next.rules.task.key}" ⟨next, after, console⟩
  obtain ⟨second, reported⟩ := run_logIf verbose
    (Metrics.compute records Metrics.sampleLimit).text ⟨next, after, first⟩
  refine ⟨second, ?_⟩
  rw [evaluate, Op.run_bind, greedy]
  refine (Op.run_bind _ _ (⟨next, after, console⟩ : Scene)).trans ?_
  refine (Op.run_bind _ _ (⟨next, after, console⟩ : Scene)).trans ?_
  rw [logged]
  refine (Op.run_bind _ _ (⟨next, after, first⟩ : Scene)).trans ?_
  rw [reported]
  rfl

/-! Evaluations in two scenes. -/

section
variable {R : Scene → Scene → Prop}

theorem respects_runEpisodes {train : Bool}
    (episode : ∀ n, Op.Respects R (runEpisode train n)) (first count : Nat) :
    Op.Respects R (runEpisodes train first count) := by
  induction count generalizing first with
  | zero => exact Op.respects_pure _
  | succ count ih =>
    refine (episode first).bind fun r => ?_
    exact (ih (first + 1)).bind fun rs => Op.respects_pure _

/-- Evaluations go alike where episodes do, in scenes that a report cannot tell apart. -/
theorem respects_evaluate (episode : ∀ n, Op.Respects R (runEpisode false n))
    (write : ∀ text, Op.Respects R (log text))
    (named : ∀ s t, R s t →
      s.agent.kind = t.agent.kind ∧ s.env.rules.task = t.env.rules.task)
    (verbose : Bool) (count : Quantity Float) : Op.Respects R (evaluate verbose count) := by
  have logged (text : String) : Op.Respects R (logIf verbose text) :=
    (write text).ite (Op.respects_pure ())
  have episodes : Op.Respects R (greedyEpisodes count) :=
    (Op.respects_ofExcept _).bind fun n => respects_runEpisodes episode 1 n
  refine episodes.bind fun records => Op.respects_get (fun s t related => ?_) fun s => ?_
  · rw [(named s t related).1, (named s t related).2]
  · exact (logged _).bind fun _ => (logged _).bind fun _ => Op.respects_pure _

end

end Scene

end ProgramGym
