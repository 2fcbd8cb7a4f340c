import ProgramGym.Proofs.Agent.Choosing
import ProgramGym.Proofs.Environment.Runs
import ProgramGym.Proofs.Rollout

/-! An environment and an agent that was made for its spaces, closed into a loop. Main statement:
whatever the agent has been through, weights that have become infinite or no numbers included, an
episode with an interpreter that never faults ends within its budget, and no step of it is an
invalid action. -/
namespace ProgramGym

namespace Environment
variable {env next : Environment Float} {action : Quantity Float} {r : StepResult Float}

/-- No action of the episode was invalid. -/
structure Valid (env : Environment Float) : Prop where
  named : ∀ t ∈ env.transitions, t.info.token.isSome = true ∧ t.info.reason ≠ some .invalidAction
  reason : env.episode.reason ≠ some .invalidAction

theorem valid_restart (env : Environment Float) : env.restart.Valid where
  named := by simp [restart]
  reason := by simp [restart, Episode.start]

theorem reason_ne_invalid (rules : Rules Float) (matched isStop : Bool) (stepCount : Nat) :
    rules.reason matched isStop false stepCount ≠ some .invalidAction := by
  rw [Rules.reason, Bool.false_and, if_neg Bool.false_ne_true]
  intro invalid
  split_ifs at invalid
  all_goals cases invalid

/-- An action below the number of tokens names one. -/
theorem tokenOf_isSome {rules : Rules Float} {i : Nat}
    (valid : action.indexBelow? rules.vocabulary.length = some i) :
    (rules.tokenOf? action).isSome = true := by
  unfold Quantity.indexBelow? at valid
  cases index : action.index? with
  | none =>
    rw [index] at valid
    cases valid
  | some k =>
    rw [index] at valid
    dsimp only at valid
    split at valid
    · next below => simp [Rules.tokenOf?, index, below]
    · cases valid

/-- A step that succeeds keeps an environment consistent, and valid if its action is. -/
theorem step_kept (consistent : env.Consistent) (valid : env.Valid)
    (named : (env.rules.tokenOf? action).isSome = true) (taken : env.step action = (.ok r, next)) :
    next.Consistent ∧ next.Valid := by
  obtain ⟨going, outcome, calls, _, rfl, rfl⟩ := step_eq_ok taken
  have reason : (env.conclusion action outcome calls).2.episode.reason ≠ some .invalidAction := by
    rw [conclusion_reason, Option.isNone_eq_false_iff.mpr named]
    exact reason_ne_invalid env.rules _ _ _
  refine ⟨consistent_conclusion consistent going action outcome calls, ⟨?_, reason⟩⟩
  intro t recorded
  obtain ⟨last, info, transitions⟩ : ∃ t : Transition Float,
      t.info = (env.conclusion action outcome calls).1.info ∧
        (env.conclusion action outcome calls).2.transitions = env.transitions ++ [t] :=
    ⟨_, rfl, rfl⟩
  rw [transitions] at recorded
  rcases List.mem_append.mp recorded with earlier | latest
  · exact valid.named t earlier
  · rw [List.mem_singleton.mp latest, info, conclusion_info]
    exact ⟨named, reason⟩

end Environment

namespace Rollout
variable {train : Bool} {env next : Environment Float} {a b : Agent} {fuel : Nat}

/-- An episode in which nothing has gone wrong, and an agent that can go on with it. -/
structure Fair (env : Environment Float) (a : Agent) : Prop where
  total : env.rules.interpreter.NeverFaults
  small : env.rules.spaces.actions ≤ Quantity.exactBound
  able : a.Able env.rules.spaces
  consistent : env.Consistent
  valid : env.Valid

theorem learn_able {spaces : Spaces} (able : a.Able spaces) {seen follows : Observation Float}
    (fits : seen.features.length = spaces.features) {action : Quantity Float} {i : Nat}
    (valid : action.indexBelow? spaces.actions = some i)
    (next : follows.features.length = spaces.features) (reward : Float) (done : Bool) :
    ∃ b, Actor.learn a seen action reward follows done = (.ok (), b) ∧ b.Able spaces := by
  have performed := Agent.able_perform able
    (.learn seen.features action reward follows.features done)
  obtain ⟨rfl, shaped, unit⟩ := able
  refine ⟨_, Prod.ext ?_ rfl, performed⟩
  have admitted : ∃ i, a.admits seen.features action follows.features done = .ok i := by
    have acts : a.requireAction action = .ok i := by rw [Agent.requireAction, valid]
    have sees : a.requireFeatures seen.features = .ok () := by simp [Agent.requireFeatures, fits]
    have next : a.requireFeatures follows.features = .ok () := by
      simp [Agent.requireFeatures, next]
    unfold Agent.admits
    cases a.learner with
    | random => exact ⟨0, rfl⟩
    | qlearning q => cases done <;> exact ⟨i, by rw [acts, sees]; simp [next]; rfl⟩
    | policyGradient p => exact ⟨i, by rw [acts, sees]; rfl⟩
  obtain ⟨i, admitted⟩ := admitted
  change (a.learn seen.features action reward follows.features done).1 = .ok ()
  rw [Agent.learn, admitted]

theorem learnFrom_able {spaces : Spaces} (able : a.Able spaces) {seen : Observation Float}
    (fits : seen.features.length = spaces.features) {action : Quantity Float} {i : Nat}
    (valid : action.indexBelow? spaces.actions = some i) {r : StepResult Float}
    (follows : r.observation.features.length = spaces.features) (train : Bool) :
    ∃ b, learnFrom train a seen action r = (.ok (), b) ∧ b.Able spaces := by
  cases train with
  | false => exact ⟨a, rfl, able⟩
  | true => exact learn_able able fits valid follows r.reward r.done

/-- No turn fails. -/
theorem turn_fair (fair : Fair env a) (going : env.done = false) (train : Bool) :
    ∃ r next b, turn train env.observe env a = (.ok r, next, b) ∧ env.Followed next r ∧
      Fair next b := by
  obtain ⟨total, small, able, consistent, valid⟩ := fair
  have sees (env : Environment Float) : env.observe.features.length = env.rules.spaces.features :=
    Observation.length_encode ..
  obtain ⟨action, i, acted, index⟩ := Agent.act_valid able small (sees env) train
  have able := Agent.able_perform able (.act env.observe.features train)
  obtain ⟨r, next, taken⟩ := Environment.step_total total going action
  have led := Environment.step_followed taken
  have kept := Environment.step_kept consistent valid (Environment.tokenOf_isSome index) taken
  have follows : r.observation.features.length = env.rules.spaces.features := by
    rw [led.observation, sees, led.rules]
  obtain ⟨b, learnt, able⟩ := learnFrom_able able (sees env) index follows train
  refine ⟨r, next, b, ?_, led, ?_⟩
  · have chosen : Actor.act a env.observe train =
        (.ok action, (a.perform (.act env.observe.features train)).2) := acted
    rw [turn, chosen]
    simp only [taken, learnt]
  · rw [← led.rules] at total small able
    exact ⟨total, small, able, kept.1, kept.2⟩

/-- No step fails, and they are as many as are counted. -/
theorem steps_fair (way : UnderWay env fuel) (fair : Fair env a) (train : Bool)
    (tally : Tally Float) (counted : tally.steps = env.episode.stepCount) :
    ∃ sum next b, steps train fuel tally env.observe env a = (.ok sum, next, b) ∧ Fair next b ∧
      next.rules = env.rules ∧ next.done = true ∧ sum.steps = next.episode.stepCount ∧
      env.episode.stepCount < next.episode.stepCount := by
  induction fuel generalizing tally env a with
  | zero => exact absurd way.enough (Nat.not_le.mpr way.below)
  | succ fuel ih =>
    obtain ⟨r, next, b, turned, led, fair⟩ := turn_fair fair way.going train
    have counted : (tally.add r).steps = next.episode.stepCount := by
      rw [led.stepCount, ← counted]
      rfl
    rw [steps_succ _ _ _ _ _ _ way.going, turned]
    rcases way.followed led with ⟨_, ended⟩ | ⟨_, way⟩
    · exact ⟨_, next, b, steps_done _ _ _ _ _ _ ended, fair, led.rules, ended, counted,
        led.stepCount ▸ Nat.lt_succ_self _⟩
    · obtain ⟨sum, last, c, ran, fair, rules, ended, total, more⟩ := ih way fair _ counted
      refine ⟨sum, last, c, ?_, fair, rules.trans led.rules, ended, total, ?_⟩
      · simp only [led.observation]
        exact ran
      · have := led.stepCount
        omega

/-- An episode of an agent that can always choose ends well, within its budget and without an
invalid action, and leaves such an agent. -/
theorem run_able (budget : 0 < env.rules.settings.maxSteps)
    (total : env.rules.interpreter.NeverFaults)
    (small : env.rules.spaces.actions ≤ Quantity.exactBound) (able : a.Able env.rules.spaces)
    (train : Bool) (episode : Nat) :
    ∃ record next b, run train episode env a = (.ok record, next, b) ∧ Fair next b ∧
      next.rules = env.rules ∧ next.done = true ∧ 1 ≤ record.steps ∧
      record.steps = next.episode.stepCount ∧ record.reason = next.episode.reason := by
  have started : (if train then Actor.startEpisode a else a).Able env.rules.spaces := by
    cases train with
    | true => exact Agent.able_perform able .startEpisode
    | false => exact able
  have fair : Fair env.restart (if train then Actor.startEpisode a else a) :=
    { total, small
      able := started
      consistent := Environment.consistent_restart env budget
      valid := Environment.valid_restart env }
  obtain ⟨sum, next, b, ran, fair, rules, ended, counted, more⟩ :=
    steps_fair (underWay_restart budget) fair train .zero rfl
  refine ⟨_, next, b, by rw [run_eq, ran]; rfl, fair, rules, ended, ?_, counted, rfl⟩
  exact (Nat.one_le_of_lt more).trans_eq counted.symm

/-- Such an episode has the number that it was given, and in training the agent has counted it. -/
theorem run_counted (budget : 0 < env.rules.settings.maxSteps)
    (total : env.rules.interpreter.NeverFaults)
    (small : env.rules.spaces.actions ≤ Quantity.exactBound) (able : a.Able env.rules.spaces)
    (train : Bool) (episode : Nat) :
    ∃ record next b, run train episode env a = (.ok record, next, b) ∧ next.rules = env.rules ∧
      b.Able env.rules.spaces ∧ record.episode = episode ∧ a.Counts train b := by
  obtain ⟨record, next, b, ran, fair, rules, _⟩ := run_able budget total small able train episode
  obtain ⟨numbered, counts⟩ := run_ok budget ran
  exact ⟨record, next, b, ran, rules, rules ▸ fair.able, numbered, counts⟩

end Rollout
end ProgramGym
