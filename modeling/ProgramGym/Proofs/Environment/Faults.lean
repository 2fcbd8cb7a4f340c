import ProgramGym.Proofs.Environment.Runs

/-! What a fault of the interpreter leaves behind. The step stays spent and its token emitted, but
no transition is recorded and the episode goes on, so the steps of an episode are its transitions
and its faults together. Main statement: an error leaves an environment as it was only when the
episode was over, and transitions and steps agree only while nothing has faulted. -/
namespace ProgramGym.Environment
variable {α : Type} [Scalar α] {env : Environment α}

/-- Whether the interpreter faults in a step. -/
def faultsOn (env : Environment α) (action : Quantity α) : Bool :=
  !env.done && !(env.step action).1.isOk

/-- The faults since the last reset once commands are done, `before` of them earlier. -/
def faultsAfter (env : Environment α) (before : Nat) : List (Command α) → Nat
  | [] => before
  | .reset :: commands => (env.apply .reset).faultsAfter 0 commands
  | .step action :: commands =>
    (env.apply (.step action)).faultsAfter (before + (env.faultsOn action).toNat) commands

/-- A step that faults, in full: it is counted and its token emitted, and nothing else is. -/
theorem step_fault {action : Quantity α} {fault : Fault} {next : Environment α}
    (going : env.done = false) (faulted : env.step action = (.error fault, next)) :
    ∃ token, env.rules.tokenOf? action = some token ∧
      next = { env with
        calls := env.calls + 1
        episode := { env.episode with
          stepCount := env.episode.stepCount + 1
          tokens := env.episode.tokens ++ [token]
          actions := env.episode.actions ++ [action] } } := by
  rcases step_cases env action with ⟨ended, _⟩ | ⟨_, _, calls, judged, taken⟩ | ⟨_, _, _, _, taken⟩
  · cases going.symm.trans ended
  · obtain ⟨valid, rfl, _⟩ := judge_error judged
    obtain ⟨token, named⟩ := Option.isSome_iff_exists.mp valid
    refine ⟨token, named, ?_⟩
    cases taken.symm.trans faulted
    simp [spend, named]
  · cases taken.symm.trans faulted

/-- The steps of an episode by how they went. -/
structure Accounted (env : Environment α) (faults : Nat) : Prop where
  spent : env.transitions.length + faults = env.episode.stepCount
  recorded_le : env.transitions.length ≤ env.rules.settings.maxSteps
  recorded_lt : env.done = false → env.transitions.length < env.rules.settings.maxSteps

theorem accounted_restart (env : Environment α) (budget : 0 < env.rules.settings.maxSteps) :
    env.restart.Accounted 0 :=
  ⟨rfl, Nat.zero_le _, fun _ => budget⟩

theorem accounted_conclusion {faults : Nat} (accounted : env.Accounted faults)
    (going : env.done = false) (action : Quantity α) (outcome : Outcome α) (calls : Nat) :
    (env.conclusion action outcome calls).2.Accounted faults := by
  obtain ⟨t, _, _, _, transitions⟩ := conclusion_transitions env action outcome calls
  have spent := accounted.spent
  have recorded := accounted.recorded_lt going
  have length := congrArg List.length transitions
  rw [List.length_append, List.length_singleton] at length
  refine ⟨by rw [conclusion_stepCount]; omega, by rw [conclusion_rules]; omega,
    fun stillGoing => ?_⟩
  -- A step that is recorded at the end of the budget is the last one.
  rw [conclusion_rules, length]
  by_contra full
  have spent : env.rules.settings.maxSteps ≤ env.episode.stepCount + 1 := by omega
  have ended := env.rules.reason_of_budget outcome.matched (env.rules.isStop action)
    (env.rules.tokenOf? action).isNone spent
  rw [← conclusion_reason env action outcome calls] at ended
  cases stillGoing.symm.trans ended

theorem accounted_step {faults : Nat} (accounted : env.Accounted faults) (action : Quantity α) :
    (env.step action).2.Accounted (faults + (env.faultsOn action).toNat) := by
  rcases step_cases env action with ⟨ended, taken⟩ | ⟨going, fault, calls, _, taken⟩ |
    ⟨going, outcome, calls, _, taken⟩
  · simpa [faultsOn, ended, taken] using accounted
  · have faulted : env.faultsOn action = true := by
      simp [faultsOn, going, taken, Except.isOk, Except.toBool]
    rw [faulted, taken]
    refine ⟨?_, accounted.recorded_le, accounted.recorded_lt⟩
    exact congrArg (· + 1) accounted.spent
  · have concluded : env.faultsOn action = false := by
      simp [faultsOn, taken, Except.isOk, Except.toBool]
    rw [concluded, taken]
    exact accounted_conclusion accounted going action outcome calls

theorem accounted_after {faults : Nat} (budget : 0 < env.rules.settings.maxSteps)
    (start : env.Accounted faults) (commands : List (Command α)) :
    (env.after commands).Accounted (env.faultsAfter faults commands) := by
  induction commands generalizing env faults with
  | nil => exact start
  | cons command commands ih =>
    have rules := apply_rules env command
    cases command with
    | reset => exact ih (rules ▸ budget) (accounted_restart env budget)
    | step action => exact ih (rules ▸ budget) (accounted_step start action)

/-- Whatever the interpreter does. A step that answers with an error leaves the episode as it was
exactly when that was over already; after a fault the step is spent and its token emitted. The
transitions of an episode and its faults add up to its steps, and the transitions alone stay
within the budget: they are as many as the steps exactly while nothing has faulted. -/
theorem run_accounted {task : Task} {vocabulary : Vocabulary} {interpreter : Interpreter Float}
    {reward : Reward Float} {request : SettingsRequest} {env : Environment Float}
    (created : create task vocabulary interpreter reward request = .ok env)
    (commands : List (Command Float)) :
    let now := env.after commands
    let faults := env.faultsAfter 0 commands
    (∀ action fault next, now.step action = (.error fault, next) →
      (next.episode = now.episode ↔ now.done = true) ∧ (now.done = true → next = now) ∧
      (now.done = false → ∃ token, env.rules.tokenOf? action = some token ∧
        next = { now with
          calls := now.calls + 1
          episode := { now.episode with
            stepCount := now.episode.stepCount + 1
            tokens := now.episode.tokens ++ [token]
            actions := now.episode.actions ++ [action] } })) ∧
    now.trajectory.transitions.length + faults = now.episode.stepCount ∧
    now.trajectory.transitions.length ≤ env.rules.settings.maxSteps ∧
    (now.trajectory.transitions.length = now.episode.stepCount ↔ faults = 0) ∧
    (faults = 0 → now.episode.stepCount ≤ env.rules.settings.maxSteps) := by
  obtain ⟨settings, resolved, rfl⟩ := create_eq_ok created
  have budget := Settings.maxSteps_pos resolved
  have start : (ofRules ⟨settings, task, vocabulary, interpreter, reward⟩).Accounted 0 :=
    accounted_restart (ofRules _) budget
  intro now faults
  have accounted : now.Accounted faults := accounted_after budget start commands
  have rules : now.rules = ⟨settings, task, vocabulary, interpreter, reward⟩ :=
    after_rules _ commands
  have spent := accounted.spent
  have recorded := accounted.recorded_le
  rw [rules] at recorded
  refine ⟨?_, spent, recorded, ?_, ?_⟩
  · intro action fault next failed
    cases ended : now.done with
    | true =>
      cases (step_done ended).symm.trans failed
      exact ⟨⟨fun _ => rfl, fun _ => rfl⟩, fun _ => rfl, nofun⟩
    | false =>
      obtain ⟨token, named, same⟩ := step_fault ended failed
      refine ⟨⟨fun unchanged => ?_, nofun⟩, nofun, fun _ => ⟨token, rules ▸ named, same⟩⟩
      have counted := congrArg Episode.stepCount unchanged
      rw [same] at counted
      exact absurd counted (Nat.succ_ne_self _)
  · change now.transitions.length = _ ↔ _
    omega
  · intro none
    change now.transitions.length ≤ settings.maxSteps at recorded
    change _ ≤ settings.maxSteps
    omega

/-- An echo that fails in its first two calls. -/
def crashing : Interpreter Float :=
  (Interpreter.ofFunction "echo" Interpreter.runEcho).failingAt [1, 2] "crash"

/-- The second call of the crashing echo: what it leaves behind, and how the steps add up. -/
theorem run_accounted_sample :
    ∃ env, sample 1 crashing = .ok env ∧ env.faultsAfter 0 [.step (.count 0)] = 1 ∧
      (∃ fault next, (env.after [.step (.count 0)]).step (.count 1) = (.error fault, next) ∧
        next.episode ≠ (env.after [.step (.count 0)]).episode) ∧
      (env.after [.step (.count 0)]).trajectory.transitions.length + 1 =
        (env.after [.step (.count 0)]).episode.stepCount := by
  refine ⟨_, rfl, by decide +kernel, ⟨_, _, rfl, fun unchanged => ?_⟩, ?_⟩
  · have kept := (run_accounted (rfl : sample 1 crashing = .ok _) [.step (.count 0)]).1
      (.count 1) _ _ rfl
    cases kept.1.mp unchanged
  · exact (run_accounted (rfl : sample 1 crashing = .ok _) [.step (.count 0)]).2.1

/-- Faults change the episode, and let it go on past its budget with nothing recorded. -/
theorem faults_pass_budget :
    ∃ env, sample 1 crashing = .ok env ∧ env.rules.settings.maxSteps = 1 ∧
      env.episode.stepCount = 0 ∧
      (∃ fault next, env.step (.count 0) = (.error fault, next) ∧ next.episode.stepCount = 1) ∧
      (env.after [.step (.count 0), .step (.count 0)]).episode.stepCount = 2 ∧
      (env.after [.step (.count 0), .step (.count 0)]).trajectory.transitions.length = 0 :=
  ⟨_, rfl, rfl, rfl, ⟨_, _, rfl, by decide +kernel⟩, by decide +kernel, by decide +kernel⟩

end ProgramGym.Environment
