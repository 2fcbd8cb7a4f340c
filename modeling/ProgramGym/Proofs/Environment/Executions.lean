import ProgramGym.Proofs.Environment.Observations
import ProgramGym.Proofs.Environment.Policies
import ProgramGym.Proofs.Interpreter

/-! When programs are run, along all runs of an environment. A step asks the interpreter at most one
thing, which is the program that the step leads to; what it asks is seen by changing the interpreter
everywhere else. Main statement: with the eager policy every valid step to a program that is not
blank runs it; with the deferred one only the end token and the last step of the budget do, so that
no episode runs a program twice. -/
namespace ProgramGym.Environment
variable {α : Type} [Scalar α] {env : Environment α} {action : Quantity α}

/-- The same environment with an interpreter that runs programs in another way. -/
def withRun (env : Environment α) (run : Nat → Text → Except Fault Verdict) : Environment α :=
  { env with rules := { env.rules with interpreter := { env.rules.interpreter with run } } }

/-- Whether a step runs the program that it leads to. -/
def executes (env : Environment α) (action : Quantity α) : Bool :=
  (env.rules.tokenOf? action).isSome &&
    env.rules.runs (env.spend action).program (env.rules.isStop action) (env.episode.stepCount + 1)

/-- What a step complains about that runs no program. -/
def complaint (env : Environment α) (action : Quantity α) : Option (Complaint α) :=
  if (env.rules.tokenOf? action).isSome then none
  else some (.invalidAction action env.rules.vocabulary.length)

/-- A step runs its program once or not at all. -/
theorem judge_cases (env : Environment α) (action : Quantity α) :
    (env.executes action = false ∧
      env.judge action = (.ok (.skipped (env.complaint action)), env.calls)) ∨
    (env.executes action = true ∧
      env.judge action = ((env.rules.interpreter.run (env.calls + 1) (env.spend action).program).map
        (.ofVerdict env.rules.interpreter.similarity env.rules.task.expectedOutput),
          env.calls + 1)) := by
  unfold executes judge complaint
  cases (env.rules.tokenOf? action).isSome with
  | false => exact .inl ⟨rfl, rfl⟩
  | true =>
    rw [Bool.true_and, if_pos rfl]
    rcases run_cases (env.spend action) (env.rules.isStop action) with
      ⟨idle, ran⟩ | ⟨runs, ⟨_, answered, ran⟩ | ⟨_, answered, ran⟩⟩ <;> rw [ran]
    · exact .inl ⟨idle, rfl⟩
    · refine .inr ⟨runs, ?_⟩
      change env.rules.interpreter.run (env.calls + 1) _ = _ at answered
      rw [answered]
      rfl
    · refine .inr ⟨runs, ?_⟩
      change env.rules.interpreter.run (env.calls + 1) _ = _ at answered
      rw [answered]
      rfl

/-- A step that is concluded tells whether it ran a program, and what came of it. -/
theorem judge_attempted {outcome : Outcome α} {calls : Nat}
    (judged : env.judge action = (.ok outcome, calls)) :
    outcome.attempted = env.executes action ∧ calls = env.calls + (env.executes action).toNat ∧
    (env.executes action = false → outcome = .skipped (env.complaint action)) ∧
    (env.executes action = true → ∃ verdict,
      env.rules.interpreter.run calls (env.spend action).program = .ok verdict ∧ outcome =
        .ofVerdict env.rules.interpreter.similarity env.rules.task.expectedOutput verdict) := by
  rcases judge_cases env action with ⟨idle, its⟩ | ⟨runs, its⟩ <;>
    rw [its, Prod.mk.injEq] at judged
  · obtain ⟨same, rfl⟩ := judged
    cases same
    refine ⟨idle.symm, by rw [idle]; rfl, fun _ => rfl, fun runs => ?_⟩
    cases idle.symm.trans runs
  · obtain ⟨answered, rfl⟩ := judged
    obtain ⟨verdict, ran, rfl⟩ := map_eq_ok.mp answered
    refine ⟨runs.symm, by rw [runs]; rfl, fun idle => ?_, fun _ => ⟨verdict, ran, rfl⟩⟩
    cases idle.symm.trans runs

/-- A step does not depend on what the interpreter would do in any other call. -/
theorem step_withRun {run : Nat → Text → Except Fault Verdict}
    (agrees : env.executes action = true → run (env.calls + 1) (env.spend action).program =
      env.rules.interpreter.run (env.calls + 1) (env.spend action).program) :
    (env.withRun run).step action =
      ((env.step action).1, (env.step action).2.withRun run) := by
  have judged : (env.withRun run).judge action = env.judge action := by
    rcases judge_cases env action with ⟨idle, its⟩ | ⟨runs, its⟩ <;>
      rcases judge_cases (env.withRun run) action with ⟨idle', its'⟩ | ⟨runs', its'⟩
    · rw [its, its']
      rfl
    · cases idle.symm.trans runs'
    · cases idle'.symm.trans runs
    · rw [its, its', ← agrees runs]
      rfl
  rcases step_cases env action with ⟨ended, taken⟩ | ⟨going, _, _, faulted, taken⟩ |
    ⟨going, _, _, concluded, taken⟩ <;> rw [taken]
  · exact step_done (show (env.withRun run).done = true from ended)
  · exact step_faulted (show (env.withRun run).done = false from going) (judged.trans faulted)
  · exact step_concluded (show (env.withRun run).done = false from going) (judged.trans concluded)

theorem executes_iff (action : Quantity α) : env.executes action = true ↔
    env.rules.Valid action ∧ (env.spend action).program.trim.isEmpty = false ∧
      (env.rules.settings.executionPolicy = .everyStep ∨
        env.rules.tokenOf? action = env.rules.settings.endToken ∨
        env.rules.settings.maxSteps ≤ env.episode.stepCount + 1) := by
  rw [valid_iff, ← Option.isSome_iff_exists, executes, Rules.runs]
  cases named : env.rules.tokenOf? action <;>
    simp [Rules.isStop, named, or_assoc]

/-- Where running is put off, a step that runs its program is the last one. -/
theorem conclusion_done_of_executes (defers : env.rules.settings.executionPolicy = .onStop)
    (runs : env.executes action = true) (outcome : Outcome α) (calls : Nat) :
    (env.conclusion action outcome calls).2.done = true := by
  obtain ⟨valid, _, eager | stop | spent⟩ := (executes_iff action).mp runs
  · cases defers.symm.trans eager
  · obtain ⟨token, named⟩ := (valid_iff env.rules).mp valid
    have stop : env.rules.isStop action = true := isStop_iff.mpr ⟨by rw [named]; rfl, stop⟩
    rw [done, Episode.done, conclusion_reason, stop]
    exact env.rules.reason_of_stop _ _ _
  · exact env.rules.reason_of_budget _ _ _ spent

section
variable (defers : env.rules.settings.executionPolicy = .onStop)
  (total : env.rules.interpreter.NeverFaults)
include defers total

/-- An episode that is over runs nothing any more, and one that goes on has a run left. -/
theorem calls_steps_le (actions : List (Quantity α)) :
    (env.after (actions.map .step)).calls ≤ env.calls + (!env.done).toNat := by
  induction actions generalizing env with
  | nil => exact Nat.le_add_right _ _
  | cons action actions ih =>
    change ((env.step action).2.after (actions.map .step)).calls ≤ _
    rcases step_cases_total total action with ⟨ended, taken⟩ |
      ⟨going, outcome, calls, judged, taken⟩
    · rw [taken]
      exact ih defers total
    · have rest : ((env.conclusion action outcome calls).2.after (actions.map .step)).calls ≤
          calls + _ := ih defers total
      obtain ⟨_, counted, _⟩ := judge_attempted judged
      rw [taken, going]
      refine rest.trans ?_
      cases runs : env.executes action with
      | true =>
        rw [conclusion_done_of_executes defers runs, counted, runs]
        exact Nat.le_refl _
      | false =>
        rw [counted, runs]
        exact Nat.add_le_add_left (Bool.toNat_le _) _

/-- As long as an episode goes on, nothing has been run that could be similar. -/
theorem similarity_after (start : env.done = false → env.episode.similarity = Scalar.nat 0)
    (commands : List (Command α)) (going : (env.after commands).done = false) :
    (env.after commands).episode.similarity = Scalar.nat 0 := by
  induction commands generalizing env with
  | nil => exact start going
  | cons command commands ih =>
    have rules := apply_rules env command
    refine ih (rules ▸ defers) (rules ▸ total) (fun still => ?_) going
    cases command with
    | reset => rfl
    | step action =>
      change (env.step action).2.done = false at still
      change (env.step action).2.episode.similarity = _
      rcases step_cases_total total action with ⟨ended, taken⟩ | ⟨_, outcome, calls, judged, taken⟩
      · rw [taken] at still
        cases ended.symm.trans still
      · rw [taken] at still ⊢
        have idle : env.executes action = false := by
          by_contra runs
          have ended := conclusion_done_of_executes defers (by simpa using runs) outcome calls
          cases ended.symm.trans still
        change outcome.similarity = _
        rw [(judge_attempted judged).2.2.1 idle]
        rfl

end

/-- What a step of an episode that goes on runs, and what it asks of the interpreter. -/
theorem Consistent.step_execution (consistent : env.Consistent)
    (total : env.rules.interpreter.NeverFaults) (going : env.done = false) (action : Quantity α) :
    ∃ result next, env.step action = (.ok result, next) ∧
      (result.info.outcome.attempted = true ↔ env.rules.Valid action ∧
        next.program.trim.isEmpty = false ∧
        (env.rules.settings.executionPolicy = .everyStep ∨
          result.info.token = env.rules.settings.endToken ∨
          next.episode.stepCount = env.rules.settings.maxSteps)) ∧
      next.calls = env.calls + (if result.info.outcome.attempted then 1 else 0) ∧
      (result.info.outcome.attempted = true → ∃ verdict,
        env.rules.interpreter.run next.calls next.program = .ok verdict ∧
        result.info.outcome =
          .ofVerdict env.rules.interpreter.similarity env.rules.task.expectedOutput verdict) ∧
      (∀ run, (result.info.outcome.attempted = true →
          run next.calls next.program = env.rules.interpreter.run next.calls next.program) →
        (env.withRun run).step action = (.ok result, next.withRun run)) ∧
      (env.rules.settings.executionPolicy = .onStop → result.info.outcome.attempted = true →
        result.done = true) := by
  obtain ⟨outcome, calls, judged⟩ := judge_ok total action
  obtain ⟨attempted, counted, _, ran⟩ := judge_attempted judged
  have within := consistent.stepCount_lt going
  have taken := step_concluded going judged
  refine ⟨_, _, taken, ?_, ?_, ?_, ?_, ?_⟩
  · change outcome.attempted = true ↔ env.rules.Valid action ∧
      (env.spend action).program.trim.isEmpty = false ∧ (_ ∨ env.rules.tokenOf? action = _ ∨
        env.episode.stepCount + 1 = env.rules.settings.maxSteps)
    have spent : env.episode.stepCount + 1 = env.rules.settings.maxSteps ↔
        env.rules.settings.maxSteps ≤ env.episode.stepCount + 1 := by omega
    rw [attempted, executes_iff, spent]
  · change calls = env.calls + (if outcome.attempted then 1 else 0)
    rw [counted, attempted]
    cases env.executes action <;> rfl
  · intro runs
    exact ran (attempted.symm.trans runs)
  · intro run agrees
    rw [step_withRun, taken]
    intro runs
    have same := agrees (attempted.trans runs)
    change run calls _ = env.rules.interpreter.run calls _ at same
    rwa [counted, runs] at same
  · intro defers runs
    exact conclusion_done_of_executes defers (attempted.symm.trans runs) outcome calls

/-- Along every run of an environment whose interpreter does not fault. A step of an episode that
goes on runs a program exactly if its action is valid, the program after it is not blank and, unless
the policy is to run at every step, it emits the end token or uses up the budget. Then it asks the
interpreter once, for the program after the step, and an interpreter of a language does not report
that program as empty; what the interpreter would do in any other call has no part in the step. Where
running is put off, a step that runs a program ends the episode, an episode that goes on has seen no
similarity, and no episode runs more than one program. -/
theorem executions {task : Task} {vocabulary : Vocabulary} {interpreter : Interpreter Float}
    {reward : Reward Float} {request : SettingsRequest} {env : Environment Float}
    (created : create task vocabulary interpreter reward request = .ok env)
    (total : interpreter.NeverFaults) (commands : List (Command Float)) :
    let now := env.after commands
    let settings := env.rules.settings
    (now.done = false → ∀ action, ∃ result next, now.step action = (.ok result, next) ∧
      (result.info.outcome.attempted = true ↔ env.rules.Valid action ∧
        next.program.trim.isEmpty = false ∧
        (settings.executionPolicy = .everyStep ∨ result.info.token = settings.endToken ∨
          next.episode.stepCount = settings.maxSteps)) ∧
      next.calls = now.calls + (if result.info.outcome.attempted then 1 else 0) ∧
      (result.info.outcome.attempted = true → ∃ verdict,
        interpreter.run next.calls next.program = .ok verdict ∧
        result.info.outcome = .ofVerdict interpreter.similarity task.expectedOutput verdict ∧
        ∀ language, Interpreter.ofLanguage language = .ok interpreter →
          verdict.error ≠ some "empty program") ∧
      (∀ run, (result.info.outcome.attempted = true →
          run next.calls next.program = interpreter.run next.calls next.program) →
        (now.withRun run).step action = (.ok result, next.withRun run)) ∧
      (settings.executionPolicy = .onStop → result.info.outcome.attempted = true →
        result.done = true)) ∧
    (settings.executionPolicy = .onStop →
      (now.done = false → now.observe.similarity = 0) ∧
      ∀ actions, (now.play actions).calls ≤ now.calls + 1) := by
  obtain ⟨settings, resolved, rfl⟩ := create_eq_ok created
  have budget := Settings.maxSteps_pos resolved
  have start : (ofRules ⟨settings, task, vocabulary, interpreter, reward⟩).Consistent :=
    consistent_restart (ofRules _) budget
  intro now _
  have rules : now.rules = ⟨settings, task, vocabulary, interpreter, reward⟩ :=
    after_rules _ commands
  have answers : now.rules.interpreter.NeverFaults := rules ▸ total
  have consistent : now.Consistent := consistent_after total budget start commands
  refine ⟨fun going action => ?_, fun defers => ⟨fun going => ?_, fun actions => ?_⟩⟩
  · obtain ⟨result, next, taken, runs, counted, ran, alone, last⟩ :=
      consistent.step_execution answers going action
    rw [rules] at runs ran alone last
    refine ⟨result, next, taken, runs, counted, fun attempted => ?_, alone, last⟩
    obtain ⟨verdict, reported, outcome⟩ := ran attempted
    refine ⟨verdict, reported, outcome, fun language known empty => ?_⟩
    obtain ⟨report, among, rfl⟩ := Interpreter.ofLanguage_eq_ok known
    cases reported
    have blank := (Interpreter.reports_empty_iff among next.program).mp empty
    cases blank.symm.trans (runs.mp attempted).2.1
  · exact similarity_after defers total (fun _ => rfl) commands going
  · have policy : now.restart.rules.settings.executionPolicy = .onStop :=
      congrArg (·.settings.executionPolicy) rules ▸ defers
    exact calls_steps_le policy answers actions

/-- A token and an invalid action put off, the end token runs what there is and ends the episode. -/
theorem executions_sample :
    (Interpreter.ofFunction "echo" Interpreter.runEcho : Interpreter Float).NeverFaults ∧
    ∃ env, sampleUnder .onStop = .ok env ∧
      let now := env.after [.step (.count 0), .step (.count 7)]
      now.done = false ∧ now.calls = 0 ∧ now.observe.similarity = 0 ∧
      (∃ result next, now.step (.count 2) = (.ok result, next) ∧ next.calls = 1 ∧
        result.info.outcome.attempted = true ∧ result.done = true) ∧
      ∀ actions, (now.play actions).calls ≤ 1 := by
  have total : (Interpreter.ofFunction "echo" Interpreter.runEcho : Interpreter Float).NeverFaults :=
    Interpreter.ofFunction_neverFaults "echo" Interpreter.runEcho
  obtain ⟨steps, deferred⟩ := executions (rfl : sampleUnder .onStop = .ok _) total
    [.step (.count 0), .step (.count 7)]
  obtain ⟨unseen, once⟩ := deferred rfl
  obtain ⟨result, next, taken, runs, counted, _, _, last⟩ := steps (by decide +kernel) (.count 2)
  have program := congrArg (fun stepped => stepped.2.program.trim.isEmpty) taken
  have token := congrArg (fun stepped => stepped.1.toOption.bind (·.info.token)) taken
  have attempted : result.info.outcome.attempted = true := by
    refine runs.mpr ⟨⟨2, rfl, by decide⟩, ?_, .inr (.inl ?_)⟩
    · rw [← program]
      decide +kernel
    · change result.info.token = some "END"
      rw [show result.info.token = _ from token.symm]
      decide +kernel
  refine ⟨total, _, rfl, by decide +kernel, by decide +kernel, unseen (by decide +kernel),
    ⟨result, next, taken, ?_, attempted, last rfl attempted⟩, once⟩
  rw [counted, attempted]
  decide +kernel

end ProgramGym.Environment
