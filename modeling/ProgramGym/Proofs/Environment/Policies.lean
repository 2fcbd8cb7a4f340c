import ProgramGym.Proofs.Environment.Runs

/-! The two execution policies side by side. While neither episode is over, the same actions lead
both to the same tokens, and the program that they spell is one that the eager environment has
run without a match. An end token adds nothing to the program, so it brings no new match to the
eager environment; to the deferred one it brings the match that it has put off. Main statement:
whatever one policy solves the other one solves, the deferred policy at most one step later. -/
namespace ProgramGym

namespace Rules
variable {α : Type} [Scalar α]

/-- Whether a program, if it is run, reports the expected output. -/
def solves (r : Rules α) (program : Text) : Bool :=
  !program.trim.isEmpty && ((r.interpreter.run 1 program).toOption.any fun v =>
    (Outcome.ofVerdict r.interpreter.similarity r.task.expectedOutput v).matched)

def withPolicy (r : Rules α) (executionPolicy : ExecutionPolicy) : Rules α :=
  { r with settings := { r.settings with executionPolicy } }

/-- The end token is no part of the program. -/
theorem program_of_isStop (r : Rules α) {action : Quantity α} (tokens : List Text)
    (stop : r.isStop action = true) :
    r.program (tokens ++ (r.tokenOf? action).toList) = r.program tokens := by
  cases named : r.tokenOf? action with
  | none => simp
  | some token =>
    have isEnd : some token = r.settings.endToken := by simpa [isStop, named] using stop
    simp [program, ← isEnd]

theorem program_of_invalid (r : Rules α) {action : Quantity α} (tokens : List Text)
    (invalid : r.tokenOf? action = none) :
    r.program (tokens ++ (r.tokenOf? action).toList) = r.program tokens := by
  simp [invalid]

theorem not_solves_nil (r : Rules α) : r.solves (r.program []) = false := by
  simp [program, Text.join, solves, Text.trim, Text.isEmpty]

omit [Scalar α] in
/-- Without a match an episode does not end in success. -/
theorem reason_ne_success (r : Rules α) (isStop invalid : Bool) (stepCount : Nat) :
    r.reason false isStop invalid stepCount ≠ some .success := by
  unfold reason
  split_ifs <;> simp_all

end Rules

namespace Environment
variable {α : Type} [Scalar α]

/-- A new episode through a list of actions. -/
def play (env : Environment α) (actions : List (Quantity α)) : Environment α :=
  env.restart.after (actions.map .step)

/-- Whether a step runs the program that it leads to, and the program solves the task. -/
def succeeds (env : Environment α) (action : Quantity α) : Bool :=
  (env.rules.tokenOf? action).isSome &&
    env.rules.runs (env.spend action).program (env.rules.isStop action)
      (env.episode.stepCount + 1) &&
    env.rules.solves (env.spend action).program

section
variable {env : Environment α} {action : Quantity α}

/-- Where the program alone decides what the interpreter reports, it decides the match too. -/
theorem judge_succeeds (functional : env.rules.interpreter.Functional) {outcome : Outcome α}
    {calls : Nat} (judged : env.judge action = (.ok outcome, calls)) :
    outcome.matched = env.succeeds action := by
  unfold judge at judged
  split at judged
  · next valid =>
    have count : (env.spend action).episode.stepCount = env.episode.stepCount + 1 := rfl
    rcases run_cases (env.spend action) (env.rules.isStop action) with
      ⟨idle, ran⟩ | ⟨runs, ⟨v, reported, ran⟩ | ⟨_, _, ran⟩⟩ <;> rw [ran] at judged <;> cases judged
    · change env.rules.runs _ _ _ = false at idle
      simp [succeeds, ← count, idle, Outcome.skipped]
    · change env.rules.runs _ _ _ = true at runs
      change env.rules.interpreter.run _ _ = _ at reported
      have nonblank : (env.spend action).program.trim.isEmpty = false := by
        simpa using (Bool.and_eq_true_iff.mp runs).1
      rw [functional _ 1] at reported
      simp only [succeeds, valid, ← count, runs, Rules.solves, nonblank, reported,
        Except.toOption, Option.any_some, Bool.not_false, Bool.true_and]
      rfl
  · next invalid =>
    cases judged
    simp [succeeds, invalid, Outcome.skipped]

/-- A step of an episode that goes on, as far as success depends on it. -/
theorem step_progress (functional : env.rules.interpreter.Functional)
    (total : env.rules.interpreter.NeverFaults) (going : env.done = false)
    (action : Quantity α) :
    let next := (env.step action).2
    next.rules = env.rules ∧
      next.episode.tokens = env.episode.tokens ++ (env.rules.tokenOf? action).toList ∧
      next.episode.stepCount = env.episode.stepCount + 1 ∧
      next.episode.reason = env.rules.reason (env.succeeds action) (env.rules.isStop action)
        (env.rules.tokenOf? action).isNone (env.episode.stepCount + 1) := by
  obtain ⟨outcome, calls, judged⟩ := judge_ok total action
  rw [step_concluded going judged]
  refine ⟨rfl, rfl, rfl, ?_⟩
  rw [← judge_succeeds functional judged]
  rfl

theorem after_steps_done (ended : env.done = true) (actions : List (Quantity α)) :
    env.after (actions.map .step) = env := by
  induction actions with
  | nil => rfl
  | cons action actions ih =>
    change (env.step action).2.after (actions.map .step) = env
    rw [step_done ended]
    exact ih

theorem stepCount_le_step (env : Environment α) (action : Quantity α) :
    env.episode.stepCount ≤ (env.step action).2.episode.stepCount := by
  rcases step_cases env action with ⟨_, taken⟩ | ⟨_, _, _, _, taken⟩ | ⟨_, _, _, _, taken⟩ <;>
    rw [taken]
  · exact Nat.le_succ _
  · exact Nat.le_succ _

theorem stepCount_le_after (env : Environment α) (actions : List (Quantity α)) :
    env.episode.stepCount ≤ (env.after (actions.map .step)).episode.stepCount := by
  induction actions generalizing env with
  | nil => exact Nat.le_refl _
  | cons action actions ih => exact (stepCount_le_step env action).trans (ih _)

end

/-- Two episodes under the two policies that the same actions have led to, none of them over. -/
structure InStep (deferred eager : Environment α) : Prop where
  defers : deferred.rules.settings.executionPolicy = .onStop
  rules : eager.rules = deferred.rules.withPolicy .everyStep
  functional : deferred.rules.interpreter.Functional
  total : deferred.rules.interpreter.NeverFaults
  tokens : eager.episode.tokens = deferred.episode.tokens
  stepCount : eager.episode.stepCount = deferred.episode.stepCount
  deferred_going : deferred.done = false
  eager_going : eager.done = false
  /-- The program so far has been run eagerly without a match. -/
  unsolved : deferred.rules.solves deferred.program = false

theorem inStep_restart {deferred eager : Environment α}
    (defers : deferred.rules.settings.executionPolicy = .onStop)
    (rules : eager.rules = deferred.rules.withPolicy .everyStep)
    (functional : deferred.rules.interpreter.Functional)
    (total : deferred.rules.interpreter.NeverFaults) : InStep deferred.restart eager.restart where
  defers := defers
  rules := rules
  functional := functional
  total := total
  tokens := rfl
  stepCount := rfl
  deferred_going := rfl
  eager_going := rfl
  unsolved := deferred.rules.not_solves_nil

namespace InStep
variable {deferred eager : Environment α} (inStep : InStep deferred eager) (action : Quantity α)
include inStep

theorem eager_progress :
    let next := (eager.step action).2
    next.rules = deferred.rules.withPolicy .everyStep ∧
      next.episode.tokens = deferred.episode.tokens ++ (deferred.rules.tokenOf? action).toList ∧
      next.episode.stepCount = deferred.episode.stepCount + 1 ∧
      next.episode.reason = deferred.rules.reason (eager.succeeds action)
        (deferred.rules.isStop action) (deferred.rules.tokenOf? action).isNone
        (deferred.episode.stepCount + 1) := by
  have functional : eager.rules.interpreter.Functional := inStep.rules ▸ inStep.functional
  have progress := step_progress functional (inStep.rules ▸ inStep.total) inStep.eager_going action
  rw [inStep.rules, inStep.tokens, inStep.stepCount] at progress
  exact progress

/-- The program after an action, which is one and the same under both policies. -/
theorem spend_program : (eager.spend action).program = (deferred.spend action).program := by
  change eager.rules.program (eager.episode.tokens ++ (eager.rules.tokenOf? action).toList) = _
  rw [inStep.rules, inStep.tokens]
  rfl

/-- Run eagerly, a program succeeds if it solves the task and is a new one. -/
theorem eager_succeeds : eager.succeeds action = ((deferred.rules.tokenOf? action).isSome &&
    deferred.rules.solves (deferred.spend action).program) := by
  rw [succeeds, inStep.spend_program, inStep.rules]
  change ((deferred.rules.tokenOf? action).isSome && (_ && (true || _)) &&
    deferred.rules.solves (deferred.spend action).program) = _
  cases blank : (deferred.spend action).program.trim.isEmpty <;>
    simp [Rules.solves, blank]

theorem deferred_succeeds : deferred.succeeds action =
    (eager.succeeds action && (deferred.rules.isStop action ||
      decide (deferred.rules.settings.maxSteps ≤ deferred.episode.stepCount + 1))) := by
  rw [inStep.eager_succeeds, succeeds, Rules.runs, inStep.defers]
  have notEager : (ExecutionPolicy.onStop == .everyStep) = false := rfl
  cases blank : (deferred.spend action).program.trim.isEmpty <;>
    cases (deferred.rules.tokenOf? action).isSome <;>
    simp [Rules.solves, blank, notEager, Bool.and_comm]

/-- An end token brings no match that was not there before it. -/
theorem not_isStop (succeeded : eager.succeeds action = true) :
    deferred.rules.isStop action = false := by
  rw [inStep.eager_succeeds, Bool.and_eq_true] at succeeded
  by_contra stop
  have same := deferred.rules.program_of_isStop deferred.episode.tokens (by simpa using stop)
  have unsolved := inStep.unsolved
  rw [program, ← same] at unsolved
  exact Bool.false_ne_true (unsolved.symm.trans succeeded.2)

/-- A step that does not succeed eagerly ends both episodes for one reason, or none of them. -/
theorem step_unsolved (failed : eager.succeeds action = false) :
    (∃ reason, reason ≠ .success ∧ (deferred.step action).2.episode.reason = some reason ∧
      (eager.step action).2.episode.reason = some reason) ∨
    InStep (deferred.step action).2 (eager.step action).2 := by
  obtain ⟨rules, tokens, stepCount, reason⟩ :=
    step_progress inStep.functional inStep.total inStep.deferred_going action
  obtain ⟨eagerRules, eagerTokens, eagerCount, eagerReason⟩ := inStep.eager_progress action
  rw [inStep.deferred_succeeds, failed, Bool.false_and] at reason
  rw [failed] at eagerReason
  cases ended : deferred.rules.reason false (deferred.rules.isStop action)
      (deferred.rules.tokenOf? action).isNone (deferred.episode.stepCount + 1) with
  | some r =>
    refine .inl ⟨r, ?_, reason.trans ended, eagerReason.trans ended⟩
    rintro rfl
    exact deferred.rules.reason_ne_success _ _ _ ended
  | none =>
    refine .inr
      { defers := rules ▸ inStep.defers
        rules := by rw [eagerRules, rules]
        functional := rules ▸ inStep.functional
        total := rules ▸ inStep.total
        tokens := eagerTokens.trans tokens.symm
        stepCount := eagerCount.trans stepCount.symm
        deferred_going := by rw [done, Episode.done, reason, ended]; rfl
        eager_going := by rw [done, Episode.done, eagerReason, ended]; rfl
        unsolved := ?_ }
    -- an invalid action leaves the program as it was, a valid one makes the one that did not match
    rw [program, rules, tokens]
    cases valid : deferred.rules.tokenOf? action with
    | none =>
      have same := deferred.rules.program_of_invalid deferred.episode.tokens valid
      rw [valid] at same
      exact same ▸ inStep.unsolved
    | some token =>
      rw [inStep.eager_succeeds, valid, Option.isSome_some, Bool.true_and] at failed
      rw [← valid]
      exact failed

/-- The step in which the eager episode succeeds: the deferred one succeeds with it if the budget
is spent, and else goes on with the program that solves the task. -/
theorem step_solved (succeeded : eager.succeeds action = true) :
    (eager.step action).2.episode.reason = some .success ∧
    (deferred.rules.settings.maxSteps ≤ deferred.episode.stepCount + 1 →
      (deferred.step action).2.episode.reason = some .success) ∧
    (deferred.episode.stepCount + 1 < deferred.rules.settings.maxSteps →
      (deferred.step action).2.done = false ∧
      deferred.rules.solves (deferred.step action).2.program = true) := by
  obtain ⟨rules, tokens, _, reason⟩ :=
    step_progress inStep.functional inStep.total inStep.deferred_going action
  obtain ⟨_, _, _, eagerReason⟩ := inStep.eager_progress action
  have notStop := inStep.not_isStop action succeeded
  rw [inStep.deferred_succeeds, succeeded, notStop, Bool.true_and, Bool.false_or] at reason
  rw [inStep.eager_succeeds, Bool.and_eq_true] at succeeded
  refine ⟨?_, fun spent => ?_, fun within => ⟨?_, ?_⟩⟩
  · rw [eagerReason, inStep.eager_succeeds, succeeded.1, succeeded.2]
    rfl
  · rw [reason, decide_eq_true spent]
    rfl
  · rw [done, Episode.done, reason]
    simp [Rules.reason, Nat.not_le.mpr within, Option.isNone_eq_false_iff.mpr succeeded.1]
  · rw [program, rules, tokens]
    exact succeeded.2

omit inStep action in
/-- What the deferred policy solves the eager one solves, and no later. -/
theorem eager_solves (inStep : InStep deferred eager) (actions : List (Quantity α))
    (solved : (deferred.after (actions.map .step)).episode.reason = some .success) :
    (eager.after (actions.map .step)).episode.reason = some .success ∧
    (eager.after (actions.map .step)).episode.stepCount ≤
      (deferred.after (actions.map .step)).episode.stepCount := by
  induction actions generalizing deferred eager with
  | nil =>
    have going := inStep.deferred_going
    rw [done, Episode.done] at going
    change deferred.episode.reason = _ at solved
    simp [solved] at going
  | cons action actions ih =>
    change ((deferred.step action).2.after (actions.map .step)).episode.reason = _ at solved
    change ((eager.step action).2.after (actions.map .step)).episode.reason = _ ∧
      ((eager.step action).2.after (actions.map .step)).episode.stepCount ≤
        ((deferred.step action).2.after (actions.map .step)).episode.stepCount
    cases succeeded : eager.succeeds action with
    | true =>
      have success := (inStep.step_solved action succeeded).1
      have ended : (eager.step action).2.done = true := by simp [done, Episode.done, success]
      rw [after_steps_done ended]
      refine ⟨success, ?_⟩
      have later := stepCount_le_after (deferred.step action).2 actions
      rw [(step_progress inStep.functional inStep.total inStep.deferred_going action).2.2.1] at later
      rw [(inStep.eager_progress action).2.2.1]
      exact later
    | false =>
      rcases inStep.step_unsolved action succeeded with ⟨r, other, reason, _⟩ | next
      · have ended : (deferred.step action).2.done = true := by simp [done, Episode.done, reason]
        rw [after_steps_done ended, reason] at solved
        exact absurd (Option.some.inj solved) other
      · exact ih next solved

omit inStep action in
/-- An end token runs a program that has been put off. -/
theorem step_isStop (deferred : Environment α) (functional : deferred.rules.interpreter.Functional)
    (total : deferred.rules.interpreter.NeverFaults) (going : deferred.done = false)
    (solves : deferred.rules.solves deferred.program = true) {action : Quantity α}
    (stop : deferred.rules.isStop action = true) :
    (deferred.step action).2.episode.reason = some .success := by
  obtain ⟨_, _, _, reason⟩ := step_progress functional total going action
  have same : (deferred.spend action).program = deferred.program :=
    deferred.rules.program_of_isStop _ stop
  have nonblank : deferred.program.trim.isEmpty = false := by
    simpa using (Bool.and_eq_true_iff.mp solves).1
  have succeeded : deferred.succeeds action = true := by
    simp [succeeds, Rules.runs, same, solves, stop, nonblank, (isStop_iff.mp stop).1]
  rw [reason, succeeded]
  rfl

/-- Where the eager episode has succeeded within the budget, the deferred one succeeds in the next
step, on an end token. -/
theorem close_solved (succeeded : eager.succeeds action = true)
    (within : deferred.episode.stepCount + 1 < deferred.rules.settings.maxSteps)
    {stop : Quantity α} (isStop : deferred.rules.isStop stop = true) :
    let closed := ((deferred.step action).2.step stop).2
    closed.episode.reason = some .success ∧
      closed.episode.stepCount = deferred.episode.stepCount + 1 + 1 := by
  obtain ⟨rules, _, stepCount, _⟩ :=
    step_progress inStep.functional inStep.total inStep.deferred_going action
  obtain ⟨going, solves⟩ := (inStep.step_solved action succeeded).2.2 within
  have functional : (deferred.step action).2.rules.interpreter.Functional :=
    rules ▸ inStep.functional
  have total : (deferred.step action).2.rules.interpreter.NeverFaults := rules ▸ inStep.total
  refine ⟨step_isStop _ functional total going (rules ▸ solves) (rules ▸ isStop), ?_⟩
  rw [← stepCount]
  exact (step_progress functional total going stop).2.2.1

omit inStep action in
/-- What the eager policy solves the deferred one solves: with it at the end of the budget, and
else with an end token more. -/
theorem deferred_solves (inStep : InStep deferred eager) (actions : List (Quantity α))
    (solved : (eager.after (actions.map .step)).episode.reason = some .success) :
    let budget := deferred.rules.settings.maxSteps
    let steps := (eager.after (actions.map .step)).episode.stepCount
    (steps < budget → ∀ stop, deferred.rules.isStop stop = true →
      let closed := (actions.take (steps - deferred.episode.stepCount) ++ [stop]).map Command.step
      (deferred.after closed).episode.reason = some .success ∧
      (deferred.after closed).episode.stepCount = steps + 1) ∧
    (budget ≤ steps →
      (deferred.after (actions.map .step)).episode.reason = some .success ∧
      (deferred.after (actions.map .step)).episode.stepCount = steps) := by
  induction actions generalizing deferred eager with
  | nil =>
    have going := inStep.eager_going
    rw [done, Episode.done] at going
    change eager.episode.reason = _ at solved
    simp [solved] at going
  | cons action actions ih =>
    intro budget steps
    obtain ⟨rules, _, stepCount, _⟩ :=
      step_progress inStep.functional inStep.total inStep.deferred_going action
    change ((eager.step action).2.after (actions.map .step)).episode.reason = _ at solved
    cases succeeded : eager.succeeds action with
    | true =>
      obtain ⟨success, spent, _⟩ := inStep.step_solved action succeeded
      have ended : (eager.step action).2.done = true := by simp [done, Episode.done, success]
      have steps_eq : steps = deferred.episode.stepCount + 1 := by
        change ((eager.step action).2.after (actions.map .step)).episode.stepCount = _
        rw [after_steps_done ended]
        exact (inStep.eager_progress action).2.2.1
      constructor
      · intro before stop isStop
        have first : (action :: actions).take (steps - deferred.episode.stepCount) = [action] := by
          simp [steps_eq]
        rw [first, steps_eq]
        exact inStep.close_solved action succeeded (steps_eq ▸ before) isStop
      · intro full
        have reason := spent (steps_eq ▸ full)
        have closed : (deferred.step action).2.done = true := by simp [done, Episode.done, reason]
        change ((deferred.step action).2.after (actions.map .step)).episode.reason = _ ∧
          ((deferred.step action).2.after (actions.map .step)).episode.stepCount = _
        rw [after_steps_done closed]
        exact ⟨reason, stepCount.trans steps_eq.symm⟩
    | false =>
      rcases inStep.step_unsolved action succeeded with ⟨r, other, _, reason⟩ | next
      · have ended : (eager.step action).2.done = true := by simp [done, Episode.done, reason]
        rw [after_steps_done ended, reason] at solved
        exact absurd (Option.some.inj solved) other
      · -- one step is taken on both sides, so one action less is left to take
        obtain ⟨before, full⟩ := ih next solved
        rw [rules, stepCount] at before
        rw [rules] at full
        refine ⟨fun within stop isStop => ?_, full⟩
        have later : deferred.episode.stepCount + 1 ≤ steps :=
          (inStep.eager_progress action).2.2.1 ▸ stepCount_le_after (eager.step action).2 actions
        have split : steps - deferred.episode.stepCount =
            steps - (deferred.episode.stepCount + 1) + 1 := by omega
        rw [split]
        exact before within stop isStop

end InStep

end Environment

/-- The request with an execution policy of its own. -/
def SettingsRequest.withPolicy (r : SettingsRequest) (policy : ExecutionPolicy) : SettingsRequest :=
  { r with executionPolicy := .text policy.name }

theorem ExecutionPolicy.ofName?_name (policy : ExecutionPolicy) :
    ofName? policy.name = some policy := by
  cases policy <;> decide

/-- The settings of two requests that differ in the policy differ in the policy. -/
theorem Settings.check_withPolicy {empty repeated : Bool} {isToken : Json → Bool}
    {r : SettingsRequest} {policy : ExecutionPolicy} {s : Settings}
    (accepted : check empty repeated isToken (r.withPolicy policy) = .ok s)
    (other : ExecutionPolicy) :
    s.executionPolicy = policy ∧
    check empty repeated isToken (r.withPolicy other) = .ok { s with executionPolicy := other } := by
  have settings := check_eq_ok.mp accepted
  constructor
  · exact Option.some.inj (settings.executionPolicy.symm.trans policy.ofName?_name)
  · exact check_eq_ok.mpr { settings with executionPolicy := other.ofName?_name }

namespace Environment

/-- Two environments that differ in the policy alone, restarted after whatever they were used for:
what one solves, the other solves. Under the deferred policy this is never sooner, and it takes
one step more, on the end token, unless the budget is spent. An episode that has ended takes no
step, so its count of steps is the step that it ended at. -/
theorem policies_agree {task : Task} {vocabulary : Vocabulary} {interpreter : Interpreter Float}
    {reward : Reward Float} {request : SettingsRequest} {deferred eager : Environment Float}
    (deferring : create task vocabulary interpreter reward (request.withPolicy .onStop) =
      .ok deferred)
    (running : create task vocabulary interpreter reward (request.withPolicy .everyStep) =
      .ok eager)
    (functional : interpreter.Functional) (total : interpreter.NeverFaults)
    (past earlier : List (Command Float)) (actions : List (Quantity Float)) :
    let later := ((deferred.after past).play actions).episode
    let sooner := ((eager.after earlier).play actions).episode
    let budget := deferred.rules.settings.maxSteps
    (later.reason = some .success →
      sooner.reason = some .success ∧ sooner.stepCount ≤ later.stepCount) ∧
    (sooner.reason = some .success →
      (sooner.stepCount < budget → ∀ stop index, deferred.rules.settings.endToken = some stop →
        vocabulary[index]? = some stop →
        let closed := ((deferred.after past).play
          (actions.take sooner.stepCount ++ [.count index])).episode
        closed.reason = some .success ∧ closed.stepCount = sooner.stepCount + 1) ∧
      (sooner.stepCount = budget →
        later.reason = some .success ∧ later.stepCount = sooner.stepCount)) := by
  obtain ⟨settings, resolved, rfl⟩ := create_eq_ok deferring
  obtain ⟨eagerSettings, eagerResolved, rfl⟩ := create_eq_ok running
  obtain ⟨defers, other⟩ := Settings.check_withPolicy resolved .everyStep
  cases other.symm.trans eagerResolved
  have rules := after_rules (ofRules ⟨settings, task, vocabulary, interpreter, reward⟩) past
  have eagerRules := after_rules (ofRules ⟨{ settings with executionPolicy := .everyStep }, task,
    vocabulary, interpreter, reward⟩) earlier
  generalize (ofRules ⟨settings, task, vocabulary, interpreter, reward⟩).after past = lazily at *
  generalize (ofRules ⟨{ settings with executionPolicy := .everyStep }, task, vocabulary,
    interpreter, reward⟩).after earlier = eagerly at *
  have inStep : InStep lazily.restart eagerly.restart :=
    inStep_restart (rules ▸ defers) (by rw [eagerRules, rules]; rfl) (rules ▸ functional)
      (rules ▸ total)
  refine ⟨inStep.eager_solves actions, fun solved => ?_⟩
  obtain ⟨within, full⟩ := inStep.deferred_solves actions solved
  rw [show lazily.restart.rules = _ from rules] at within full
  constructor
  · intro before stop index configured named
    refine within before (.count index) ?_
    have named : vocabulary[index]? = settings.endToken := named.trans configured.symm
    change settings.endToken = some stop at configured
    simp [Rules.isStop, Rules.tokenOf?, Quantity.index?, ofRules, named, configured]
  · intro spent
    exact full spent.ge

/-- The task to write 42 with the tokens 4, 2 and END under a policy. -/
def sampleUnder (policy : ExecutionPolicy) : Except Fault (Environment Float) :=
  create ⟨"001", "echo", "", "42", none, none⟩ ["4", "2", "END"]
    (.ofFunction "echo" Interpreter.runEcho) (.correctness ⟨10, -0.1, -1, 2⟩)
    (SettingsRequest.withPolicy { maxSteps := .count 5 } policy)

/-- With an invalid action in front, 42 is there after three steps; after a reset the deferred
policy finds it with a fourth. -/
theorem policies_agree_sample :
    ∃ deferred eager, sampleUnder .onStop = .ok deferred ∧ sampleUnder .everyStep = .ok eager ∧
      let actions : List (Quantity Float) := [.count 7, .count 0, .count 1]
      ((eager.after []).play actions).episode.reason = some .success ∧
      ((eager.after []).play actions).episode.stepCount = 3 ∧
      ((deferred.after [.step (.count 0)]).play (actions ++ [.count 2])).episode.reason =
        some .success ∧
      ((deferred.after [.step (.count 0)]).play (actions ++ [.count 2])).episode.stepCount = 4 := by
  have functional : (Interpreter.ofFunction "echo" Interpreter.runEcho :
    Interpreter Float).Functional := fun _ _ _ => rfl
  have agree := policies_agree (rfl : sampleUnder .onStop = .ok _)
    (rfl : sampleUnder .everyStep = .ok _) functional
    (Interpreter.ofFunction_neverFaults "echo" Interpreter.runEcho) [.step (.count 0)] []
    [.count 7, .count 0, .count 1]
  exact ⟨_, _, rfl, rfl, by decide +kernel, by decide +kernel,
    (agree.2 (by decide +kernel)).1 (by decide +kernel) "END" 2 (by decide +kernel)
      (by decide +kernel)⟩

end Environment
end ProgramGym
