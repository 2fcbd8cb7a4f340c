import ProgramGym.Environment

/-! One step of an environment in three parts: what it spends before anything is run, what is
judged, and what is recorded. A step that finds the episode over changes nothing; one whose
interpreter faults keeps what it has spent; any other is concluded. -/
namespace ProgramGym

/-- Whether an action emits the end token. -/
def Rules.isStop {α : Type} [Scalar α] (r : Rules α) (action : Quantity α) : Bool :=
  (r.tokenOf? action).any fun token => some token == r.settings.endToken

namespace Environment
variable {α : Type} [Scalar α] {env : Environment α} {action : Quantity α}

/-- The step is counted and its token, if the action is valid, emitted. -/
def spend (env : Environment α) (action : Quantity α) : Environment α :=
  let token := env.rules.tokenOf? action
  { env with episode := { env.episode with
      stepCount := env.episode.stepCount + 1
      tokens := env.episode.tokens ++ token.toList
      actions := env.episode.actions ++ (token.map fun _ => action).toList } }

/-- What a step learns, and the interpreter's calls after it. -/
def judge (env : Environment α) (action : Quantity α) : Except Fault (Outcome α) × Nat :=
  if (env.rules.tokenOf? action).isSome then
    let (outcome, after) := (env.spend action).run (env.rules.isStop action)
    (outcome, after.calls)
  else (.ok (.skipped (some (.invalidAction action env.rules.vocabulary.length))), env.calls)

/-- A program is left alone, or run to a verdict, or the interpreter faults on it. -/
theorem run_cases (env : Environment α) (isStop : Bool) :
    (env.rules.runs env.program isStop env.episode.stepCount = false ∧
      env.run isStop = (.ok (.skipped none), env)) ∨
    (env.rules.runs env.program isStop env.episode.stepCount = true ∧
      ((∃ v, env.rules.interpreter.run (env.calls + 1) env.program = .ok v ∧
        env.run isStop =
          (.ok (.ofVerdict env.rules.interpreter.similarity env.rules.task.expectedOutput v),
            { env with calls := env.calls + 1 })) ∨
      ∃ fault, env.rules.interpreter.run (env.calls + 1) env.program = .error fault ∧
        env.run isStop = (.error fault, { env with calls := env.calls + 1 }))) := by
  cases runs : env.rules.runs env.program isStop env.episode.stepCount with
  | false => exact .inl ⟨rfl, by rw [run, runs]; rfl⟩
  | true =>
    cases ran : env.rules.interpreter.run (env.calls + 1) env.program with
    | ok v => exact .inr ⟨rfl, .inl ⟨v, rfl, by rw [run, runs]; simp [ran]⟩⟩
    | error fault => exact .inr ⟨rfl, .inr ⟨fault, rfl, by rw [run, runs]; simp [ran]⟩⟩

theorem run_calls (env : Environment α) (isStop : Bool) :
    (env.run isStop).2 = { env with calls := (env.run isStop).2.calls } := by
  rcases run_cases env isStop with ⟨_, ran⟩ | ⟨_, ⟨_, _, ran⟩ | ⟨_, _, ran⟩⟩ <;> rw [ran]

theorem step_done (ended : env.done = true) : env.step action = (.error .episodeOver, env) := by
  rw [step, if_pos ended]

theorem step_open (unfinished : env.done = false) :
    env.step action = match env.judge action with
      | (.error fault, calls) => (.error fault, { env.spend action with calls })
      | (.ok outcome, calls) =>
        let (result, after) := { env.spend action with calls }.conclude env action
          (env.rules.tokenOf? action) (env.rules.isStop action) outcome
        (.ok result, after) := by
  unfold step
  rw [if_neg (by simp [unfinished])]
  cases valid : env.rules.tokenOf? action with
  | none => simp [judge, spend, Rules.isStop, valid]
  | some token =>
    have spent : env.spend action = { env with episode := { env.episode with
        stepCount := env.episode.stepCount + 1
        tokens := env.episode.tokens ++ [token]
        actions := env.episode.actions ++ [action] } } := by
      simp [spend, valid]
    have stop : env.rules.isStop action = (some token == env.rules.settings.endToken) := by
      simp [Rules.isStop, valid]
    have calls := run_calls (env.spend action) (env.rules.isStop action)
    simp only [judge, valid, Option.isSome_some, if_true, ← spent, ← stop]
    generalize (env.spend action).run (env.rules.isStop action) = ran at calls
    obtain ⟨outcome, after⟩ := ran
    change after = { env.spend action with calls := after.calls } at calls
    rw [calls]
    cases outcome <;> rfl

/-- A step that was judged, with what is recorded of it. -/
def conclusion (env : Environment α) (action : Quantity α) (outcome : Outcome α) (calls : Nat) :
    StepResult α × Environment α :=
  { env.spend action with calls }.conclude env action (env.rules.tokenOf? action)
    (env.rules.isStop action) outcome

theorem step_faulted {fault : Fault} {calls : Nat} (unfinished : env.done = false)
    (judged : env.judge action = (.error fault, calls)) :
    env.step action = (.error fault, { env.spend action with calls }) := by
  rw [step_open unfinished, judged]

theorem step_concluded {outcome : Outcome α} {calls : Nat} (unfinished : env.done = false)
    (judged : env.judge action = (.ok outcome, calls)) :
    env.step action = (.ok (env.conclusion action outcome calls).1,
      (env.conclusion action outcome calls).2) := by
  rw [step_open unfinished, judged]
  rfl

/-- Everything that a step can do. -/
theorem step_cases (env : Environment α) (action : Quantity α) :
    (env.done = true ∧ env.step action = (.error .episodeOver, env)) ∨
    (env.done = false ∧ ∃ fault calls, env.judge action = (.error fault, calls) ∧
      env.step action = (.error fault, { env.spend action with calls })) ∨
    (env.done = false ∧ ∃ outcome calls, env.judge action = (.ok outcome, calls) ∧
      env.step action = (.ok (env.conclusion action outcome calls).1,
        (env.conclusion action outcome calls).2)) := by
  cases finished : env.done with
  | true => exact .inl ⟨rfl, step_done finished⟩
  | false =>
    rcases judged : env.judge action with ⟨fault | outcome, calls⟩
    · exact .inr (.inl ⟨rfl, fault, calls, rfl, step_faulted finished judged⟩)
    · exact .inr (.inr ⟨rfl, outcome, calls, rfl, step_concluded finished judged⟩)

/-- A step that succeeds was judged and is recorded. -/
theorem step_eq_ok {result : StepResult α} {next : Environment α}
    (taken : env.step action = (.ok result, next)) :
    env.done = false ∧ ∃ outcome calls, env.judge action = (.ok outcome, calls) ∧
      result = (env.conclusion action outcome calls).1 ∧
      next = (env.conclusion action outcome calls).2 := by
  rcases step_cases env action with ⟨_, ended⟩ | ⟨_, _, _, _, faulted⟩ |
    ⟨going, outcome, calls, judged, concluded⟩
  · cases ended.symm.trans taken
  · cases faulted.symm.trans taken
  · cases concluded.symm.trans taken
    exact ⟨going, outcome, calls, judged, rfl, rfl⟩

/-! What is judged. -/

/-- Only a program that is run can fault, and then the call counts. -/
theorem judge_error {fault : Fault} {calls : Nat}
    (judged : env.judge action = (.error fault, calls)) :
    (env.rules.tokenOf? action).isSome = true ∧ calls = env.calls + 1 ∧
      env.rules.interpreter.run calls (env.spend action).program = .error fault := by
  unfold judge at judged
  split at judged
  · next valid =>
    refine ⟨valid, ?_⟩
    rcases run_cases (env.spend action) (env.rules.isStop action) with
      ⟨_, ran⟩ | ⟨_, ⟨_, _, ran⟩ | ⟨_, failed, ran⟩⟩ <;> rw [ran] at judged <;> cases judged
    exact ⟨rfl, failed⟩
  · cases judged

theorem judge_ok (total : env.rules.interpreter.NeverFaults) (action : Quantity α) :
    ∃ outcome calls, env.judge action = (.ok outcome, calls) := by
  rcases judged : env.judge action with ⟨fault | outcome, calls⟩
  · obtain ⟨_, _, failed⟩ := judge_error judged
    obtain ⟨verdict, ran⟩ := total calls (env.spend action).program
    cases failed.symm.trans ran
  · exact ⟨outcome, calls, rfl⟩

/-- Everything that a step can do whose program cannot make the interpreter fault. -/
theorem step_cases_total (total : env.rules.interpreter.NeverFaults) (action : Quantity α) :
    (env.done = true ∧ env.step action = (.error .episodeOver, env)) ∨
    (env.done = false ∧ ∃ outcome calls, env.judge action = (.ok outcome, calls) ∧
      env.step action = (.ok (env.conclusion action outcome calls).1,
        (env.conclusion action outcome calls).2)) := by
  cases finished : env.done with
  | true => exact .inl ⟨rfl, step_done finished⟩
  | false =>
    obtain ⟨outcome, calls, judged⟩ := judge_ok total action
    exact .inr ⟨rfl, outcome, calls, judged, step_concluded finished judged⟩

theorem matched_ofVerdict (similarity : Text → Text → α) (expected : Text) (v : Verdict) :
    (Outcome.ofVerdict similarity expected v).matched = true ↔
      v.success = true ∧ ∃ text, v.output = some text ∧ text.trim = expected.trim := by
  cases success : v.success <;> simp [Outcome.ofVerdict, success, Option.any_eq_true]

/-- A step matches exactly when its program ran to an output that is the expected one but for the
blanks around it. -/
theorem judge_matched {outcome : Outcome α} {calls : Nat}
    (judged : env.judge action = (.ok outcome, calls)) :
    outcome.matched = true ↔ outcome.success = true ∧
      ∃ text, outcome.output = some text ∧ text.trim = env.rules.task.expectedOutput.trim := by
  unfold judge at judged
  split at judged
  · rcases run_cases (env.spend action) (env.rules.isStop action) with
      ⟨_, ran⟩ | ⟨_, ⟨_, _, ran⟩ | ⟨_, _, ran⟩⟩ <;> rw [ran] at judged <;> cases judged
    · simp [Outcome.skipped]
    · exact matched_ofVerdict _ _ _
  · cases judged
    simp [Outcome.skipped]

/-! What is recorded. -/

section
variable (env : Environment α) (action : Quantity α) (outcome : Outcome α) (calls : Nat)

theorem conclusion_rules : (env.conclusion action outcome calls).2.rules = env.rules := rfl

theorem conclusion_stepCount :
    (env.conclusion action outcome calls).2.episode.stepCount = env.episode.stepCount + 1 := rfl

theorem conclusion_tokens :
    (env.conclusion action outcome calls).2.episode.tokens =
      env.episode.tokens ++ (env.rules.tokenOf? action).toList := rfl

theorem conclusion_actions :
    (env.conclusion action outcome calls).2.episode.actions =
      env.episode.actions ++ ((env.rules.tokenOf? action).map fun _ => action).toList := rfl

theorem conclusion_info :
    (env.conclusion action outcome calls).1.info =
      ⟨env.episode.stepCount + 1, env.rules.tokenOf? action,
        (env.conclusion action outcome calls).2.program, outcome,
        (env.conclusion action outcome calls).2.episode.reason⟩ := rfl

theorem conclusion_reason :
    (env.conclusion action outcome calls).2.episode.reason =
      env.rules.reason outcome.matched (env.rules.isStop action)
        (env.rules.tokenOf? action).isNone (env.episode.stepCount + 1) := rfl

theorem conclusion_transitions :
    ∃ t : Transition α, t.observation = env.observe ∧
      t.nextObservation = (env.conclusion action outcome calls).2.observe ∧
      t.done = (env.conclusion action outcome calls).2.done ∧
      (env.conclusion action outcome calls).2.transitions = env.transitions ++ [t] :=
  ⟨_, rfl, rfl, rfl, rfl⟩

end

theorem step_rules (env : Environment α) (action : Quantity α) :
    (env.step action).2.rules = env.rules := by
  rcases step_cases env action with ⟨_, taken⟩ | ⟨_, _, _, _, taken⟩ | ⟨_, _, _, _, taken⟩ <;>
    rw [taken] <;> rfl

end Environment

/-! A budget that is spent and an emitted end token end the episode. -/

theorem Rules.reason_of_budget {α : Type} (r : Rules α) {stepCount : Nat}
    (matched isStop invalid : Bool) (spent : r.settings.maxSteps ≤ stepCount) :
    (r.reason matched isStop invalid stepCount).isSome = true := by
  cases matched <;> simp [reason, spent]

theorem Rules.reason_of_stop {α : Type} (r : Rules α) (stepCount : Nat) (matched invalid : Bool) :
    (r.reason matched true invalid stepCount).isSome = true := by
  by_cases spent : r.settings.maxSteps ≤ stepCount <;> cases matched <;> simp [reason, spent]

end ProgramGym
