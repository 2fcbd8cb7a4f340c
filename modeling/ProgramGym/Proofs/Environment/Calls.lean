import ProgramGym.Proofs.Environment.Steps

/-! The count of an interpreter's calls. Where the program alone decides what the interpreter
does, faults included, the count has no say in what a step answers: environments that agree in
all but the count go on agreeing. -/
namespace ProgramGym.Environment
variable {α : Type} [Scalar α] {env : Environment α}

def withCalls (env : Environment α) (calls : Nat) : Environment α := { env with calls }

theorem run_outcome (env : Environment α) (isStop : Bool) :
    (env.run isStop).1 =
      if env.rules.runs env.program isStop env.episode.stepCount then
        (env.rules.interpreter.run (env.calls + 1) env.program).map
          (.ofVerdict env.rules.interpreter.similarity env.rules.task.expectedOutput)
      else .ok (.skipped none) := by
  rcases run_cases env isStop with
    ⟨left, ran⟩ | ⟨runs, ⟨_, answered, ran⟩ | ⟨_, answered, ran⟩⟩ <;> rw [ran]
  · rw [left]
    rfl
  · rw [runs, answered]
    rfl
  · rw [runs, answered]
    rfl

theorem run_withCalls (env : Environment α) (functional : env.rules.interpreter.Functional) (isStop : Bool)
    (calls : Nat) : ((env.withCalls calls).run isStop).1 = (env.run isStop).1 := by
  rw [run_outcome, run_outcome, ← functional (calls + 1) (env.calls + 1)]
  rfl

theorem judge_withCalls (functional : env.rules.interpreter.Functional) (action : Quantity α)
    (calls : Nat) : ((env.withCalls calls).judge action).1 = (env.judge action).1 := by
  have same := run_withCalls (env.spend action) functional (env.rules.isStop action) calls
  cases valid : (env.rules.tokenOf? action).isSome with
  | true =>
    have judged (e : Environment α) (tokens : (e.rules.tokenOf? action).isSome = true) :
        (e.judge action).1 = ((e.spend action).run (e.rules.isStop action)).1 := by
      rw [judge, if_pos tokens]
    rw [judged _ valid, judged (env.withCalls calls) valid]
    exact same
  | false =>
    have judged (e : Environment α) (tokens : (e.rules.tokenOf? action).isSome = false) :
        (e.judge action).1 =
          .ok (.skipped (some (.invalidAction action e.rules.vocabulary.length))) := by
      rw [judge, if_neg (by simp [tokens])]
    rw [judged _ valid, judged (env.withCalls calls) valid]
    rfl

/-- A step answers the same at any count of calls, and leaves the same but for the count. -/
theorem step_withCalls (functional : env.rules.interpreter.Functional) (action : Quantity α)
    (calls : Nat) :
    ∃ count, (env.withCalls calls).step action =
      ((env.step action).1, (env.step action).2.withCalls count) := by
  have same := judge_withCalls functional action calls
  rcases judged : (env.withCalls calls).judge action with ⟨verdict, count⟩
  rw [judged] at same
  rcases step_cases env action with ⟨ended, taken⟩ | ⟨going, fault, _, faulted, taken⟩ |
    ⟨going, outcome, _, concluded, taken⟩
  · refine ⟨calls, ?_⟩
    rw [taken]
    exact step_done (show (env.withCalls calls).done = true from ended)
  · refine ⟨count, ?_⟩
    rw [faulted] at same
    cases same
    rw [taken]
    exact step_faulted (show (env.withCalls calls).done = false from going) judged
  · refine ⟨count, ?_⟩
    rw [concluded] at same
    cases same
    rw [taken]
    exact step_concluded (show (env.withCalls calls).done = false from going) judged

end ProgramGym.Environment
