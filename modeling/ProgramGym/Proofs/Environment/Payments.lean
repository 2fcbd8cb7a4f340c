import Mathlib
import ProgramGym.Proofs.Environment.Executions
import ProgramGym.Proofs.Reward

/-! What a match is paid for. The length that counts is reckoned from the tokens before the step, as
if the step had emitted one. It has: only the verdict on a program makes a match, and only a valid
action runs one. Main statement: a match is paid for the tokens that are there after it, and of two
matches the one by the shorter program is paid no less. -/
namespace ProgramGym
namespace Environment
variable {α : Type} [Scalar α] {env : Environment α} {action : Quantity α}

/-- A match comes with a token. -/
theorem tokenOf?_of_match {outcome : Outcome α} {calls : Nat}
    (judged : env.judge action = (.ok outcome, calls)) (hit : outcome.matched = true) :
    ∃ token, env.rules.tokenOf? action = some token := by
  have runs : env.executes action = true := by
    by_contra idle
    rw [(judge_attempted judged).2.2.1 (by simpa using idle)] at hit
    cases hit
  exact (valid_iff env.rules).mp ((executes_iff action).mp runs).1

/-- A match counts the tokens after it. -/
theorem step_match {result : StepResult α} {next : Environment α}
    (taken : env.step action = (.ok result, next)) (hit : result.info.outcome.matched = true) :
    next.episode.tokens.length = env.episode.tokens.length + 1 ∧
    result.reward = env.rules.reward.compute env.episode.tokens.length result.info.outcome := by
  obtain ⟨_, outcome, calls, judged, rfl, rfl⟩ := step_eq_ok taken
  obtain ⟨token, named⟩ := tokenOf?_of_match judged hit
  exact ⟨by simp [conclusion_tokens, named], rfl⟩

end Environment

/-- Accepted efficient rewards. Over exact numbers, of two matching steps the one with no more
tokens before it is paid at least as much, and they are paid alike where neither program is longer
than the target. In every run of an environment, whatever its interpreter does, the length that a
matching step is paid for is the number of tokens after it. -/
theorem RewardDesign.shorter_pays_no_less {given : Json.Members Json} {design : RewardDesign}
    (accepted : efficiency given = .ok design) :
    ∃ (terms : RewardTerms Float) (target : ℕ) (bonus penalty : Float),
      design.reward = .efficiency terms target bonus penalty ∧
      Number.toNat? (setting design.settings "targetLength") = some target ∧
      (∀ (k k' : ℕ) (o o' : Outcome Exact), o.matched = true → o'.matched = true → k ≤ k' →
        ∃ r r' : ℝ, (design.reward.map Exact.ofFloat).compute k o = .real r ∧
          (design.reward.map Exact.ofFloat).compute k' o' = .real r' ∧ r' ≤ r ∧
          (k + 1 ≤ target → k' + 1 ≤ target → r = r')) ∧
      ∀ (task : Task) (vocabulary : Vocabulary) (interpreter : Interpreter Float)
        (request : SettingsRequest) (env : Environment Float),
        Environment.create task vocabulary interpreter design.reward request = .ok env →
        ∀ (commands : List (Command Float)) (action : Quantity Float)
          (result : StepResult Float) (next : Environment Float),
          (env.after commands).step action = (.ok result, next) →
          result.info.outcome.matched = true →
          next.episode.tokens.length = (env.after commands).episode.tokens.length + 1 ∧
          result.reward =
            Reward.matchedAt terms target bonus penalty next.episode.tokens.length := by
  obtain ⟨terms, target, bonus, penalty, t, b, p, made, read, exact, bonus_nonneg,
    penalty_nonneg⟩ := efficiency_exact accepted
  refine ⟨terms, target, bonus, penalty, made, read, ?_, ?_⟩
  · intro k k' o o' hit hit' le
    have paid {n : ℕ} {o : Outcome Exact} (hit : o.matched = true) :
        (design.reward.map Exact.ofFloat).compute n o =
          .real (Reward.earned t target b p (n + 1)) := by
      rw [exact, Reward.compute, if_pos hit, Reward.matchedAt_real]
    refine ⟨_, _, paid hit, paid hit', ?_, fun within within' => ?_⟩
    · exact Reward.earned_antitone t bonus_nonneg penalty_nonneg (Nat.add_le_add_right le 1)
    · rw [Reward.earned_of_le t within, Reward.earned_of_le t within']
  · intro task vocabulary interpreter request env created commands action result next taken hit
    obtain ⟨settings, _, rfl⟩ := Environment.create_eq_ok created
    obtain ⟨counted, paid⟩ := Environment.step_match taken hit
    have reward : (Environment.ofRules (α := Float)
        ⟨settings, task, vocabulary, interpreter, design.reward⟩).rules.reward = _ := made
    rw [Environment.after_rules, reward, Reward.compute, if_pos hit, ← counted] at paid
    exact ⟨counted, paid⟩

/-- The efficient reward without settings of its own. -/
def RewardDesign.sampleEfficiency : RewardDesign :=
  (efficiency []).toOption.getD .default

theorem RewardDesign.efficiency_sampleEfficiency : efficiency [] = .ok sampleEfficiency := by
  have accepted : (efficiency []).isOk = true := by decide +kernel
  unfold sampleEfficiency
  generalize efficiency [] = made at accepted
  cases made with
  | error => cases accepted
  | ok design => rfl

/-- The tokens 4, 2 and END match in a third step, within the target of the default settings. -/
theorem RewardDesign.shorter_pays_no_less_sample :
    ∃ design env, efficiency [] = .ok design ∧
      Environment.create ⟨"001", "echo", "", "42", none, none⟩ ["4", "2", "END"]
        (.ofFunction "echo" Interpreter.runEcho) design.reward { maxSteps := .count 5 } = .ok env ∧
      ∃ result next terms bonus penalty,
        (env.after [.step (.count 0), .step (.count 1)]).step (.count 2) = (.ok result, next) ∧
        result.info.outcome.matched = true ∧
        design.reward = .efficiency terms 20 bonus penalty ∧
        result.reward = Reward.matchedAt terms 20 bonus penalty 3 := by
  obtain ⟨terms, target, bonus, penalty, made, read, _, paid⟩ :=
    shorter_pays_no_less efficiency_sampleEfficiency
  have twenty : target = 20 := by
    refine Option.some.inj (read.symm.trans ?_)
    decide +kernel
  subst twenty
  refine ⟨_, _, efficiency_sampleEfficiency, rfl, ?_⟩
  have paid := paid ⟨"001", "echo", "", "42", none, none⟩ ["4", "2", "END"]
    (.ofFunction "echo" Interpreter.runEcho) { maxSteps := .count 5 } _ rfl
    [.step (.count 0), .step (.count 1)] (.count 2)
  generalize taken : Environment.step (α := Float) _ (.count 2) = stepped at paid ⊢
  have matched := congrArg (·.1.toOption.map (·.info.outcome.matched)) taken
  have length := congrArg (·.2.episode.tokens.length) taken
  have matched : _ = some true := matched.symm.trans (by decide +kernel)
  have length : _ = 3 := length.symm.trans (by decide +kernel)
  obtain ⟨fault | result, next⟩ := stepped
  · cases matched
  · have hit := Option.some.inj matched
    have paid := (paid result next rfl hit).2
    rw [show next.episode.tokens.length = 3 from length] at paid
    exact ⟨result, next, terms, bonus, penalty, rfl, hit, made, paid⟩

end ProgramGym
