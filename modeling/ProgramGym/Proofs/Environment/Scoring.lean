import Mathlib
import ProgramGym.Proofs.Environment.Executions
import ProgramGym.Proofs.Reward
import ProgramGym.Proofs.Similarity

/-! How a step is scored. A step either has nothing to score or an output that a program ran to, and
the match, the similarity and the partial credit are all read off the same output. Main statement:
where something is expected and the interpreter is that of a language, matches are the steps of
similarity one, and any other step is credited with less than the whole weight. -/
namespace ProgramGym
open Binary64

/-- Outcomes by what there is to be scored. -/
inductive Outcome.Scored {α : Type} [Scalar α] (expected : Text) (o : Outcome α) : Prop where
  | nothing (missed : o.matched = false) (none : o.similarity = Scalar.nat 0)
    (uncredited : o.error.isSome = true ∨
      (o.attempted && o.success && o.output.any (!·.isEmpty)) = false)
  | output (output : Text) (reported : o.output = some output) (ran : o.attempted = true)
    (fine : o.success = true) (uncomplaining : o.error = none)
    (similarity : o.similarity = Similarity.positional output expected)
    (agrees : o.matched = (output.trim == expected.trim))

/-- The texts that are compared have no more units than the limit. -/
def Outcome.Within {α : Type} (expected : Text) (limit : ℕ) (o : Outcome α) : Prop :=
  expected.length ≤ limit ∧ ∀ output ∈ o.output, output.length ≤ limit

namespace Outcome.Scored
variable {expected : Text} (filled : expected.trim.isEmpty = false)
include filled

/-- Over exact numbers the similarity is a fraction, and credit is that part of the weight. -/
theorem exact {o : Outcome Exact} (scored : o.Scored expected) :
    ∃ q : ℚ, o.similarity = .real q ∧ 0 ≤ q ∧ q ≤ 1 ∧ (o.matched = true ↔ q = 1) ∧
      ∀ t : RewardTerms ℝ, Reward.unmatched (t.map Exact.real) o = .real
        (t.stepPenalty + (if o.error.isSome then t.errorPenalty else 0) + q * t.partialCredit) := by
  cases scored with
  | nothing missed none uncredited =>
    refine ⟨0, none.trans (by simp), le_rfl, zero_le_one, by simp [missed], fun t => ?_⟩
    unfold Reward.unmatched
    rcases uncredited with complains | uncredited
    · simp [complains, RewardTerms.map]
    · rw [uncredited]
      cases complains : o.error.isSome <;> simp [RewardTerms.map]
  | output output reported ran fine uncomplaining similarity agrees =>
    refine ⟨Similarity.fraction output expected, similarity.trans (Similarity.positional_exact _ _),
      Similarity.fraction_nonneg _ _, Similarity.fraction_le_one _ _, ?_, fun t => ?_⟩
    · rw [agrees, beq_iff_eq, Similarity.fraction_eq_one_iff]
      exact ⟨fun same => ⟨same, same ▸ filled⟩, And.left⟩
    · rw [Reward.unmatched, similarity, Similarity.positional_exact]
      cases blank : output.isEmpty with
      | true =>
        have empty : output.trim.isEmpty = true :=
          output.trim_isEmpty_iff.mpr (by simp [List.isEmpty_iff.mp blank])
        have none := Similarity.fraction_blank output expected (.inl empty)
        simp [uncomplaining, reported, blank, none, RewardTerms.map]
      | false => simp [uncomplaining, reported, blank, ran, fine, RewardTerms.map]

/-- A match is scored with the number one. -/
theorem similarity_of_match {o : Outcome Float} (scored : o.Scored expected)
    (hit : o.matched = true) : o.similarity = 1 := by
  cases scored with
  | nothing missed => cases missed.symm.trans hit
  | output output _ _ _ _ similarity agrees =>
    rw [agrees, beq_iff_eq] at hit
    exact similarity.trans (Similarity.positional_of_match filled hit)

/-- Anything else is scored with less, by as much as the texts have room for. -/
theorem worth_of_miss {o : Outcome Float} (scored : o.Scored expected) (missed : o.matched = false)
    {k : ℕ} (some : 1 ≤ k) (few : k ≤ 53) (short : o.Within expected (2 ^ k)) :
    ∃ u ≤ (1 - (1 / 2) ^ k : ℚ), Worth o.similarity u := by
  cases scored with
  | nothing _ none =>
    refine ⟨0, ?_, none ▸ worth_zero⟩
    exact sub_nonneg.mpr (pow_le_one₀ (by norm_num) (by norm_num))
  | output output reported _ _ _ similarity agrees =>
    rw [agrees, beq_eq_false_iff_ne] at missed
    rw [similarity]
    exact Similarity.worth_positional some few filled missed (short.2 output reported) short.1

/-- Numbers can count the units of the texts that they score: a match is told from a miss. -/
theorem score {o : Outcome Float} (scored : o.Scored expected)
    (short : o.Within expected (2 ^ 53)) :
    Probability o.similarity ∧ (o.matched = true ↔ o.similarity = 1) := by
  cases hit : o.matched with
  | true =>
    have whole := similarity_of_match filled scored hit
    exact ⟨whole ▸ worth_one.probability le_rfl, iff_of_true rfl whole⟩
  | false =>
    obtain ⟨u, below, worth⟩ :=
      worth_of_miss filled scored hit (k := 53) (by decide) le_rfl short
    have less : u < 1 := below.trans_lt (sub_lt_self 1 (by norm_num))
    refine ⟨worth.probability less.le, iff_of_false (by decide) fun one => ?_⟩
    exact absurd ((worth_one.lt_iff worth_one).mp (one ▸ (worth.lt_iff worth_one).mpr less))
      (lt_irrefl 1)

/-- With one digit to spare, credit is told from the whole weight as well. -/
theorem credit_lt {o : Outcome Float} (scored : o.Scored expected) (missed : o.matched = false)
    (short : o.Within expected (2 ^ 52)) {weight : Float} (finite : weight.isFinite = true)
    (normal : leastNormal ≤ weight) : o.similarity * weight < weight := by
  obtain ⟨u, below, similarity⟩ :=
    worth_of_miss filled scored missed (k := 52) (by decide) (by decide) short
  obtain ⟨w, worth⟩ := worth_of_finite finite (worth_leastNormal.not_neg normal)
  obtain ⟨v, less, credit⟩ :=
    similarity.mul_lt worth below ((worth_leastNormal.le_iff worth).mp normal)
  exact (credit.lt_iff worth).mpr less

end Outcome.Scored

namespace Environment

section
variable {α : Type} [Scalar α] {env : Environment α} {action : Quantity α}

theorem scored_of_judge {outcome : Outcome α} {calls : Nat}
    (scores : env.rules.interpreter.similarity = Similarity.positional)
    (judged : env.judge action = (.ok outcome, calls)) :
    outcome.Scored env.rules.task.expectedOutput := by
  obtain ⟨_, _, idle, ran⟩ := judge_attempted judged
  cases runs : env.executes action with
  | false =>
    rw [idle runs]
    exact .nothing rfl rfl (.inr rfl)
  | true =>
    obtain ⟨⟨success, output, error, given⟩, _, rfl⟩ := ran runs
    rw [scores]
    cases success with
    | false => exact .nothing rfl rfl (.inl rfl)
    | true =>
      cases output with
      | none => exact .nothing rfl rfl (.inr rfl)
      | some output => exact .output output rfl rfl rfl rfl rfl rfl

/-- A step of an episode that goes on, with what there was to be scored and its reward if it
missed. -/
theorem step_scored (total : env.rules.interpreter.NeverFaults)
    (scores : env.rules.interpreter.similarity = Similarity.positional) (going : env.done = false)
    (action : Quantity α) : ∃ result next, env.step action = (.ok result, next) ∧
      result.info.outcome.Scored env.rules.task.expectedOutput ∧
      (result.info.outcome.matched = false →
        result.reward = Reward.unmatched env.rules.reward.terms result.info.outcome) := by
  obtain ⟨outcome, calls, judged⟩ := judge_ok total action
  exact ⟨_, _, step_concluded going judged, scored_of_judge scores judged,
    env.rules.reward.compute_of_unmatched _⟩

/-- The same along every run with the interpreter of a language. -/
theorem run_scored {rules : Rules α} {language : Text}
    (known : Interpreter.ofLanguage language = .ok rules.interpreter) (commands : List (Command α))
    (going : ((ofRules rules).after commands).done = false) (action : Quantity α) :
    ∃ result next, ((ofRules rules).after commands).step action = (.ok result, next) ∧
      result.info.outcome.Scored rules.task.expectedOutput ∧
      (result.info.outcome.matched = false →
        result.reward = Reward.unmatched rules.reward.terms result.info.outcome) := by
  obtain ⟨verdict, _, its⟩ := Interpreter.ofLanguage_eq_ok known
  have same : ((ofRules rules).after commands).rules = rules := after_rules _ commands
  have scored := @step_scored α _ ((ofRules rules).after commands)
  rw [same, its] at scored
  exact scored (Interpreter.ofFunction_neverFaults _ _) rfl going action

end

/-- The similarity of two texts is a fraction between zero and one, whatever their order and the
blanks around them, and one exactly if they are equal but for these blanks and not blank. So, in
every run of an environment with the interpreter of a language and an expected output that is not
blank, the steps that match are those of similarity one, and any other step is credited with less
than the whole weight. In binary64 the similarity is the fraction rounded. It is told from one as
long as numbers can count the units of the texts, and credit from the weight if there is one more
digit to count with and the weight has all its digits. -/
theorem similarity_faithful :
    (∀ a b : Text, (Similarity.positional a b : Exact) = .real (Similarity.fraction a b : ℚ) ∧
      0 ≤ Similarity.fraction a b ∧ Similarity.fraction a b ≤ 1 ∧
      Similarity.fraction a b = Similarity.fraction b a ∧
      Similarity.fraction a b = Similarity.fraction a.trim b.trim ∧
      (Similarity.fraction a b = 1 ↔ a.trim = b.trim ∧ a.trim.isEmpty = false)) ∧
    (∀ (rules : Rules Exact) (language : Text) (t : RewardTerms ℝ),
      Interpreter.ofLanguage language = .ok rules.interpreter →
      rules.task.expectedOutput.trim.isEmpty = false → rules.reward.terms = t.map Exact.real →
      ∀ commands, ((ofRules rules).after commands).done = false → ∀ action,
        ∃ result next, ((ofRules rules).after commands).step action = (.ok result, next) ∧
        let outcome := result.info.outcome
        ∃ q : ℚ, outcome.similarity = .real q ∧ 0 ≤ q ∧ q ≤ 1 ∧
          (outcome.matched = true ↔ q = 1) ∧
          (outcome.matched = false →
            result.reward = .real (t.stepPenalty +
              (if outcome.error.isSome then t.errorPenalty else 0) + q * t.partialCredit) ∧
            (0 < t.partialCredit → q * t.partialCredit < t.partialCredit))) ∧
    ∀ (task : Task) (vocabulary : Vocabulary) (language : Text) (interpreter : Interpreter Float)
      (reward : Reward Float) (request : SettingsRequest) (env : Environment Float),
      Interpreter.ofLanguage language = .ok interpreter →
      create task vocabulary interpreter reward request = .ok env →
      task.expectedOutput.trim.isEmpty = false →
      ∀ commands, (env.after commands).done = false → ∀ action,
        ∃ result next, (env.after commands).step action = (.ok result, next) ∧
        let outcome := result.info.outcome
        let weight := reward.terms.partialCredit
        (outcome.Within task.expectedOutput (2 ^ 53) →
          0 ≤ outcome.similarity ∧ outcome.similarity ≤ 1 ∧
          (outcome.matched = true ↔ outcome.similarity = 1)) ∧
        (outcome.matched = false → result.reward = Reward.unmatched reward.terms outcome ∧
          (outcome.Within task.expectedOutput (2 ^ 52) → weight.isFinite = true →
            leastNormal ≤ weight → outcome.similarity * weight < weight)) := by
  refine ⟨?_, ?_, ?_⟩
  · intro a b
    exact ⟨Similarity.positional_exact a b, Similarity.fraction_nonneg a b,
      Similarity.fraction_le_one a b, Similarity.fraction_comm a b,
      (Similarity.fraction_trim a b).symm, Similarity.fraction_eq_one_iff a b⟩
  · intro rules language t known filled terms commands going action
    obtain ⟨result, next, taken, scored, credited⟩ := run_scored known commands going action
    obtain ⟨q, similarity, low, high, hits, reward⟩ := scored.exact filled
    refine ⟨result, next, taken, q, similarity, low, high, hits, fun missed => ⟨?_, fun some => ?_⟩⟩
    · rw [credited missed, terms, reward t]
    · have below : q < 1 := lt_of_le_of_ne high fun one => by
        rw [hits.mpr one] at missed
        cases missed
      exact mul_lt_of_lt_one_left some (by exact_mod_cast below)
  · intro task vocabulary language interpreter reward request env known created filled commands
      going action
    obtain ⟨settings, _, rfl⟩ := create_eq_ok created
    obtain ⟨result, next, taken, scored, credited⟩ := run_scored known commands going action
    refine ⟨result, next, taken, ?_, ?_⟩
    · intro short
      obtain ⟨⟨low, high⟩, hits⟩ := scored.score filled short
      exact ⟨low, high, hits⟩
    · intro missed
      refine ⟨credited missed, ?_⟩
      intro short finite normal
      exact scored.credit_lt filled missed short finite normal

/-- The first of two digits is no match: it is scored with less than one, and credited with less
than the whole weight. -/
theorem similarity_faithful_sample : ∃ env, sampleUnder .everyStep = .ok env ∧
    ∃ result next, env.step (.count 0) = (.ok result, next) ∧
      result.info.outcome.matched = false ∧ result.info.outcome.similarity ≠ 1 ∧
      result.info.outcome.similarity * 2 < 2 := by
  obtain ⟨result, next, taken, scored, credited⟩ := similarity_faithful.2.2 _ _ "echo" _ _ _ _ rfl
    (rfl : sampleUnder .everyStep = .ok _) (by decide +kernel) [] (by decide +kernel) (.count 0)
  have outcome := congrArg (·.1.toOption.map fun result =>
    (result.info.outcome.matched, result.info.outcome.output)) taken
  have outcome : (result.info.outcome.matched, result.info.outcome.output) =
      (false, some ("4" : Text)) :=
    Option.some.inj (outcome.symm.trans (by decide +kernel))
  obtain ⟨missed, reported⟩ := Prod.mk.inj outcome
  have short {limit : ℕ} (two : 2 ≤ limit) : result.info.outcome.Within "42" limit := by
    refine ⟨two, fun output its => ?_⟩
    cases reported.symm.trans its
    exact le_trans (by decide) two
  refine ⟨_, rfl, result, next, taken, missed, fun one => ?_, ?_⟩
  · rw [(scored (short (by decide))).2.2.mpr one] at missed
    cases missed
  · exact (credited missed).2 (short (by decide)) (by decide +kernel) (by decide +kernel)

/-- A weight that lacks digits may be paid in full: two thirds of the least weight there is are
rounded up to it. So where 421 is expected, `42x` is a miss and is credited with the whole. -/
theorem credit_of_miss_rounded : ∃ env : Environment Float,
    create ⟨"001", "echo", "", "421", none, none⟩ ["42x", "END"]
      (.ofFunction "echo" Interpreter.runEcho) (.correctness ⟨10, -0.1, -1, 5e-324⟩)
      (SettingsRequest.withPolicy {} .everyStep) = .ok env ∧
    ∃ result next, env.step (.count 0) = (.ok result, next) ∧
      let outcome := result.info.outcome
      let weight := env.rules.reward.terms.partialCredit
      outcome.matched = false ∧ outcome.similarity < 1 ∧ 0 < weight ∧ weight < leastNormal ∧
        outcome.similarity * weight = weight := by
  refine ⟨_, rfl, ?_⟩
  refine ⟨_, _, rfl, ?missed, ?similarity, ?positive, ?digits, ?credit⟩
  case missed => decide +kernel
  case similarity => decide +kernel
  case positive => decide +kernel
  case digits => decide +kernel
  case credit => decide +kernel

end Environment
end ProgramGym
