import Mathlib
import ProgramGym.Proofs.Checks
import ProgramGym.Proofs.Exact.Conversion
import ProgramGym.Proofs.Lookup
import ProgramGym.Reward

/-! What rewards amount to over exact numbers. Accepted settings are finite, and those that make
the length of a program count are not negative, so that the longer of two matches earns no larger
bonus and pays no smaller penalty. Main statements: accepted efficient rewards stand for real ones,
whose pay for a match falls with its length, beyond the target only. -/
namespace ProgramGym
open Binary64

def RewardTerms.map {α β : Type} (f : α → β) (t : RewardTerms α) : RewardTerms β where
  success := f t.success
  stepPenalty := f t.stepPenalty
  errorPenalty := f t.errorPenalty
  partialCredit := f t.partialCredit

namespace Reward
variable {α : Type}

def map {β : Type} (f : α → β) : Reward α → Reward β
  | correctness terms => correctness (terms.map f)
  | efficiency terms target bonus penalty =>
    efficiency (terms.map f) target (f bonus) (f penalty)

/-- What both kinds have in common. -/
def terms : Reward α → RewardTerms α
  | correctness terms | efficiency terms .. => terms

theorem compute_of_unmatched [Scalar α] (r : Reward α) (tokensBefore : Nat) {o : Outcome α}
    (missed : o.matched = false) : r.compute tokensBefore o = unmatched r.terms o := by
  cases r <;> simp [compute, terms, missed]

section
variable (t : RewardTerms ℝ) (target : ℕ) (bonus penalty : ℝ)

/-- What a match by a program of some length earns. -/
noncomputable def earned (length : ℕ) : ℝ :=
  t.success + bonus / (1 + (length - target : ℕ)) - penalty * (length - target : ℕ)

theorem matchedAt_real (length : ℕ) :
    matchedAt (t.map Exact.real) target (.real bonus) (.real penalty) length =
      .real (earned t target bonus penalty length) := by
  have divisor : (1 : ℝ) + (length - target : ℕ) ≠ 0 := by positivity
  simp only [matchedAt, RewardTerms.map, Exact.nat_eq, Exact.real_add, Nat.cast_one,
    Exact.real_div divisor, Exact.real_mul, Exact.real_sub, earned]

variable {target bonus penalty}

theorem earned_antitone (bonus_nonneg : 0 ≤ bonus) (penalty_nonneg : 0 ≤ penalty) :
    Antitone (earned t target bonus penalty) := by
  intro length longer le
  have excess : ((length - target : ℕ) : ℝ) ≤ (longer - target : ℕ) := by
    exact_mod_cast Nat.sub_le_sub_right le target
  unfold earned
  gcongr

theorem earned_of_le {length : ℕ} (within : length ≤ target) :
    earned t target bonus penalty length = t.success + bonus := by
  simp [earned, Nat.sub_eq_zero_of_le within]

end
end Reward

namespace RewardDesign
open Json

section
variable {reward : String} {given : Members Json} {settings : Members Float}

theorem finite_eq_ok (accepted : finite reward given = .ok settings) :
    settings.names = given.names ∧ ∀ member ∈ settings, member.2.isFinite = true := by
  induction given generalizing settings with
  | nil =>
    cases mapM_nil_eq_ok.mp accepted
    exact ⟨rfl, nofun⟩
  | cons member rest ih =>
    obtain ⟨first, others, rfl, checked, accepted⟩ := mapM_cons_eq_ok.mp accepted
    obtain ⟨names, finite⟩ := ih accepted
    obtain ⟨name, value⟩ := member
    have checked : first.1 = name ∧ first.2.isFinite = true := by
      dsimp only at checked
      split at checked
      · split at checked
        · next finite =>
          cases checked
          exact ⟨rfl, finite⟩
        · cases checked
      · cases checked
    refine ⟨?_, List.forall_mem_cons.mpr ⟨checked.2, finite⟩⟩
    exact congrArg₂ List.cons checked.1 names

theorem setting_finite (accepted : finite reward given = .ok settings) {name : Text}
    (there : name ∈ given.names) : (setting settings name).isFinite = true := by
  obtain ⟨names, finite⟩ := finite_eq_ok accepted
  obtain ⟨value, inside, found⟩ := Members.exists_get? (names ▸ there)
  rw [setting, found, Option.getD_some]
  exact finite (name, value) inside

/-- Accepted terms stand for real numbers. -/
theorem terms_exact (accepted : finite reward given = .ok settings)
    (there : ∀ name ∈ correctnessDefaults.names, name ∈ given.names) :
    ∃ t : RewardTerms ℝ, (terms settings).map Exact.ofFloat = t.map Exact.real := by
  have exact (name : Text) (own : name ∈ correctnessDefaults.names) :
      ∃ v, Exact.ofFloat (setting settings name) = .real v :=
    Exact.ofFloat_finite (setting_finite accepted (there name own))
  obtain ⟨success, first⟩ := exact "successReward" (by decide)
  obtain ⟨stepPenalty, second⟩ := exact "stepPenalty" (by decide)
  obtain ⟨errorPenalty, third⟩ := exact "errorPenalty" (by decide)
  obtain ⟨partialCredit, fourth⟩ := exact "partialCreditWeight" (by decide)
  exact ⟨⟨success, stepPenalty, errorPenalty, partialCredit⟩,
    by simp only [terms, RewardTerms.map, first, second, third, fourth]⟩

end

/-- What efficient rewards are accepted with. -/
theorem efficiency_eq_ok {given : Members Json} {design : RewardDesign}
    (accepted : efficiency given = .ok design) :
    ∃ (target : ℕ) (bonus penalty : Float),
      design.reward = .efficiency (terms design.settings) target bonus penalty ∧
      finite "efficiency" (efficiencyDefaults.override given) = .ok design.settings ∧
      Number.toNat? (setting design.settings "targetLength") = some target ∧ 0 < target ∧
      bonus = setting design.settings "efficiencyBonus" ∧ ¬ bonus < 0 ∧
      penalty = setting design.settings "lengthPenalty" ∧ ¬ penalty < 0 := by
  obtain ⟨settings, finite, accepted⟩ := bind_eq_ok.mp accepted
  dsimp only at accepted
  split at accepted
  · cases accepted
  · cases accepted
  · next some found =>
    split at accepted
    · cases accepted
    · next notNegative =>
      obtain ⟨_, _, made⟩ := bind_eq_ok.mp accepted
      cases made
      simp only [Bool.or_eq_true, decide_eq_true_eq, not_or] at notNegative
      exact ⟨_, _, _, rfl, finite, found, Nat.pos_of_ne_zero some, rfl, notNegative.2, rfl,
        notNegative.1⟩

/-- Accepted efficient rewards stand for real ones with a bonus and a penalty that are not
negative. -/
theorem efficiency_exact {given : Members Json} {design : RewardDesign}
    (accepted : efficiency given = .ok design) :
    ∃ (terms : RewardTerms Float) (target : ℕ) (bonus penalty : Float) (t : RewardTerms ℝ)
      (b p : ℝ), design.reward = .efficiency terms target bonus penalty ∧
      Number.toNat? (setting design.settings "targetLength") = some target ∧
      design.reward.map Exact.ofFloat = .efficiency (t.map Exact.real) target (.real b) (.real p) ∧
      0 ≤ b ∧ 0 ≤ p := by
  obtain ⟨target, bonus, penalty, made, finite, read, _, ofBonus, bonus_nonneg, ofPenalty,
    penalty_nonneg⟩ := efficiency_eq_ok accepted
  have there {name : Text} (own : name ∈ efficiencyDefaults.names) :
      name ∈ (efficiencyDefaults.override given).names := Members.mem_names_override.mpr (.inl own)
  have own : ∀ name ∈ correctnessDefaults.names, name ∈ efficiencyDefaults.names := by decide
  obtain ⟨t, terms⟩ := terms_exact finite fun name inside => there (own name inside)
  obtain ⟨b, bonusWorth⟩ := worth_of_finite
    (ofBonus ▸ setting_finite finite (there (by decide))) bonus_nonneg
  obtain ⟨p, penaltyWorth⟩ := worth_of_finite
    (ofPenalty ▸ setting_finite finite (there (by decide))) penalty_nonneg
  refine ⟨_, target, bonus, penalty, t, b, p, made, read, ?_, mod_cast bonusWorth.nonneg,
    mod_cast penaltyWorth.nonneg⟩
  rw [made, Reward.map, terms, Exact.ofFloat_worth bonusWorth, Exact.ofFloat_worth penaltyWorth]

end RewardDesign
end ProgramGym
