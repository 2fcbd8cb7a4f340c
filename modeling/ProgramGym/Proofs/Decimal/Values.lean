import Mathlib
import ProgramGym.Proofs.Selecting

/-! What numbers are worth. A number that is finite and not negative stands for a rational, and
comparisons and maxima of such numbers are those of the rationals. Sums, products and quotients are
rounded, but rounding passes no number of the format, and whole numbers stay whole. Main statements:
a factor of at most one makes no number larger, and one more than a count is a count. -/
namespace ProgramGym
namespace Binary64
open Float.Model Float.Model.UnpackedFloat

section
variable {em : ExtendedMantissa} {q x : ℚ} {m mantissa n : Nat} {e exponent : Int}
  {accuracy : Accuracy}

/-- A mantissa that was rounded stands as it is, unless it got a digit too many. -/
theorem roundWithAccuracy_settle {target : Int} {c : Nat} (bound : Canonical m e)
    (first : shiftToTargetExponent Format.binary64 mantissa exponent accuracy = (em, target))
    (rounds : em.roundedMantissa = c) (high : c ≤ 2 * fractions)
    (full : fractions ≤ c ∨ target = -1074) (least : -1074 ≤ target) (coarser : target ≤ e)
    (small : (c : ℚ) * 2 ^ target ≤ m * 2 ^ e) (s : Sign) :
    roundWithAccuracy Format.binary64 s mantissa exponent accuracy = .zero s ∨
    ∃ (n : Nat) (t : Int) (canonical : Canonical n t),
      roundWithAccuracy Format.binary64 s mantissa exponent accuracy =
        .finite s n t canonical.pos ∧ (n : ℚ) * 2 ^ t ≤ m * 2 ^ e := by
  rcases Nat.eq_zero_or_pos c with rfl | pos
  · exact .inl (roundWithAccuracy_zero s first rounds least)
  right
  rcases high.lt_or_eq with short | rfl
  · have canonical : Canonical c target := ⟨pos, short, least, coarser.trans bound.most, full⟩
    refine ⟨c, target, canonical, roundWithAccuracy_eq s c first rounds ?_ pos, small⟩
    rw [shift_none canonical.placed.targetExponent.le]
    exact ⟨rfl, rfl⟩
  · have double : ((2 * fractions : Nat) : ℚ) * 2 ^ target = fractions * 2 ^ (target + 1) := by
      rw [zpow_add_one₀ (by norm_num)]
      push_cast
      ring
    have finer : target < e := by
      have high : (m : ℚ) < (2 * fractions : Nat) := by exact_mod_cast bound.high
      have less := small.trans_lt (mul_lt_mul_of_pos_right high (by positivity))
      have less := lt_of_mul_lt_mul_left less (Nat.cast_nonneg _)
      exact (zpow_lt_zpow_iff_right₀ (by norm_num)).mp less
    have most := bound.most
    have canonical : Canonical fractions (target + 1) :=
      ⟨by decide, by decide, by omega, by omega, .inl le_rfl⟩
    refine ⟨fractions, target + 1, canonical, ?_, double ▸ small⟩
    refine roundWithAccuracy_eq s _ first rounds ?_ canonical.pos
    have digits : Format.binary64.targetExponent (totalExponent (2 * fractions) target) =
        target + 1 := by
      rw [targetExponent_eq, totalExponent, show (2 * fractions).log2 = 53 by decide +kernel]
      omega
    rw [shift_eq digits (by omega), show (target + 1 - target).toNat = 1 by omega]
    exact ⟨rfl, rfl⟩

section
variable (represents : Represents (ExtendedMantissa.ofMantissaAndAccuracy mantissa accuracy) x)
include represents

theorem lt_two_pow_totalExponent : x * 2 ^ exponent < 2 ^ totalExponent mantissa exponent := by
  by_contra above
  exact lt_irrefl _ (lt_totalExponent represents (not_lt.mp above))

theorem two_pow_totalExponent_le (fine : fractions ≤ mantissa ∨ exponent ≤ -1074)
    (least : -1073 < totalExponent mantissa exponent) :
    2 ^ (totalExponent mantissa exponent - 1) ≤ x * 2 ^ exponent := by
  by_contra below
  have := totalExponent_le represents fine (by omega) (not_le.mp below)
  omega

/-- The digits that are kept of a quotient are no more than 53, and as many unless they end at the
least place. -/
theorem shifted_digits (fine : fractions ≤ mantissa ∨ exponent ≤ -1074) {target : Int}
    (chosen : Format.binary64.targetExponent (totalExponent mantissa exponent) = target)
    (scaled : q * 2 ^ target = x * 2 ^ exponent) :
    q ≤ (2 * fractions : Nat) ∧ (target = -1074 ∨ (fractions : ℚ) ≤ q) := by
  have place : (0 : ℚ) < 2 ^ target := by positivity
  rw [targetExponent_eq] at chosen
  constructor
  · have bound : totalExponent mantissa exponent ≤ 53 + target := by omega
    have below : q * 2 ^ target ≤ 2 ^ (53 : Int) * 2 ^ target := by
      rw [scaled, ← zpow_add₀ (by norm_num)]
      exact (lt_two_pow_totalExponent represents).le.trans
        (zpow_le_zpow_right₀ (by norm_num) bound)
    refine (le_of_mul_le_mul_right below place).trans ?_
    norm_num [fractions]
  · by_cases bottom : target = -1074
    · exact .inl bottom
    right
    have digits : totalExponent mantissa exponent - 1 = 52 + target := by omega
    have above := two_pow_totalExponent_le represents fine (by omega)
    rw [digits, zpow_add₀ (by norm_num), ← scaled] at above
    refine le_trans ?_ (le_of_mul_le_mul_right above place)
    norm_num [fractions]

/-- Rounding does not pass a number of the format. What is not rounded to zero is one again. -/
theorem roundWithAccuracy_le (bound : Canonical m e)
    (fine : fractions ≤ mantissa ∨ exponent ≤ -1074)
    (below : x * 2 ^ exponent ≤ m * 2 ^ e) (s : Sign) :
    roundWithAccuracy Format.binary64 s mantissa exponent accuracy = .zero s ∨
    ∃ (n : Nat) (t : Int) (canonical : Canonical n t),
      roundWithAccuracy Format.binary64 s mantissa exponent accuracy =
        .finite s n t canonical.pos ∧ (n : ℚ) * 2 ^ t ≤ m * 2 ^ e := by
  obtain ⟨target, chosen⟩ : ∃ target,
    Format.binary64.targetExponent (totalExponent mantissa exponent) = target := ⟨_, rfl⟩
  have reachable : exponent ≤ target := chosen ▸ target_reachable fine
  have shift : shiftToTargetExponent Format.binary64 mantissa exponent accuracy = _ :=
    shift_eq chosen reachable
  have scaled := shifted_value (x := x) reachable
  obtain ⟨few, many⟩ := shifted_digits represents fine chosen scaled
  have rounded := represents.shiftRight (target - exponent).toNat
  generalize ExtendedMantissa.ofMantissaAndAccuracy mantissa accuracy >>>
    (target - exponent).toNat = em at shift rounded
  generalize x / 2 ^ (target - exponent).toNat = q at scaled few many rounded
  have least := bound.least
  have place : (0 : ℚ) < 2 ^ target := by positivity
  have coarser : target ≤ e := by
    have high : (m : ℚ) < 2 ^ (53 : Int) := by
      norm_num
      exact_mod_cast bound.high
    have power : (m : ℚ) * 2 ^ e < 2 ^ (e + 53) := by
      rw [add_comm, zpow_add₀ (by norm_num)]
      exact mul_lt_mul_of_pos_right high (by positivity)
    have := totalExponent_le represents fine (by omega) (below.trans_lt power)
    rw [targetExponent_eq] at chosen
    omega
  -- the bound is a whole number of places, and so no rounding passes it
  have whole : ((m * 2 ^ (e - target).toNat : Nat) : ℚ) * 2 ^ target = m * 2 ^ e := by
    have exponent : (((e - target).toNat : Nat) : Int) = e - target := by omega
    push_cast
    rw [← zpow_natCast, exponent, mul_assoc, ← zpow_add₀ (by norm_num), sub_add_cancel]
  rw [← scaled, ← whole] at below
  have small := rounded.roundedMantissa_le (le_of_mul_le_mul_right below place)
  have small : (em.roundedMantissa : ℚ) * 2 ^ target ≤ m * 2 ^ e := by
    rw [← whole]
    exact mul_le_mul_of_nonneg_right (by exact_mod_cast small) place.le
  have full : fractions ≤ em.roundedMantissa ∨ target = -1074 := by
    refine many.symm.imp_left fun many => ?_
    have floor : fractions < em.mantissa + 1 := by
      exact_mod_cast many.trans_lt rounded.floor.2
    exact (Nat.lt_succ_iff.mp floor).trans (mantissa_le_roundedMantissa em)
  rw [targetExponent_eq] at chosen
  exact roundWithAccuracy_settle bound shift rfl (rounded.roundedMantissa_le few) full
    (by omega) coarser small s

end
end

/-! Numbers that are finite and not negative, by what they are worth. -/

/-- A finite number that is not negative is worth a rational. Both zeros are worth the same. -/
inductive Worth (x : Float) : ℚ → Prop where
  | zero (s : Sign) (unpacked : x.toModel.unpack = .zero s) : Worth x 0
  | finite {m : Nat} {e : Int} (canonical : Canonical m e)
      (unpacked : x.toModel.unpack = .finite .positive m e canonical.pos) : Worth x (m * 2 ^ e)

section
variable {x y : Float} {v w : ℚ} {m₁ m₂ : Nat} {e₁ e₂ : Int}

theorem Worth.nonneg (worth : Worth x v) : 0 ≤ v := by
  cases worth with
  | zero => exact le_rfl
  | finite => positivity

theorem worth_of_toNat? {n : Nat} (whole : Number.toNat? x = some n) : Worth x n := by
  rcases Nat.eq_zero_or_pos n with rfl | pos
  · exact_mod_cast Worth.zero .positive (unpack_of_toNat?_zero whole)
  · obtain ⟨m, e, canonical, unpacked, value⟩ := unpack_of_toNat? whole pos
    exact value ▸ .finite canonical unpacked

theorem worth_zero : Worth 0 0 := by exact_mod_cast worth_of_toNat? toNat?_ofNat_zero

theorem worth_one : Worth 1 1 := by
  have whole : Number.toNat? 1 = some 1 := toNat?_ofNat_le (n := 1) (by decide)
  exact_mod_cast worth_of_toNat? whole

/-- The least number that has all its digits. -/
def leastNormal : Float := 2.2250738585072014e-308

theorem worth_leastNormal : Worth leastNormal (2 ^ (-1022 : Int)) := by
  have pattern : ofFloat leastNormal = .finite false fractions (-1074) := by decide +kernel
  obtain ⟨canonical, s, positive, unpacked⟩ := unpack_of_ofFloat pattern (by decide)
  have value : ((fractions : Nat) : ℚ) * 2 ^ (-1074 : Int) = 2 ^ (-1022 : Int) := by
    have digits : ((fractions : Nat) : ℚ) = 2 ^ (52 : Int) := by norm_num [fractions]
    rw [digits, ← zpow_add₀ (by norm_num)]
    norm_num
  cases s with
  | negative => cases positive
  | positive => exact value ▸ .finite canonical unpacked

theorem Canonical.compare_eq (first : Canonical m₁ e₁) (second : Canonical m₂ e₂) :
    (compare e₁ e₂).then (compare m₁ m₂) = compare ((m₁ : ℚ) * 2 ^ e₁) (m₂ * 2 ^ e₂) := by
  rcases lt_trichotomy e₁ e₂ with below | rfl | above
  · rw [Int.compare_eq_lt.mpr below, compare_lt_iff_lt.mpr (first.lt_of_exponent second below)]
    rfl
  · have place : (0 : ℚ) < 2 ^ e₁ := by positivity
    rw [Int.compare_eq_eq.mpr rfl]
    rcases lt_trichotomy m₁ m₂ with below | rfl | above
    · have below' : (m₁ : ℚ) < m₂ := by exact_mod_cast below
      rw [Nat.compare_eq_lt.mpr below, compare_lt_iff_lt.mpr (mul_lt_mul_of_pos_right below' place)]
      rfl
    · rw [Nat.compare_eq_eq.mpr rfl, compare_eq_iff_eq.mpr rfl]
      rfl
    · have above' : (m₂ : ℚ) < m₁ := by exact_mod_cast above
      rw [Nat.compare_eq_gt.mpr above, compare_gt_iff_gt.mpr (mul_lt_mul_of_pos_right above' place)]
      rfl
  · rw [Int.compare_eq_gt.mpr above, compare_gt_iff_gt.mpr (second.lt_of_exponent first above)]
    rfl

/-- Numbers compare as what they are worth. -/
theorem Worth.compare_eq (first : Worth x v) (second : Worth y w) :
    x.toModel.unpack.compare y.toModel.unpack = some (compare v w) := by
  have positive {m : Nat} {e : Int} (canonical : Canonical m e) : (0 : ℚ) < m * 2 ^ e := by
    have : (0 : ℚ) < m := by exact_mod_cast canonical.pos
    positivity
  cases first with
  | zero s unpacked₁ =>
    cases second with
    | zero t unpacked₂ =>
      rw [unpacked₁, unpacked₂, compare_eq_iff_eq.mpr rfl]
      rfl
    | finite canonical unpacked₂ =>
      rw [unpacked₁, unpacked₂, compare_lt_iff_lt.mpr (positive canonical)]
      rfl
  | finite canonical₁ unpacked₁ =>
    cases second with
    | zero t unpacked₂ =>
      rw [unpacked₁, unpacked₂, compare_gt_iff_gt.mpr (positive canonical₁)]
      rfl
    | finite canonical₂ unpacked₂ =>
      rw [unpacked₁, unpacked₂, ← canonical₁.compare_eq canonical₂]
      rfl

theorem Worth.lt_iff (first : Worth x v) (second : Worth y w) : x < y ↔ v < w := by
  rw [lt_iff_compare, first.compare_eq second, Option.some_inj, compare_lt_iff_lt]

theorem Worth.le_iff (first : Worth x v) (second : Worth y w) : x ≤ y ↔ v ≤ w := by
  rw [le_iff_compare, first.compare_eq second, Option.any_some, Ordering.isLE_iff_ne_gt]
  exact (not_congr compare_gt_iff_gt).trans not_lt

theorem Worth.number (worth : Worth x v) : x.isNaN = false := by
  change x.toModel.unpack.isNaN = false
  cases worth with
  | zero _ unpacked | finite _ unpacked =>
    rw [unpacked]
    rfl

/-- What is finite and not below zero is worth something. -/
theorem worth_of_finite (finite : x.isFinite = true) (above : ¬ x < 0) : ∃ v, Worth x v := by
  have rounded := rounded_unpack x.toModel.toBits.toBitVec
  change Rounded x.toModel.unpack at rounded
  change x.toModel.unpack.isFinite = true at finite
  rw [lt_iff_compare, unpack_zero] at above
  cases unpacked : x.toModel.unpack with
  | notANumber | infinity s =>
    rw [unpacked] at finite
    cases finite
  | zero s => exact ⟨0, .zero s unpacked⟩
  | finite s m e pos =>
    rw [unpacked] at above rounded
    cases s with
    | negative => exact absurd rfl above
    | positive => exact ⟨_, .finite rounded unpacked⟩

/-- What is not less than a number that is worth something is not below zero either. -/
theorem Worth.not_neg (worth : Worth x v) (le : x ≤ y) : ¬ y < 0 := by
  rw [le_iff_compare] at le
  rw [lt_iff_compare, unpack_zero]
  cases worth with
  | zero _ unpacked | finite _ unpacked =>
    rw [unpacked] at le
    generalize y.toModel.unpack = u at le
    cases u with
    | notANumber | zero s => nofun
    | infinity s | finite s =>
      cases s with
      | negative => cases le
      | positive => nofun

/-- A number in the unit interval, the negative zero among them. -/
def Probability (x : Float) : Prop := 0 ≤ x ∧ x ≤ 1

theorem Worth.probability (worth : Worth x v) (small : v ≤ 1) : Probability x :=
  ⟨(worth_zero.le_iff worth).mpr worth.nonneg, (worth.le_iff worth_one).mpr small⟩

theorem Probability.worth (probability : Probability x) : ∃ v ≤ 1, Worth x v := by
  obtain ⟨low, high⟩ := probability
  have positive := Source.nonNegative_of_le low
  have rounded := rounded_unpack x.toModel.toBits.toBitVec
  change Rounded x.toModel.unpack at rounded
  obtain ⟨v, worth⟩ : ∃ v, Worth x v := by
    cases unpacked : x.toModel.unpack with
    | notANumber =>
      rw [unpacked] at positive
      exact positive.elim
    | infinity s =>
      obtain ⟨m, e, canonical, one, _⟩ :=
        unpack_of_toNat? (toNat?_ofNat_le (n := 1) (by decide)) Nat.one_pos
      change (1 : Float).toModel.unpack = _ at one
      rw [unpacked] at positive
      rw [le_iff_compare, unpacked, one] at high
      cases s with
      | negative => exact positive.elim
      | positive => cases high
    | zero s => exact ⟨0, .zero s unpacked⟩
    | finite s m e pos =>
      rw [unpacked] at positive rounded
      cases s with
      | negative => exact positive.elim
      | positive => exact ⟨_, .finite rounded unpacked⟩
  exact ⟨v, (worth.le_iff worth_one).mp high, worth⟩

/-- What is rounded from digits worth at most a number of the format is worth no more than that. -/
theorem worth_roundWithAccuracy {m mantissa : Nat} {e exponent : Int} {accuracy : Accuracy} {q : ℚ}
    (unpacked : x.toModel.unpack = unpack Format.binary64 (UnpackedFloat.pack Format.binary64
      (roundWithAccuracy Format.binary64 .positive mantissa exponent accuracy)))
    (represents : Represents (ExtendedMantissa.ofMantissaAndAccuracy mantissa accuracy) q)
    (fine : fractions ≤ mantissa ∨ exponent ≤ -1074) (bound : Canonical m e)
    (below : q * 2 ^ exponent ≤ m * 2 ^ e) : ∃ u ≤ (m * 2 ^ e : ℚ), Worth x u := by
  rcases roundWithAccuracy_le represents bound fine below .positive with
    zero | ⟨n, t, canonical, rounds, small⟩
  · rw [zero, unpack_pack (u := .zero _) trivial] at unpacked
    exact ⟨0, by positivity, .zero .positive unpacked⟩
  · rw [rounds, unpack_pack (u := .finite _ _ _ _) canonical] at unpacked
    exact ⟨_, small, .finite canonical unpacked⟩

/-- A product is packed as the product of what the factors are unpacked to. -/
theorem unpack_product (x y : Float) : (x * y).toModel.unpack =
    unpack Format.binary64 (UnpackedFloat.pack Format.binary64
      (UnpackedFloat.mul Format.binary64 x.toModel.unpack y.toModel.unpack)) := rfl

theorem Worth.zero_mul {s : Sign} (unpacked : x.toModel.unpack = .zero s) (second : Worth y w) :
    Worth (x * y) 0 := by
  have product := unpack_product x y
  rw [unpacked] at product
  cases second with
  | zero t here =>
    rw [here] at product
    exact .zero (s * t) (product.trans (unpack_pack (u := .zero _) trivial))
  | finite _ here =>
    rw [here] at product
    exact .zero (s * Sign.positive) (product.trans (unpack_pack (u := .zero _) trivial))

/-- A product that is at most a number of the format is rounded to no more than that. -/
theorem Worth.mul_le {m : Nat} {e : Int} (first : Worth x v) (second : Worth y w)
    (bound : Canonical m e) (below : v * w ≤ m * 2 ^ e) :
    ∃ u ≤ (m * 2 ^ e : ℚ), Worth (x * y) u := by
  cases first with
  | zero s unpacked₁ => exact ⟨0, by positivity, second.zero_mul unpacked₁⟩
  | @finite m₁ e₁ canonical₁ unpacked₁ =>
    have product := unpack_product x y
    rw [unpacked₁] at product
    cases second with
    | zero t unpacked₂ =>
      rw [unpacked₂] at product
      exact ⟨0, by positivity,
        .zero (Sign.positive * t) (product.trans (unpack_pack (u := .zero _) trivial))⟩
    | @finite m₂ e₂ canonical₂ unpacked₂ =>
      rw [unpacked₂] at product
      have fine : fractions ≤ m₁ * m₂ ∨ e₁ + e₂ ≤ -1074 := by
        rcases canonical₁.full with full | bottom₁
        · exact .inl (full.trans (Nat.le_mul_of_pos_right m₁ canonical₂.pos))
        rcases canonical₂.full with full | bottom₂
        · exact .inl (full.trans (Nat.le_mul_of_pos_left m₂ canonical₁.pos))
        · exact .inr (by omega)
      refine worth_roundWithAccuracy product (represents_exact (m₁ * m₂)) fine bound ?_
      rwa [zpow_add₀ (by norm_num), Nat.cast_mul, mul_mul_mul_comm]

/-- A factor of at most one makes no number larger. -/
theorem Worth.mul (first : Worth x v) (second : Worth y w) (small : w ≤ 1) :
    ∃ u ≤ v, Worth (x * y) u := by
  have less : v * w ≤ v := mul_le_of_le_one_right first.nonneg small
  cases first with
  | zero s unpacked => exact ⟨0, le_rfl, second.zero_mul unpacked⟩
  | finite canonical unpacked =>
    exact (Worth.finite canonical unpacked).mul_le second canonical less

/-- One less in the last place is a number of the format too. -/
theorem Canonical.pred {m : Nat} {e : Int} (canonical : Canonical m e) (more : 1 < m) :
    ∃ (n : Nat) (t : Int), Canonical n t ∧ (n * 2 ^ t : ℚ) = (m - 1 : Nat) * 2 ^ e := by
  obtain ⟨pos, high, least, most, full⟩ := canonical
  by_cases stays : fractions ≤ m - 1 ∨ e = -1074
  · exact ⟨m - 1, e, ⟨by omega, by omega, least, most, stays⟩, rfl⟩
  · have last : m = fractions := by omega
    refine ⟨2 * (m - 1), e - 1, ⟨by omega, by omega, by omega, by omega, .inl ?_⟩, ?_⟩
    · rw [last]
      decide
    · rw [zpow_sub_one₀ (by norm_num)]
      push_cast
      ring

/-- A factor that is a place below one makes a number smaller, unless the number is itself less than
all that have their digits in full. -/
theorem Worth.mul_lt (first : Worth x v) (second : Worth y w) (small : v ≤ 1 - (1 / 2) ^ 52)
    (normal : 2 ^ (-1022 : Int) ≤ w) : ∃ u < w, Worth (x * y) u := by
  cases second with
  | zero => exact absurd normal (by norm_num)
  | @finite m e canonical unpacked =>
    have full : fractions ≤ m := by
      rcases canonical.full with full | bottom
      · exact full
      · have least : (2 : ℚ) ^ (-1022 : Int) = 2 ^ (52 : Int) * 2 ^ (-1074 : Int) := by
          rw [← zpow_add₀ (by norm_num)]
          norm_num
        rw [bottom, least] at normal
        exact_mod_cast le_of_mul_le_mul_right normal (by positivity)
    obtain ⟨n, t, bound, value⟩ := canonical.pred (lt_of_lt_of_le (by decide) full)
    have place : (0 : ℚ) < 2 ^ e := by positivity
    have digits : (2 : ℚ) ^ 52 ≤ m := by exact_mod_cast full
    have less : ((m - 1 : Nat) : ℚ) = m - 1 := by
      rw [Nat.cast_sub canonical.pos, Nat.cast_one]
    have below : v * (m * 2 ^ e) ≤ n * 2 ^ t := by
      rw [value, less, ← mul_assoc]
      refine mul_le_mul_of_nonneg_right ?_ place.le
      norm_num at small
      nlinarith
    obtain ⟨u, low, worth⟩ := first.mul_le (.finite canonical unpacked) bound below
    refine ⟨u, low.trans_lt ?_, worth⟩
    rw [value, less]
    exact mul_lt_mul_of_pos_right (by linarith) place

/-- A quotient that is at most a number of the format is rounded to no more than that. -/
theorem Worth.div {m : Nat} {e : Int} (first : Worth x v) (second : Worth y w) (divisor : 0 < w)
    (bound : Canonical m e) (below : v / w ≤ m * 2 ^ e) :
    ∃ u ≤ (m * 2 ^ e : ℚ), Worth (x / y) u := by
  have quotient : (x / y).toModel.unpack = unpack Format.binary64 (UnpackedFloat.pack
      Format.binary64 (UnpackedFloat.div Format.binary64 x.toModel.unpack y.toModel.unpack)) := rfl
  cases second with
  | zero => exact absurd divisor (lt_irrefl _)
  | @finite m₂ e₂ canonical₂ unpacked₂ =>
    cases first with
    | zero s unpacked₁ =>
      rw [unpacked₁, unpacked₂] at quotient
      exact ⟨0, by positivity,
        .zero (s / Sign.positive) (quotient.trans (unpack_pack (u := .zero _) trivial))⟩
    | @finite m₁ e₁ canonical₁ unpacked₁ =>
      obtain ⟨_, _, _, _, represents, fine, value, divided⟩ :=
        div_represents .positive .positive e₁ e₂ canonical₁.pos canonical₂.pos
      rw [unpacked₁, unpacked₂, divided] at quotient
      exact worth_roundWithAccuracy quotient represents fine bound (value ▸ below)

/-- Counts of so many digits that differ are not divided to more than one less the last of them. -/
theorem worth_quotient {m n k : Nat} (some : 1 ≤ k) (few : k ≤ 53) (small : n ≤ 2 ^ k)
    (less : m < n) : ∃ u ≤ (1 - (1 / 2) ^ k : ℚ), Worth (Float.ofNat m / Float.ofNat n) u := by
  have enough : n ≤ 2 ^ 53 := small.trans (Nat.pow_le_pow_right (by decide) few)
  have divisor : (0 : ℚ) < n := by exact_mod_cast less.pos
  have lower : 2 ^ (53 - k) ≤ 2 ^ 52 := Nat.pow_le_pow_right (by decide) (by omega)
  have bound : Canonical (2 ^ 53 - 2 ^ (53 - k)) (-53) :=
    ⟨by omega, by have := Nat.two_pow_pos (53 - k); simp only [fractions]; omega, by decide,
      by decide, .inl (by simp only [fractions]; omega)⟩
  have value : ((2 ^ 53 - 2 ^ (53 - k) : Nat) : ℚ) * 2 ^ (-53 : Int) = 1 - (1 / 2) ^ k := by
    have last : (2 : ℚ) ^ (53 - k) = 2 ^ 53 * (1 / 2) ^ k := by
      rw [← Nat.sub_add_cancel few, pow_add, Nat.add_sub_cancel, mul_assoc, ← mul_pow]
      norm_num
    rw [Nat.cast_sub (by omega), Nat.cast_pow, Nat.cast_pow, Nat.cast_ofNat, last, zpow_neg]
    norm_num
    ring
  have below : (m / n : ℚ) ≤ 1 - (1 / 2) ^ k := by
    have count : (m : ℚ) + 1 ≤ n := by exact_mod_cast less
    have size : (n : ℚ) ≤ 2 ^ k := by exact_mod_cast small
    calc (m / n : ℚ) ≤ 1 - 1 / n := by
          rw [div_le_iff₀ divisor, sub_mul, one_div_mul_cancel divisor.ne']
          linarith
      _ ≤ 1 - (1 / 2) ^ k := by
          rw [div_pow, one_pow]
          exact sub_le_sub_left (one_div_le_one_div_of_le divisor size) 1
  rw [← value] at below ⊢
  exact (worth_of_toNat? (toNat?_ofNat_le (less.le.trans enough))).div
    (worth_of_toNat? (toNat?_ofNat_le enough)) divisor bound below

/-- The greater of two numbers is worth the greater of the two values. -/
theorem Worth.max (first : Worth x v) (second : Worth y w) :
    Worth (Number.max x y) (max v w) := by
  unfold Number.max
  rw [first.number, second.number]
  simp only [Bool.or_self, Bool.false_eq_true, if_false, first.lt_iff second, second.lt_iff first]
  split
  · next less => rwa [max_eq_right less.le]
  split
  · next more => rwa [max_eq_left more.le]
  · next notLess notMore =>
    have same : v = w := le_antisymm (not_lt.mp notMore) (not_lt.mp notLess)
    subst same
    rw [max_self]
    split <;> assumption

/-- A sum is packed as the sum of what the summands are unpacked to. -/
theorem unpack_sum {u : UnpackedFloat}
    (sum : UnpackedFloat.add Format.binary64 x.toModel.unpack y.toModel.unpack = u) :
    (x + y).toModel.unpack =
      unpack Format.binary64 (UnpackedFloat.pack Format.binary64 u) := by
  rw [← sum]
  rfl

theorem unpack_add {u : UnpackedFloat} (rounded : Rounded u)
    (sum : UnpackedFloat.add Format.binary64 x.toModel.unpack y.toModel.unpack = u) :
    (x + y).toModel.unpack = u :=
  (unpack_sum sum).trans (unpack_pack rounded)

theorem add_nearest {m : Nat} {e : Int} (placed : Placed m e) (pos₁ : 0 < m₁) (pos₂ : 0 < m₂)
    (nearest : Nearest m e (m₁ * 2 ^ e₁ + m₂ * 2 ^ e₂)) :
    UnpackedFloat.add Format.binary64 (.finite .positive m₁ e₁ pos₁)
      (.finite .positive m₂ e₂ pos₂) = .finite .positive m e placed.pos := by
  simp only [UnpackedFloat.add, decreaseExponent, Sign.apply]
  have first := lowered_value m₁ (min_le_left e₁ e₂)
  have second := lowered_value m₂ (min_le_right e₁ e₂)
  have some : 0 < m₁ <<< (e₁ - min e₁ e₂).toNat := by
    rw [Nat.shiftLeft_eq]
    positivity
  generalize min e₁ e₂ = least at first second some
  generalize m₁ <<< (e₁ - least).toNat = a at first some
  generalize m₂ <<< (e₂ - least).toNat = b at second
  unfold UnpackedFloat.normalize
  rw [show compare ((a : Int) + b) 0 = .gt from Int.compare_eq_gt.mpr (by omega)]
  refine round_nearest placed .positive (by omega) ?_
  rw [show ((a : Int) + b).toNat = a + b by omega, Nat.cast_add, add_mul, first, second]
  exact nearest

/-- Where counts are no longer one apart, one more than a count is rounded to one of its
neighbours. -/
theorem nearest_add_one {m : Nat} {e : Int} (canonical : Canonical m e) (coarse : 1 ≤ e) :
    ∃ m' e', Canonical m' e' ∧ 0 ≤ e' ∧ Nearest m' e' (m * 2 ^ e + 1) := by
  have full : fractions ≤ m := canonical.full.resolve_right (by omega)
  have place : (2 : ℚ) ^ e = 2 * 2 ^ (e - 1) := by
    rw [zpow_sub_one₀ (by norm_num)]
    ring
  have wide : (1 : ℚ) ≤ 2 ^ (e - 1) := one_le_zpow₀ (by norm_num) (by omega)
  by_cases stays : m % 2 = 1 → 2 ≤ e
  · refine ⟨m, e, canonical, by omega, ?_, ?_, fun odd => ⟨?_, ?_⟩, fun _ _ => ?_⟩
    · nlinarith
    · nlinarith
    · nlinarith
    · have wider : (2 : ℚ) ≤ 2 ^ (e - 1) := by
        calc (2 : ℚ) = 2 ^ (1 : Int) := by norm_num
          _ ≤ 2 ^ (e - 1) := zpow_le_zpow_right₀ (by norm_num) (by have := stays odd; omega)
      nlinarith
    · nlinarith
  · -- halfway between two counts, of which the second one is even
    obtain ⟨odd, fine⟩ := Classical.not_imp.mp stays
    have one : e = 1 := by omega
    subst one
    have high := canonical.high
    rcases Nat.lt_or_ge (m + 1) (2 * fractions) with short | long
    · refine ⟨m + 1, 1, ⟨by omega, short, by omega, by omega, .inl (by omega)⟩, by omega, ?_⟩
      refine ⟨?_, ?_, fun odd' => by omega, fun same => by omega⟩ <;> push_cast <;> linarith
    · have last : m = 2 * fractions - 1 := by omega
      subst last
      refine ⟨fractions, 2, ⟨by decide, by decide, by omega, by omega, .inl le_rfl⟩, by omega, ?_⟩
      constructor <;> norm_num [fractions]

/-- One more than a count is one, even where it cannot be told from it. -/
theorem toNat?_add_one {n : Nat} (whole : Number.toNat? x = some n) (large : 2 ^ 53 ≤ n) :
    ∃ k, Number.toNat? (x + Float.ofNat 1) = some k := by
  obtain ⟨m₁, e₁, canonical₁, unpacked₁, value₁⟩ := unpack_of_toNat? whole (by omega)
  obtain ⟨m₂, e₂, canonical₂, unpacked₂, value₂⟩ :=
    unpack_of_toNat? (toNat?_ofNat_le (n := 1) (by decide)) Nat.one_pos
  have coarse : 1 ≤ e₁ := by
    by_contra fine
    have small : (2 : ℚ) ^ e₁ ≤ 1 := zpow_le_one_of_nonpos₀ (by norm_num) (by omega)
    have high : (m₁ : ℚ) < 2 ^ 53 := by exact_mod_cast canonical₁.high
    have large : (2 : ℚ) ^ 53 ≤ n := by exact_mod_cast large
    have bounded : (m₁ : ℚ) * 2 ^ e₁ ≤ m₁ := mul_le_of_le_one_right (Nat.cast_nonneg _) small
    linarith
  obtain ⟨m, e, canonical, whole, nearest⟩ := nearest_add_one canonical₁ coarse
  rw [← Nat.cast_one, value₂] at nearest
  have sum := add_nearest canonical.placed canonical₁.pos canonical₂.pos nearest
  rw [← unpacked₁, ← unpacked₂] at sum
  have unpacked : (x + Float.ofNat 1).toModel.unpack = .finite .positive m e canonical.pos :=
    unpack_add (u := .finite _ _ _ _) canonical sum
  refine ⟨m * 2 ^ e.toNat, toNat?_of_unpack unpacked ?_⟩
  push_cast
  rw [← zpow_natCast, Int.toNat_of_nonneg whole]

/-- The zeros of both signs. -/
theorem unpack_of_beq_zero (zero : (x == Float.ofNat 0) = true) :
    ∃ s, x.toModel.unpack = .zero s := by
  rw [beq_iff_compare, unpack_of_toNat?_zero toNat?_ofNat_zero] at zero
  generalize x.toModel.unpack = u at zero
  cases u with
  | notANumber => cases zero
  | infinity s | finite s => cases s <;> cases zero
  | zero s => exact ⟨s, rfl⟩

theorem toNat?_zero_add_one (zero : (x == Float.ofNat 0) = true) :
    Number.toNat? (x + Float.ofNat 1) = some 1 := by
  obtain ⟨s, unpacked⟩ := unpack_of_beq_zero zero
  obtain ⟨m, e, canonical, one, value⟩ :=
    unpack_of_toNat? (toNat?_ofNat_le (n := 1) (by decide)) Nat.one_pos
  suffices sum : (x + Float.ofNat 1).toModel.unpack = .finite .positive m e canonical.pos from
    toNat?_of_unpack sum value
  refine unpack_add (u := .finite _ _ _ _) canonical ?_
  rw [one, unpacked]
  rfl

end
end Binary64
end ProgramGym
