import Mathlib
import ProgramGym.Linear
import ProgramGym.Proofs.Decimal.Counting

/-! Whole numbers selected by a draw. Counts up to 2^53 are compared and counted down exactly, and
a draw between zero and one times such a count is rounded, but stays a number that is not negative.
Main statement: whatever rounding does to the product, the number that the draw selects is a whole
one below the count. -/
namespace ProgramGym
namespace Binary64
open Float.Model Float.Model.UnpackedFloat

section
variable {x y : Float} {m m₁ m₂ n k : Nat} {e e₁ e₂ : Int}

theorem lt_iff_compare (x y : Float) :
    x < y ↔ x.toModel.unpack.compare y.toModel.unpack = some .lt := by
  change decide (x.toModel < y.toModel) = true ↔ _
  rw [decide_eq_true_iff]
  exact beq_iff_eq

theorem le_iff_compare (x y : Float) :
    x ≤ y ↔ (x.toModel.unpack.compare y.toModel.unpack).any (·.isLE) = true := by
  change decide (x.toModel ≤ y.toModel) = true ↔ _
  rw [decide_eq_true_iff]
  exact Iff.rfl

theorem beq_iff_compare (x y : Float) :
    (x == y) = true ↔ x.toModel.unpack.compare y.toModel.unpack = some .eq := by
  change (x.toModel.unpack.compare y.toModel.unpack == some .eq) = true ↔ _
  exact beq_iff_eq

theorem toNat?_of_unpack {pos : 0 < m} (unpacked : x.toModel.unpack = .finite .positive m e pos)
    (value : (n : ℚ) = m * 2 ^ e) : Number.toNat? x = some n := by
  rw [Number.toNat?, ofFloat_eq, unpacked]
  exact toNat?_eq_some.mpr value

theorem unpack_of_toNat?_zero (whole : Number.toNat? x = some 0) :
    x.toModel.unpack = .zero .positive := by
  unfold Number.toNat? at whole
  rw [ofFloat_eq] at whole
  cases unpacked : x.toModel.unpack with
  | notANumber | infinity s =>
    rw [unpacked] at whole
    cases whole
  | zero s =>
    rw [unpacked] at whole
    cases s with
    | negative => cases whole
    | positive => rfl
  | finite s m e pos =>
    rw [unpacked] at whole
    cases s with
    | negative => cases whole
    | positive =>
      have value := toNat?_eq_some.mp whole
      have : (0 : ℚ) < m * 2 ^ e := by
        have : (0 : ℚ) < m := by exact_mod_cast pos
        positivity
      rw [← value] at this
      exact absurd this (by norm_num)

theorem unpack_zero : (0 : Float).toModel.unpack = .zero .positive :=
  unpack_of_toNat?_zero toNat?_ofNat_zero

/-- Exponents decide before mantissas. -/
theorem Canonical.lt_of_exponent (first : Canonical m₁ e₁) (second : Canonical m₂ e₂)
    (less : e₁ < e₂) : (m₁ : ℚ) * 2 ^ e₁ < m₂ * 2 ^ e₂ := by
  have least := first.least
  have full : (fractions : ℚ) ≤ m₂ := by exact_mod_cast second.full.resolve_right (by omega)
  have high : (m₁ : ℚ) < 2 * fractions := by exact_mod_cast first.high
  calc (m₁ : ℚ) * 2 ^ e₁ < 2 * fractions * 2 ^ e₁ :=
        mul_lt_mul_of_pos_right high (by positivity)
    _ = fractions * 2 ^ (e₁ + 1) := by rw [zpow_add_one₀ (by norm_num)]; ring
    _ ≤ m₂ * 2 ^ e₂ := by
      refine mul_le_mul full ?_ (by positivity) (Nat.cast_nonneg _)
      exact zpow_le_zpow_right₀ (by norm_num) (by omega)

/-- A larger exponent makes a larger number, and so does a larger mantissa with the same one. -/
theorem Canonical.lt (first : Canonical m₁ e₁) (second : Canonical m₂ e₂)
    (less : (m₁ : ℚ) * 2 ^ e₁ < m₂ * 2 ^ e₂) : e₁ < e₂ ∨ e₁ = e₂ ∧ m₁ < m₂ := by
  rcases lt_trichotomy e₁ e₂ with below | rfl | above
  · exact .inl below
  · right
    have place : (0 : ℚ) < 2 ^ e₁ := by positivity
    exact ⟨rfl, by exact_mod_cast lt_of_mul_lt_mul_right less place.le⟩
  · exact absurd less (second.lt_of_exponent first above).asymm

theorem Canonical.lt_of_unpack (first : Canonical m₁ e₁) (second : Canonical m₂ e₂)
    (unpacked₁ : x.toModel.unpack = .finite .positive m₁ e₁ first.pos)
    (unpacked₂ : y.toModel.unpack = .finite .positive m₂ e₂ second.pos)
    (less : (m₁ : ℚ) * 2 ^ e₁ < m₂ * 2 ^ e₂) : x < y := by
  rw [lt_iff_compare, unpacked₁, unpacked₂]
  simp only [UnpackedFloat.compare]
  rcases first.lt second less with below | ⟨rfl, below⟩
  · rw [Int.compare_eq_lt.mpr below]
    rfl
  · rw [Int.compare_eq_eq.mpr rfl, Nat.compare_eq_lt.mpr below]
    rfl

theorem lt_of_toNat? (first : Number.toNat? x = some n) (second : Number.toNat? y = some k)
    (less : n < k) : x < y := by
  obtain ⟨m₂, e₂, canonical₂, unpacked₂, value₂⟩ := unpack_of_toNat? second (by omega)
  rcases Nat.eq_zero_or_pos n with rfl | pos
  · rw [lt_iff_compare, unpacked₂, unpack_of_toNat?_zero first]
    rfl
  · obtain ⟨m₁, e₁, canonical₁, unpacked₁, value₁⟩ := unpack_of_toNat? first pos
    refine canonical₁.lt_of_unpack canonical₂ unpacked₁ unpacked₂ ?_
    rw [← value₁, ← value₂]
    exact_mod_cast less

/-- With the exponent lowered and the mantissa raised a number is the same. -/
theorem lowered_value (m : Nat) {e least : Int} (le : least ≤ e) :
    ((m <<< (e - least).toNat : Nat) : ℚ) * 2 ^ least = m * 2 ^ e := by
  rw [Nat.shiftLeft_eq]
  push_cast
  rw [mul_assoc, ← zpow_natCast, ← zpow_add₀ (by norm_num)]
  congr 2
  omega

theorem sub_exact (canonical : Canonical m e) (pos₁ : 0 < m₁) (pos₂ : 0 < m₂)
    (value : (m₁ : ℚ) * 2 ^ e₁ - m₂ * 2 ^ e₂ = m * 2 ^ e) :
    UnpackedFloat.sub Format.binary64 (.finite .positive m₁ e₁ pos₁)
      (.finite .positive m₂ e₂ pos₂) = .finite .positive m e canonical.pos := by
  simp only [UnpackedFloat.sub, decreaseExponent, Sign.apply]
  have first := lowered_value m₁ (min_le_left e₁ e₂)
  have second := lowered_value m₂ (min_le_right e₁ e₂)
  generalize min e₁ e₂ = least at first second
  generalize m₁ <<< (e₁ - least).toNat = a at first
  generalize m₂ <<< (e₂ - least).toNat = b at second
  have place : (0 : ℚ) < 2 ^ least := by positivity
  have difference : ((a : ℚ) - b) * 2 ^ least = m * 2 ^ e := by
    rw [sub_mul, first, second, value]
  have positive : (0 : ℚ) < (a : ℚ) - b := by
    have : (0 : ℚ) < m := by exact_mod_cast canonical.pos
    exact pos_of_mul_pos_left (difference ▸ by positivity) place.le
  have more : b < a := by exact_mod_cast sub_pos.mp positive
  unfold UnpackedFloat.normalize
  rw [show compare ((a : Int) - b) 0 = .gt from Int.compare_eq_gt.mpr (by omega)]
  refine round_nearest canonical.placed .positive (by omega) ?_
  have whole : ((((a : Int) - b).toNat : Nat) : ℚ) = (a : ℚ) - b := by
    rw [show ((a : Int) - b).toNat = a - b by omega, Nat.cast_sub more.le]
  rw [whole, difference]
  exact nearest_self m e

/-- One less than a count up to 2^53. -/
theorem toNat?_ofNat_sub_one (pos : 0 < n) (small : n ≤ 2 ^ 53) :
    Number.toNat? (Float.ofNat n - Float.ofNat 1) = some (n - 1) := by
  rcases Nat.eq_or_lt_of_le (Nat.succ_le_of_lt pos) with rfl | more
  · decide +kernel
  obtain ⟨m₁, e₁, canonical₁, unpacked₁, value₁⟩ := unpack_of_toNat? (toNat?_ofNat_le small) pos
  obtain ⟨m₂, e₂, canonical₂, unpacked₂, value₂⟩ :=
    unpack_of_toNat? (toNat?_ofNat_le (n := 1) (by decide)) (by decide)
  obtain ⟨m, e, canonical, _, value⟩ := canonical_ofNat (n := n - 1) (by omega) (by omega)
  have difference := sub_exact canonical canonical₁.pos canonical₂.pos (by
    rw [← value₁, ← value₂, ← value, Nat.cast_sub pos])
  have same : Float.ofNat n - Float.ofNat 1 = canonical.float .positive := by
    refine congrArg (fun u => Float.ofModel (.pack u)) (Eq.trans ?_ difference)
    rw [unpacked₁, unpacked₂]
  rw [same]
  exact toNat?_of_unpack (canonical.unpack_float .positive) value

/-! Numbers that are not negative, the negative zero and infinity among them. -/

def NonNegative : UnpackedFloat → Prop
  | .infinity .positive | .zero _ | .finite .positive .. => True
  | _ => False

theorem nonNegative_round (m : Nat) (e : Int) (accuracy : Accuracy) :
    NonNegative (roundWithAccuracy Format.binary64 .positive m e accuracy) := by
  unfold roundWithAccuracy
  dsimp only
  split <;> trivial

theorem nonNegative_unpack_components {exponent : BitVec 11} {fraction : BitVec 52}
    (number : exponent = -1#11 → fraction = 0#52) :
    NonNegative (unpack Format.binary64
      (packComponents Format.binary64 .positive exponent fraction)) := by
  unfold UnpackedFloat.unpack
  simp only [unpackMantissa_packComponents, unpackExponent_packComponents,
    unpackSign_packComponents, Sign.ofBitVec_toBitVec]
  split
  · next top =>
    rw [if_pos (number top)]
    trivial
  · split
    · split <;> trivial
    · trivial

/-- Packing keeps the sign, and turns what is too large into infinity. -/
theorem nonNegative_unpack_pack {u : UnpackedFloat} (nonNegative : NonNegative u) :
    NonNegative (unpack Format.binary64 (UnpackedFloat.pack Format.binary64 u)) := by
  cases u with
  | notANumber => exact nonNegative.elim
  | infinity s =>
    rwa [unpack_pack (u := .infinity s) trivial]
  | zero s => rwa [unpack_pack (u := .zero s) trivial]
  | finite s m e pos =>
    cases s with
    | negative => exact nonNegative.elim
    | positive =>
      unfold UnpackedFloat.pack
      dsimp only
      split
      · exact nonNegative_unpack_components fun _ => rfl
      split
      · next bounded _ =>
        refine nonNegative_unpack_components fun top => absurd (congrArg BitVec.toNat top) ?_
        rw [BitVec.toNat_ofNat, show (-1#11).toNat = 2047 from rfl,
          Nat.mod_eq_of_lt (by omega)]
        omega
      · exact nonNegative_unpack_components fun top => absurd top (by decide)

theorem nonNegative_mul (first : NonNegative x.toModel.unpack) {pos : 0 < m}
    (second : y.toModel.unpack = .finite .positive m e pos) :
    NonNegative (x * y).toModel.unpack := by
  change NonNegative (unpack Format.binary64 (UnpackedFloat.pack Format.binary64
    (UnpackedFloat.mul Format.binary64 x.toModel.unpack y.toModel.unpack)))
  apply nonNegative_unpack_pack
  rw [second]
  generalize x.toModel.unpack = u at first
  cases u with
  | notANumber => exact first.elim
  | infinity s =>
    cases s with
    | negative => exact first.elim
    | positive => trivial
  | zero s => trivial
  | finite s m e pos =>
    cases s with
    | negative => exact first.elim
    | positive => exact nonNegative_round _ _ _

theorem nonNegative_ofScientific (n : Nat) (e : Int) (positive : 0 ≤ e) :
    NonNegative (UnpackedFloat.ofScientific Format.binary64 n e) := by
  unfold UnpackedFloat.ofScientific
  split
  · trivial
  split
  · trivial
  split
  · trivial
  exact nonNegative_round ..

end

end Binary64

namespace Number
open Binary64
variable {x a z : Float} {n : Nat}

/-- A whole number that is not negative, the negative zero among them, or infinity. -/
inductive Floored (z : Float) : Prop where
  | count (n : Nat) (whole : toNat? z = some n)
  | zero (unpacked : z.toModel.unpack = .zero .negative)
  | infinite (unpacked : z.toModel.unpack = .infinity .positive)

theorem floored_floor (nonNegative : NonNegative x.toModel.unpack) : Floored (floor x) := by
  unfold floor
  rw [ofFloat_eq]
  cases unpacked : x.toModel.unpack with
  | notANumber =>
    rw [unpacked] at nonNegative
    exact nonNegative.elim
  | infinity s =>
    cases s with
    | negative =>
      rw [unpacked] at nonNegative
      exact nonNegative.elim
    | positive => exact .infinite unpacked
  | zero s =>
    have whole : (magnitude 0 (-1074)).isWhole = true := by decide +kernel
    simp only [ofUnpacked, whole, if_true]
    cases s with
    | negative => exact .zero unpacked
    | positive =>
      refine .count 0 ?_
      rw [toNat?, ofFloat_eq, unpacked]
      exact toNat?_eq_some.mpr (by simp)
  | finite s m e pos =>
    cases s with
    | negative =>
      rw [unpacked] at nonNegative
      exact nonNegative.elim
    | positive =>
      have canonical := rounded_unpack x.toModel.toBits.toBitVec
      change Rounded x.toModel.unpack at canonical
      rw [unpacked] at canonical
      simp only [ofUnpacked, isNegative, Bool.false_eq_true, if_false]
      split
      · next whole =>
        refine .count (magnitude m e).whole ?_
        rw [toNat?, ofFloat_eq, unpacked]
        simp [ofUnpacked, isNegative, Binary64.toNat?, whole]
      · next broken =>
        -- only a number below 2^53 has a fraction
        refine .count (magnitude m e).whole (toNat?_ofNat_le ?_)
        cases e with
        | ofNat k => simp [magnitude, Magnitude.isWhole, Nat.mod_one] at broken
        | negSucc k => exact (Nat.div_le_self m _).trans (Canonical.high canonical).le

theorem not_isNaN_of_toNat? (whole : toNat? x = some n) : x.isNaN = false := by
  change x.toModel.unpack.isNaN = false
  rcases Nat.eq_zero_or_pos n with rfl | pos
  · rw [unpack_of_toNat?_zero whole]
    rfl
  · obtain ⟨m, e, canonical, unpacked, _⟩ := unpack_of_toNat? whole pos
    rw [unpacked]
    rfl

theorem not_isNaN_of_nonNegative (nonNegative : NonNegative x.toModel.unpack) :
    x.isNaN = false := by
  change x.toModel.unpack.isNaN = false
  cases unpacked : x.toModel.unpack with
  | notANumber =>
    rw [unpacked] at nonNegative
    exact nonNegative.elim
  | infinity | zero | finite => rfl

/-- A count is a number, also where it is too large to be kept exactly. -/
theorem not_isNaN_ofNat (n : Nat) : (Float.ofNat n).isNaN = false := by
  rcases Nat.le_total n (2 ^ 53) with small | large
  · exact not_isNaN_of_toNat? (toNat?_ofNat_le small)
  · apply not_isNaN_of_nonNegative
    change NonNegative (Float.ofScientific n false 0).toModel.unpack
    rw [Float.ofScientific, dif_neg (by omega)]
    exact nonNegative_unpack_pack (nonNegative_ofScientific n 0 le_rfl)

/-- The lesser of two numbers is one of them, and not the second where the first one is less. -/
theorem min_cases (first : a.isNaN = false) (second : z.isNaN = false) :
    min a z = a ∨ ¬ a < z ∧ min a z = z := by
  unfold min
  rw [first, second]
  by_cases less : a < z
  · exact .inl (by simp [less])
  · by_cases more : z < a
    · exact .inr ⟨less, by simp [less, more]⟩
    · by_cases zero : (a.toBits == 0) = true
      · exact .inr ⟨less, by simp [less, more, zero]⟩
      · exact .inl (by simp [less, more, zero])

end Number

namespace Quantity
variable {x a z : Float} {n : Nat}

theorem index?_ofScalar (whole : Number.toNat? x = some n) :
    (ofScalar x).index? = some n := by
  have read : Scalar.toNat? x = some n := whole
  simp only [ofScalar, read, index?]

theorem index?_ofScalar_zero (unpacked : x.toModel.unpack = .zero .negative) :
    (ofScalar x).index? = some 0 := by
  have none : Scalar.toNat? x = none := by
    change Number.toNat? x = none
    rw [Number.toNat?, Binary64.ofFloat_eq, unpacked]
    rfl
  have zero : Scalar.eq x (Scalar.nat 0) = true := by
    change (x == Float.ofNat 0) = true
    rw [Binary64.beq_iff_compare, unpacked,
      Binary64.unpack_of_toNat?_zero Binary64.toNat?_ofNat_zero]
    rfl
  simp only [ofScalar, none, index?, zero, if_true]

/-- No index above a count is the lesser of it and a whole number. -/
theorem index?_min (first : Number.toNat? a = some n) (floored : Number.Floored z) :
    ∃ i ≤ n, (ofScalar (Number.min a z)).index? = some i := by
  have number := Number.not_isNaN_of_toNat? first
  cases floored with
  | count k whole =>
    rcases Number.min_cases number (Number.not_isNaN_of_toNat? whole) with same | ⟨less, same⟩
    · exact ⟨n, le_rfl, by rw [same, index?_ofScalar first]⟩
    · refine ⟨k, Nat.le_of_not_lt fun below => ?_, by rw [same, index?_ofScalar whole]⟩
      exact less (Binary64.lt_of_toNat? first whole below)
  | zero unpacked =>
    have other : z.isNaN = false := by
      change z.toModel.unpack.isNaN = false
      rw [unpacked]
      rfl
    rcases Number.min_cases number other with same | ⟨_, same⟩
    · exact ⟨n, le_rfl, by rw [same, index?_ofScalar first]⟩
    · exact ⟨0, Nat.zero_le n, by rw [same, index?_ofScalar_zero unpacked]⟩
  | infinite unpacked =>
    have other : z.isNaN = false := by
      change z.toModel.unpack.isNaN = false
      rw [unpacked]
      rfl
    rcases Number.min_cases number other with same | ⟨less, _⟩
    · exact ⟨n, le_rfl, by rw [same, index?_ofScalar first]⟩
    · refine absurd ?_ less
      rw [Binary64.lt_iff_compare, unpacked]
      rcases Nat.eq_zero_or_pos n with rfl | pos
      · rw [Binary64.unpack_of_toNat?_zero first]
        rfl
      · obtain ⟨m, e, canonical, finite, _⟩ := Binary64.unpack_of_toNat? first pos
        rw [finite]
        rfl

end Quantity

namespace Source
variable {n : Nat} {u : Float}

theorem nonNegative_of_le (unit : 0 ≤ u) : Binary64.NonNegative u.toModel.unpack := by
  rw [Binary64.le_iff_compare, Binary64.unpack_zero] at unit
  generalize u.toModel.unpack = v at unit
  cases v with
  | notANumber => cases unit
  | infinity s | finite s =>
    cases s with
    | negative => cases unit
    | positive => trivial
  | zero s => trivial

/-- A draw that is not negative selects an index below every count up to 2^53. -/
theorem index?_select (pos : 0 < n) (small : n ≤ Quantity.exactBound) (unit : 0 ≤ u) :
    ∃ i < n, (Quantity.ofScalar (select (Float.ofNat n) u)).index? = some i := by
  obtain ⟨m, e, canonical, bound, _⟩ :=
    Binary64.unpack_of_toNat? (Binary64.toNat?_ofNat_le small) pos
  have product := Binary64.nonNegative_mul (nonNegative_of_le unit) bound
  obtain ⟨i, below, index⟩ := Quantity.index?_min (Binary64.toNat?_ofNat_sub_one pos small)
    (Number.floored_floor product)
  exact ⟨i, by omega, index⟩

theorem counters_lt : counters < 2 ^ 53 := by
  norm_num [counters]

/-- A fraction of 2^32 is a number. -/
theorem canonical_fraction (pos : 0 < n) (below : n < counters) :
    ∃ m e, Binary64.Canonical m e ∧ (n : ℚ) / counters = m * 2 ^ e := by
  obtain ⟨m, e, canonical, full, value⟩ := Binary64.canonical_ofNat pos (below.trans counters_lt)
  refine ⟨m, e - 32, { canonical with least := ?_, most := ?_, full := .inl full }, ?_⟩
  · by_contra low
    have some : (1 : ℚ) ≤ n := by exact_mod_cast pos
    have high : (m : ℚ) ≤ 2 ^ (53 : Int) := by
      norm_num
      exact_mod_cast canonical.high.le
    have tiny : (2 : ℚ) ^ e ≤ 2 ^ (-54 : Int) := zpow_le_zpow_right₀ (by norm_num) (by omega)
    have product : (m : ℚ) * 2 ^ e ≤ 2 ^ (53 : Int) * 2 ^ (-54 : Int) :=
      mul_le_mul high tiny (by positivity) (by positivity)
    rw [← value, ← zpow_add₀ (by norm_num)] at product
    exact absurd (some.trans product) (by norm_num)
  · exact (Int.sub_le_self e (by decide)).trans canonical.most
  · rw [value, zpow_sub₀ (by norm_num), mul_div_assoc]
    norm_num [counters]

/-- A draw of a seeded source is not rounded. -/
theorem unpack_fraction (pos : 0 < n) (below : n < counters) :
    ∃ (m : Nat) (e : Int) (canonical : Binary64.Canonical m e),
      (Float.ofNat n / Float.ofNat counters).toModel.unpack =
        .finite .positive m e canonical.pos ∧ (n : ℚ) / counters = m * 2 ^ e := by
  have whole {k : Nat} (pos : 0 < k) (small : k ≤ 2 ^ 53) :=
    Binary64.unpack_of_toNat? (Binary64.toNat?_ofNat_le small) pos
  obtain ⟨m, e, canonical, quotient⟩ := canonical_fraction pos below
  obtain ⟨m₁, e₁, canonical₁, unpacked₁, value₁⟩ := whole pos (below.le.trans counters_lt.le)
  obtain ⟨m₂, e₂, canonical₂, unpacked₂, value₂⟩ := whole (pos.trans below) counters_lt.le
  refine ⟨m, e, canonical, ?_, quotient⟩
  have divided : Float.ofNat n / Float.ofNat counters = canonical.float .positive := by
    apply Binary64.div_float canonical.placed
    rw [unpacked₁, unpacked₂]
    refine Binary64.div_nearest canonical.placed .positive .positive _ _ ?_
    rw [← value₁, ← value₂, quotient]
    exact Binary64.nearest_self m e
  rw [divided, canonical.unpack_float]

/-- What a seeded source draws is in the unit interval. -/
theorem fraction_unit (below : n < counters) :
    0 ≤ Float.ofNat n / Float.ofNat counters ∧ Float.ofNat n / Float.ofNat counters < 1 := by
  rcases Nat.eq_zero_or_pos n with rfl | pos
  · decide +kernel
  obtain ⟨m, e, canonical, unpacked, quotient⟩ := unpack_fraction pos below
  obtain ⟨m₁, e₁, canonical₁, unpacked₁, value₁⟩ :=
    Binary64.unpack_of_toNat? (Binary64.toNat?_ofNat_le (n := 1) (by norm_num)) Nat.one_pos
  constructor
  · rw [Binary64.le_iff_compare, unpacked, Binary64.unpack_zero]
    rfl
  · refine canonical.lt_of_unpack canonical₁ unpacked unpacked₁ ?_
    have divisor : (0 : ℚ) < counters := by norm_num [counters]
    rw [← quotient, ← value₁, div_lt_iff₀ divisor]
    exact_mod_cast by simpa using below

end Source
end ProgramGym
