import Mathlib
import ProgramGym.Proofs.Decimal.Numerals

/-! Arithmetic of counts. A number that is a count is the number of that count alone, so what is
known of counts is known of numbers. Main statements: within 2^53 sums, products and differences of
counts are those of the numbers, which compare as the counts do. -/
namespace ProgramGym.Number
open Binary64 Float.Model Float.Model.UnpackedFloat

section
variable {x y : Float} {m n : Nat}

theorem eq_ofNat (whole : toNat? x = some n) : x = Float.ofNat n := by
  have same := Quantity.ofFloat_ofNat whole
  cases pattern : ofFloat x with
  | notANumber | infinite =>
    rw [toNat?, pattern] at whole
    cases whole
  | finite negative m e => exact eq_of_ofFloat pattern (same.trans pattern)

theorem unpack_ofNat (pos : 0 < n) (small : n ≤ 2 ^ 53) :
    ∃ (m : Nat) (e : Int) (canonical : Canonical m e),
      (Float.ofNat n).toModel.unpack = .finite .positive m e canonical.pos ∧ (n : ℚ) = m * 2 ^ e :=
  unpack_of_toNat? (toNat?_ofNat_le small) pos

theorem unpack_ofNat_zero : (Float.ofNat 0).toModel.unpack = .zero .positive :=
  unpack_of_toNat?_zero toNat?_ofNat_zero

theorem toNat?_of_unpack_zero (unpacked : x.toModel.unpack = .zero .positive) :
    toNat? x = some 0 := by
  rw [toNat?, ofFloat_eq, unpacked]
  exact toNat?_eq_some.mpr (by simp)

theorem ofNat_add (small : m + n ≤ 2 ^ 53) :
    Float.ofNat m + Float.ofNat n = Float.ofNat (m + n) := by
  apply eq_ofNat
  rcases Nat.eq_zero_or_pos (m + n) with none | some
  · obtain ⟨rfl, rfl⟩ := Nat.add_eq_zero_iff.mp none
    decide +kernel
  obtain ⟨k, e, canonical, unpacked, value⟩ := unpack_ofNat some small
  refine toNat?_of_unpack (unpack_add (u := .finite .positive k e canonical.pos) canonical ?_) value
  rcases Nat.eq_zero_or_pos m with rfl | first
  · rw [Nat.zero_add] at unpacked
    rw [unpack_ofNat_zero, unpacked]
    rfl
  rcases Nat.eq_zero_or_pos n with rfl | second
  · rw [Nat.add_zero] at unpacked
    rw [unpack_ofNat_zero, unpacked]
    rfl
  obtain ⟨m₁, e₁, canonical₁, unpacked₁, value₁⟩ := unpack_ofNat first (by omega)
  obtain ⟨m₂, e₂, canonical₂, unpacked₂, value₂⟩ := unpack_ofNat second (by omega)
  rw [unpacked₁, unpacked₂]
  refine add_nearest canonical.placed canonical₁.pos canonical₂.pos ?_
  rw [← value₁, ← value₂, ← Nat.cast_add, value]
  exact nearest_self k e

theorem ofNat_mul (first : m ≤ 2 ^ 53) (second : n ≤ 2 ^ 53) (small : m * n ≤ 2 ^ 53) :
    Float.ofNat m * Float.ofNat n = Float.ofNat (m * n) := by
  apply eq_ofNat
  have product := unpack_product (Float.ofNat m) (Float.ofNat n)
  rcases Nat.eq_zero_or_pos m with rfl | pos₁
  · rw [Nat.zero_mul]
    apply toNat?_of_unpack_zero
    rw [product, unpack_ofNat_zero]
    rcases Nat.eq_zero_or_pos n with rfl | pos₂
    · rw [unpack_ofNat_zero]
      exact unpack_pack (u := .zero .positive) trivial
    · obtain ⟨_, _, _, unpacked, _⟩ := unpack_ofNat pos₂ second
      rw [unpacked]
      exact unpack_pack (u := .zero .positive) trivial
  obtain ⟨m₁, e₁, canonical₁, unpacked₁, value₁⟩ := unpack_ofNat pos₁ first
  rcases Nat.eq_zero_or_pos n with rfl | pos₂
  · rw [Nat.mul_zero]
    apply toNat?_of_unpack_zero
    rw [product, unpack_ofNat_zero, unpacked₁]
    exact unpack_pack (u := .zero .positive) trivial
  obtain ⟨m₂, e₂, canonical₂, unpacked₂, value₂⟩ := unpack_ofNat pos₂ second
  obtain ⟨k, e, canonical, unpacked, value⟩ := unpack_ofNat (Nat.mul_pos pos₁ pos₂) small
  suffices rounded : (Float.ofNat m * Float.ofNat n).toModel.unpack =
      .finite .positive k e canonical.pos from toNat?_of_unpack rounded value
  have full : fractions ≤ m₁ * m₂ :=
    (canonical₁.full_of_whole pos₁ value₁).trans (Nat.le_mul_of_pos_right m₁ canonical₂.pos)
  have nearest : Nearest k e ((m₁ * 2 ^ e₁) * (m₂ * 2 ^ e₂)) := by
    rw [← value₁, ← value₂, ← Nat.cast_mul, value]
    exact nearest_self k e
  rw [product, unpacked₁, unpacked₂,
    mul_nearest canonical.placed .positive .positive _ _ (.inl full) nearest]
  exact unpack_pack (u := .finite .positive k e canonical.pos) canonical

theorem ofNat_add_zero (small : n ≤ 2 ^ 53) (zero : (x == Float.ofNat 0) = true) :
    Float.ofNat n + x = Float.ofNat n := by
  obtain ⟨s, unpacked⟩ := unpack_of_beq_zero zero
  apply eq_ofNat
  rcases Nat.eq_zero_or_pos n with rfl | pos
  · refine toNat?_of_unpack_zero (unpack_add (u := .zero .positive) trivial ?_)
    rw [unpack_ofNat_zero, unpacked]
    cases s <;> rfl
  · obtain ⟨m, e, canonical, count, value⟩ := unpack_ofNat pos small
    refine toNat?_of_unpack
      (unpack_add (u := .finite .positive m e canonical.pos) canonical ?_) value
    rw [count, unpacked]
    rfl

theorem nonNegative_ofNat (small : n ≤ 2 ^ 53) : NonNegative (Float.ofNat n).toModel.unpack := by
  rcases Nat.eq_zero_or_pos n with rfl | pos
  · rw [unpack_ofNat_zero]
    trivial
  · obtain ⟨_, _, _, unpacked, _⟩ := unpack_ofNat pos small
    rw [unpacked]
    trivial

theorem beq_neg_one (nonNegative : NonNegative x.toModel.unpack) : (x == -1) = false := by
  have pattern : ofFloat (-1) = .finite true fractions (-52) := by decide +kernel
  obtain ⟨canonical, s, sign, unpacked⟩ := unpack_of_ofFloat pattern (by decide)
  obtain rfl : s = .negative := by
    cases s with
    | negative => rfl
    | positive => cases sign
  refine Bool.eq_false_iff.mpr fun same => ?_
  rw [beq_iff_compare, unpacked] at same
  generalize x.toModel.unpack = u at same nonNegative
  cases u with
  | notANumber => cases same
  | infinity t | finite t =>
    cases t with
    | negative => exact nonNegative.elim
    | positive => cases same
  | zero t => cases same

/-- One less than a count that is not zero. -/
theorem ofNat_sub_one (pos : 0 < n) (small : n ≤ 2 ^ 53) :
    Float.ofNat n - Float.ofNat 1 = Float.ofNat (n - 1) :=
  eq_ofNat (toNat?_ofNat_sub_one pos small)

theorem ofNat_lt (first : m ≤ 2 ^ 53) (second : n ≤ 2 ^ 53) :
    Float.ofNat m < Float.ofNat n ↔ m < n := by
  rw [(worth_of_toNat? (toNat?_ofNat_le first)).lt_iff (worth_of_toNat? (toNat?_ofNat_le second)),
    Nat.cast_lt]

theorem ofNat_beq (first : m ≤ 2 ^ 53) (second : n ≤ 2 ^ 53) :
    (Float.ofNat m == Float.ofNat n) = true ↔ m = n := by
  rw [beq_iff_compare, (worth_of_toNat? (toNat?_ofNat_le first)).compare_eq
    (worth_of_toNat? (toNat?_ofNat_le second)), Option.some_inj, compare_eq_iff_eq, Nat.cast_inj]

end
end ProgramGym.Number
