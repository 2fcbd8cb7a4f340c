import Mathlib
import ProgramGym.Proofs.Decimal.Scientific
import ProgramGym.Quantity

/-! Counts among the binary64 numbers. A positive whole number is a mantissa of 53 bits times a
power of two, and no rounding touches it on the way from the count to the pattern and back. Main
statement: a counter that was read from a number, and every counter after it, reads as itself. -/
namespace ProgramGym
namespace Binary64
open Float.Model Float.Model.UnpackedFloat

/-- Mantissa and exponent of a positive number that has all its 53 bits. -/
structure Normal (m : Nat) (e : Int) : Prop where
  low : fractions ≤ m
  high : m < 2 * fractions
  least : -1074 ≤ e
  most : e ≤ 971

section
variable {m n : Nat} {e : Int}

theorem Normal.pos (normal : Normal m e) : 0 < m := lt_of_lt_of_le (by decide) normal.low

theorem Normal.canonical (normal : Normal m e) : Canonical m e :=
  ⟨normal.pos, normal.high, normal.least, normal.most, .inl normal.low⟩

/-- The number with a mantissa and an exponent. -/
def Normal.float (normal : Normal m e) : Float := .ofModel (.pack (.finite .positive m e normal.pos))

theorem ofFloat_normal (normal : Normal m e) : ofFloat normal.float = .finite false m e :=
  normal.canonical.ofFloat_float .positive

/-- The mantissa times the power of two is a count. -/
def Counts (m : Nat) (e : Int) (n : Nat) : Prop :=
  e ≤ 0 ∧ n * 2 ^ (-e).toNat = m ∨ 0 < e ∧ n = m * 2 ^ e.toNat

theorem toNat?_iff_counts (m : Nat) (e : Int) (n : Nat) :
    toNat? (.finite false m e) = some n ↔ Counts m e n := by
  cases e with
  | ofNat k =>
    have scaled : toNat? (.finite false m (Int.ofNat k)) = some (m * 2 ^ k) := by
      simp [toNat?, magnitude, Magnitude.isWhole, Magnitude.whole, Nat.mod_one]
    rw [scaled, Option.some_inj, Counts]
    rcases Nat.eq_zero_or_pos k with rfl | pos
    · simp [eq_comm]
    · simp only [Int.ofNat_eq_natCast, Int.toNat_natCast]
      constructor
      · exact fun same => .inr ⟨by omega, same.symm⟩
      · rintro (⟨least, _⟩ | ⟨_, same⟩)
        · omega
        · exact same.symm
  | negSucc k =>
    have pos : 0 < 2 ^ (k + 1) := by positivity
    have exponent : (-Int.negSucc k).toNat = k + 1 := by simp
    simp only [toNat?, magnitude, Magnitude.isWhole, Magnitude.whole, beq_iff_eq,
      Option.ite_none_right_eq_some, Option.some_inj, Counts, exponent, Nat.pow_eq]
    constructor
    · rintro ⟨divides, rfl⟩
      exact .inl ⟨by omega, Nat.div_mul_cancel (Nat.dvd_of_mod_eq_zero divides)⟩
    · rintro (⟨_, rfl⟩ | ⟨above, _⟩)
      · exact ⟨Nat.mul_mod_left n _, Nat.mul_div_cancel n pos⟩
      · omega

theorem toNat?_ofNat_counts (normal : Normal m e) (counts : Counts m e n) :
    Number.toNat? (Float.ofNat n) = some n := by
  have whole := (toNat?_iff_counts m e n).mpr counts
  have value : (n : ℚ) = m * 2 ^ e := toNat?_eq_some.mp whole
  have pos : 0 < n := by
    have : (0 : ℚ) < m := by exact_mod_cast normal.pos
    have : (0 : ℚ) < n := by rw [value]; positivity
    exact_mod_cast this
  have float : Float.ofNat n = normal.float := by
    refine ofScientific_nearest normal.canonical.placed pos false (by simp) ?_
    simp only [Bool.false_eq_true, if_false, pow_zero, mul_one, value]
    exact nearest_self m e
  rw [float, Number.toNat?, ofFloat_normal normal]
  exact whole

theorem toNat?_ofNat_zero : Number.toNat? (Float.ofNat 0) = some 0 := by decide +kernel

/-- Up to 2^53 every count is a binary64 number. -/
theorem toNat?_ofNat_le (small : n ≤ 2 ^ 53) : Number.toNat? (Float.ofNat n) = some n := by
  rcases Nat.eq_zero_or_pos n with rfl | pos
  · exact toNat?_ofNat_zero
  rcases small.eq_or_lt with rfl | below
  · exact toNat?_ofNat_counts ⟨le_refl _, by decide, by decide, by decide⟩
      (.inr ⟨by decide, rfl⟩ : Counts fractions 1 _)
  · obtain ⟨m, e, canonical, full, value⟩ := canonical_ofNat pos below
    refine toNat?_ofNat_counts ⟨full, canonical.high, canonical.least, canonical.most⟩ ?_
    exact (toNat?_iff_counts m e n).mp (toNat?_eq_some.mpr value)

/-- The pattern of a positive whole number is that of a number with all its bits. -/
theorem normal_of_ofFloat {x : Float} (finite : ofFloat x = .finite false m e)
    (counts : Counts m e n) (pos : 0 < n) : Normal m e := by
  unfold ofFloat at finite
  dsimp only at finite
  split at finite
  · split at finite <;> cases finite
  split at finite
  · -- below the least of them all that is whole is zero
    obtain ⟨_, fraction, rfl⟩ := Binary64.finite.inj finite
    have small : m < fractions := fraction ▸ Nat.mod_lt _ (by decide)
    rcases counts with ⟨_, scaled⟩ | ⟨above, _⟩
    · have large : fractions ≤ m := by
        calc fractions = 1 * 2 ^ 52 := rfl
          _ ≤ n * 2 ^ (-(-1074 : Int)).toNat :=
            Nat.mul_le_mul pos (Nat.pow_le_pow_right (by decide) (by decide))
          _ = m := scaled
      exact absurd small large.not_gt
    · exact absurd above (by decide)
  · next notLargest notLeast =>
    obtain ⟨_, mantissa, exponent⟩ := Binary64.finite.inj finite
    have bounded : x.toBits.toNat % fractions < fractions := Nat.mod_lt _ (by decide)
    simp only [beq_iff_eq] at notLargest notLeast
    simp only [Int.ofNat_eq_natCast] at exponent
    exact ⟨by omega, by omega, by omega, by omega⟩

/-- A count that some number is. -/
theorem toNat?_ofNat_toNat? {x : Float} (whole : Number.toNat? x = some n) :
    Number.toNat? (Float.ofNat n) = some n := by
  rcases Nat.eq_zero_or_pos n with rfl | pos
  · exact toNat?_ofNat_zero
  cases pattern : ofFloat x with
  | notANumber => rw [Number.toNat?, pattern] at whole; cases whole
  | infinite negative => rw [Number.toNat?, pattern] at whole; cases whole
  | finite negative m e =>
    rw [Number.toNat?, pattern] at whole
    cases negative with
    | true => cases whole
    | false =>
      have counts := (toNat?_iff_counts m e n).mp whole
      exact toNat?_ofNat_counts (normal_of_ofFloat pattern counts pos) counts

end
end Binary64

namespace Quantity

/-- A quantity that reads as itself once it is a number. What is no number never does. -/
def Canonical (q : Quantity Float) : Prop := ofScalar q.toScalar = q

theorem canonical_count {n : Nat} (small : n ≤ exactBound) : Canonical (.count n) := by
  have read : Scalar.toNat? (Scalar.nat n : Float) = some n := Binary64.toNat?_ofNat_le small
  simp only [Canonical, toScalar, ofScalar, read]

theorem canonical_ofScalar (x : Float) : Canonical (.ofScalar x) := by
  unfold Canonical ofScalar
  cases whole : Scalar.toNat? x with
  | none => simp only [toScalar, whole]
  | some n =>
    have read : Scalar.toNat? (Scalar.nat n : Float) = some n := Binary64.toNat?_ofNat_toNat? whole
    simp only [toScalar, read]

theorem canonical_next {q : Quantity Float} (canonical : q.Canonical) : q.next.Canonical := by
  cases q with
  | count n =>
    rw [next]
    split
    · exact canonical_count ‹n < exactBound›
    · exact canonical_ofScalar _
  | other x => exact canonical_ofScalar _
  | foreign value => exact absurd canonical (by simp [Canonical, ofScalar]; split <;> simp)

end Quantity
end ProgramGym
