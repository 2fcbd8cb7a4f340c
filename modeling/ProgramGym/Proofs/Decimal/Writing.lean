import Mathlib
import ProgramGym.Proofs.Decimal.Arithmetic
import ProgramGym.Proofs.Decimal.Reading
import ProgramGym.Proofs.Decimal.Shortest

/-! How counts are written. Below 2^53 a count is the only whole number that rounds to itself, so
the search for the fewest digits, which looks at whole numbers up to the place of its last digit,
stops at the count. Main statement: the text of a count is its decimal numeral. -/
namespace ProgramGym
open Binary64 (Magnitude Canonical Nearest fractions)

namespace Decimal
variable {m n k : Nat} {e : Int}

theorem exponent_stripZeros (fuel : Nat) (d : Decimal) :
    d.exponent ≤ (stripZeros fuel d).exponent := by
  induction fuel generalizing d with
  | zero => exact le_rfl
  | succ fuel ih =>
    rw [stripZeros]
    split
    · exact (Int.le_add_one le_rfl).trans (ih _)
    · exact le_rfl

/-- A whole number that rounds to a count is that count. -/
theorem eq_of_nearest (fine : e ≤ 0) (count : (n : ℚ) = m * 2 ^ e)
    (nearest : Nearest m e (k : ℚ)) : k = n := by
  have place : (2 : ℚ) ^ e ≤ 1 := zpow_le_one_of_nonpos₀ (by norm_num) fine
  have above : (n : ℚ) - 1 / 2 ≤ k := by
    have := nearest.low
    linarith
  have below : (k : ℚ) ≤ n + 1 / 2 := by
    have := nearest.high
    linarith
  have less : (k : ℚ) < (n + 1 : Nat) := by push_cast; linarith
  have more : (n : ℚ) < (k + 1 : Nat) := by push_cast; linarith
  have less : k < n + 1 := by exact_mod_cast less
  have more : n < k + 1 := by exact_mod_cast more
  omega

/-- On the grid of whole numbers a count is a point. -/
theorem gridPoint?_count (canonical : Canonical m e) (count : (n : ℚ) = m * 2 ^ e) :
    ∃ c, gridPoint? ((interval m e).low * (grid e 0).numerator)
      ((interval m e).value * (grid e 0).numerator)
      ((interval m e).high * (grid e 0).numerator) (interval m e).closed
      (grid e 0).denominator = some c := by
  have place : (0 : ℚ) < 2 ^ e := by positivity
  obtain ⟨lower, upper⟩ := grid_floor m e 0
  apply gridPoint?_isSome
  generalize (interval m e).value * (grid e 0).numerator / (grid e 0).denominator = c at lower upper
  rw [zpow_zero, mul_one, ← count, Nat.cast_le] at lower
  rw [zpow_zero, mul_one, ← count, Nat.cast_lt] at upper
  obtain rfl : c = n := by omega
  refine .inl (within_of_between canonical.pos ?_ ?_) <;> rw [zpow_zero, mul_one, count]
  · split <;> nlinarith
  · nlinarith

/-- The search does not get past the grid of whole numbers, and what it finds up to there is the
count. -/
theorem searchGrids_count (canonical : Canonical m e) (fine : e ≤ 0) (count : (n : ℚ) = m * 2 ^ e)
    {order : Int} {fuel digits : Nat} (within : (digits : Int) ≤ order)
    (enough : order < digits + fuel) :
    let d := searchGrids (interval m e) (Binary64.magnitude 1 (e - 2)) order fuel digits
    0 ≤ d.exponent ∧ d.coefficient * 10 ^ d.exponent.toNat = n := by
  induction fuel generalizing digits with
  | zero => omega
  | succ fuel ih =>
    rw [searchGrids]
    split
    · next c found =>
      intro d
      have stripped : order - Int.ofNat digits ≤ d.exponent :=
        exponent_stripZeros 17 ⟨c, order - Int.ofNat digits⟩
      have whole : 0 ≤ d.exponent := by
        rw [Int.ofNat_eq_natCast] at stripped
        omega
      have value : ((d.coefficient * 10 ^ d.exponent.toNat : Nat) : ℚ) =
          c * 10 ^ (order - Int.ofNat digits) := by
        have same : d.value = c * 10 ^ (order - Int.ofNat digits) := value_stripZeros 17 _
        rw [← same, value, ← Int.toNat_of_nonneg whole]
        push_cast
        rfl
      refine ⟨whole, eq_of_nearest fine count ?_⟩
      rw [value]
      exact nearest_of_within canonical.pos (within_of_gridPoint? found)
    · next missed =>
      refine ih ?_ (by omega)
      by_contra last
      have zero : order - Int.ofNat digits = 0 := by
        rw [Int.ofNat_eq_natCast]
        omega
      obtain ⟨c, found⟩ := gridPoint?_count canonical count
      rw [zero] at missed
      exact absurd (missed.symm.trans found) (by simp)

theorem order_count (count : (n : ℚ) = m * 2 ^ e) (pos : 0 < n) :
    order (Binary64.magnitude m e) = digitCount n := by
  have whole := Binary64.toNat?_eq_some.mpr count
  simp only [Binary64.toNat?, Option.ite_none_right_eq_some, Option.some.injEq] at whole
  have some : (Binary64.magnitude m e).denominator ≤ (Binary64.magnitude m e).numerator := by
    by_contra less
    have none : (Binary64.magnitude m e).whole = 0 := Nat.div_eq_of_lt (Nat.not_le.mp less)
    omega
  rw [order, if_pos some, whole.2]

/-- The fewest digits of a count stand for it, with zeros for what they leave out. -/
theorem shortest_count (canonical : Canonical m e) (count : (n : ℚ) = m * 2 ^ e) (pos : 0 < n)
    (small : n < Quantity.exactBound) :
    0 ≤ (shortest m e).exponent ∧
      (shortest m e).coefficient * 10 ^ (shortest m e).exponent.toNat = n := by
  have fine : e ≤ 0 := by
    by_contra coarse
    have full : (fractions : ℚ) ≤ m := by exact_mod_cast canonical.full_of_whole pos count
    have place : (2 : ℚ) ≤ 2 ^ e := by
      calc (2 : ℚ) = 2 ^ (1 : Int) := (zpow_one 2).symm
        _ ≤ 2 ^ e := zpow_le_zpow_right₀ (by norm_num) (by omega)
    have below : (n : ℚ) < 2 * fractions := by exact_mod_cast small
    nlinarith
  have few : digitCount n ≤ 16 :=
    (digitCount_le_iff (by decide)).mpr (small.trans (by decide))
  have some := digitCount_pos n
  rw [shortest, if_neg (by simpa using canonical.pos.ne'), order_count count pos]
  exact searchGrids_count canonical fine count (by omega) (by omega)

theorem toDigits_mul_pow (pos : 0 < k) (t : Nat) :
    Nat.toDigits 10 (k * 10 ^ t) = Nat.toDigits 10 k ++ Notation.zeros t := by
  induction t with
  | zero => simp [Notation.zeros]
  | succ t ih =>
    have last := Nat.toDigits_append_toDigits (b := 10) (n := k * 10 ^ t) (d := 0) (by decide)
      (by positivity) (by decide)
    rw [pow_succ, show k * (10 ^ t * 10) = 10 * (k * 10 ^ t) + 0 by ring, ← last, ih,
      Nat.toDigits_zero, List.append_assoc, Notation.zeros, Notation.zeros, ← List.replicate_succ']

end Decimal

/-- Digits whose point is not among them are followed by zeros. -/
theorem Notation.layoutChars_whole (form : Notation) (digits : List Char) {t : Nat}
    (short : (digits.length : Int) + t ≤ form.largest) :
    form.layoutChars digits (Int.ofNat digits.length + t) = digits ++ zeros t := by
  have full : (Int.ofNat digits.length ≤ Int.ofNat digits.length + (t : Int) &&
      Int.ofNat digits.length + (t : Int) ≤ form.largest) = true := by
    simpa using short
  simp only [layoutChars, full, if_true, add_sub_cancel_left, Int.toNat_natCast]

namespace Number
variable {x : Float} {n : Nat}

/-- The characters of a number that is a count below 2^53. -/
theorem chars_of_toNat? (whole : toNat? x = some n) (small : n < Quantity.exactBound) :
    chars x = Nat.toDigits 10 n := by
  rcases Nat.eq_zero_or_pos n with rfl | pos
  · rw [chars, Binary64.ofFloat_eq, Binary64.unpack_of_toNat?_zero whole, Nat.toDigits_zero]
    rfl
  obtain ⟨m, e, canonical, unpacked, count⟩ := Binary64.unpack_of_toNat? whole pos
  obtain ⟨exponent, value⟩ := Decimal.shortest_count canonical count pos small
  have some : 0 < (Decimal.shortest m e).coefficient :=
    Nat.pos_of_mul_pos_right (value ▸ pos)
  have digits := Decimal.toDigits_mul_pow some (Decimal.shortest m e).exponent.toNat
  have few : (Nat.toDigits 10 n).length ≤ 16 :=
    (Nat.length_toDigits_le_iff (by decide) (by decide)).mpr (small.trans (by decide))
  rw [value] at digits
  rw [digits, List.length_append, Notation.zeros, List.length_replicate] at few
  have layout := Notation.layoutChars_whole Notation.plain
    (Nat.toDigits 10 (Decimal.shortest m e).coefficient)
    (t := (Decimal.shortest m e).exponent.toNat) (by simp only [Notation.plain]; omega)
  rw [Int.toNat_of_nonneg exponent] at layout
  rw [chars, Binary64.ofFloat_eq, unpacked, digits, ← layout, ← Numeral.toList_toString]
  exact if_neg (by simpa using canonical.pos.ne')

theorem text_of_toNat? (whole : toNat? x = some n) (small : n < Quantity.exactBound) :
    text x = toString n := by
  rw [text, chars_of_toNat? whole small, Nat.toString_eq_ofList_toDigits]

/-- Counts that are exact are written in full. -/
theorem text_ofNat (small : n < Quantity.exactBound) : text (Float.ofNat n) = toString n :=
  text_of_toNat? (Binary64.toNat?_ofNat_le small.le) small

end Number

/-- A count is written as the number that it is. -/
theorem Quantity.text_count (n : Nat) : (Quantity.count n).text = Number.text (Float.ofNat n) := by
  rw [Quantity.text]
  split
  · next small => exact (Number.text_ofNat small).symm
  · rfl

end ProgramGym
