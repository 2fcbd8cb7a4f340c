import Mathlib
import ProgramGym.Proofs.Decimal.Conversion
import ProgramGym.Proofs.Json.RoundTrip

/-! Numbers written and read again. The decimal that is written rounds to the number, reading
it rounds to the nearest number, and only the sign of zero is not written. Main statement: every
finite number but the negative zero is read back from its text. -/
namespace ProgramGym
open Binary64 (Canonical Nearest)

namespace Decimal
variable {m : Nat} {e : Int} {d : Decimal}

/-- A number that rounds to a finite one, between the powers of two that bound them all. -/
theorem nearest_range (canonical : Canonical m e) (nearest : Nearest m e d.value) :
    (2 : ℚ) ^ (-1075 : Int) < d.value ∧ d.value < 2 ^ (1024 : Int) := by
  have some : (1 : ℚ) ≤ m := by exact_mod_cast canonical.pos
  have high : (m : ℚ) + 1 ≤ 2 ^ (53 : Int) := by
    have : m + 1 ≤ 9007199254740992 := canonical.high
    norm_num
    exact_mod_cast this
  constructor
  · have half : (2 : ℚ) ^ (-1075 : Int) = 1 / 2 * 2 ^ (-1074 : Int) := by
      rw [show (-1075 : Int) = -1 + -1074 by norm_num, zpow_add₀ (by norm_num)]
      norm_num
    have least : (2 : ℚ) ^ (-1074 : Int) ≤ 2 ^ e :=
      zpow_le_zpow_right₀ (by norm_num) canonical.least
    have below : (2 : ℚ) ^ (-1075 : Int) ≤ ((m : ℚ) - 1 / 2) * 2 ^ e := by
      rw [half]
      exact mul_le_mul (by linarith) least (by positivity) (by linarith)
    rcases Nat.mod_two_eq_zero_or_one m with even | odd
    · -- an even mantissa is at least two
      have two : (2 : ℚ) ≤ m := by
        have pos := canonical.pos
        exact_mod_cast (by omega : 2 ≤ m)
      have place : (0 : ℚ) < 2 ^ e := by positivity
      refine lt_of_lt_of_le ?_ nearest.low
      rw [half]
      exact mul_lt_mul (by linarith) least (by positivity) (by linarith)
    · exact below.trans_lt (nearest.tie odd).1
  · calc d.value ≤ ((m : ℚ) + 1 / 2) * 2 ^ e := nearest.high
      _ < 2 ^ (53 : Int) * 2 ^ e := by
          have place : (0 : ℚ) < 2 ^ e := by positivity
          exact mul_lt_mul_of_pos_right (by linarith) place
      _ ≤ 2 ^ (53 : Int) * 2 ^ (971 : Int) := by
          have most : (2 : ℚ) ^ e ≤ 2 ^ (971 : Int) :=
            zpow_le_zpow_right₀ (by norm_num) canonical.most
          exact mul_le_mul_of_nonneg_left most (by positivity)
      _ = 2 ^ (1024 : Int) := by
          rw [← zpow_add₀ (by norm_num)]
          norm_num

/-- A decimal is read as the finite number that its value rounds to. -/
theorem toFloat_nearest (canonical : Canonical m e) (nearest : Nearest m e d.value)
    (negative : Bool) : Binary64.ofFloat (d.toFloat negative) = .finite negative m e := by
  obtain ⟨least, most⟩ := nearest_range canonical nearest
  have pos : 0 < d.coefficient := coefficient_pos least
  have low : -400 ≤ d.size := not_lt.mp fun small => (tiny_of_size small).not_gt least
  have high : d.size ≤ 400 := not_lt.mp fun large => (huge_of_size pos large).not_gt most
  have unsigned : Binary64.ofFloat (d.toFloat false) = .finite false m e := by
    rw [toFloat_placed canonical.placed nearest pos low high]
    exact canonical.ofFloat_float .positive
  cases negative with
  | false => exact unsigned
  | true =>
    change Binary64.ofFloat (-d.toFloat false) = _
    rw [Binary64.ofFloat_neg, unsigned]
    rfl

end Decimal

namespace Number

/-- Every finite number but the negative zero is read back from its text. -/
theorem reread_self {x : Float} (finite : x.isFinite = true) (unsigned : x ≠ -0.0) :
    reread x = x := by
  rw [← Binary64.isFinite_ofFloat] at finite
  cases pattern : Binary64.ofFloat x with
  | notANumber | infinite negative => simp [pattern, Binary64.isFinite] at finite
  | finite negative m e =>
    obtain ⟨sign, d, reads, meaning⟩ := readsAs_chars pattern
    have read := reads [] (by simp [Numeral.Ends])
    rw [List.append_nil] at read
    rw [reread_eq read]
    rcases meaning with ⟨rfl, none, rfl⟩ | ⟨pos, value, rfl⟩
    · have zero := Binary64.zero_of_ofFloat pattern
      cases negative with
      | true => exact absurd zero unsigned
      | false =>
        rw [zero, Numeral.toFloat, Decimal.toFloat, none]
        rfl
    · obtain ⟨canonical, _⟩ := Binary64.unpack_of_ofFloat pattern pos
      have nearest : Nearest m e d.value := value ▸ Decimal.nearest_shortest canonical
      exact Binary64.eq_of_ofFloat (Decimal.toFloat_nearest canonical nearest sign) pattern

end Number
end ProgramGym
