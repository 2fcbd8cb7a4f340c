import Mathlib
import ProgramGym.Proofs.Decimal.Rounding

/-! The number nearest to a magnitude. Above half of the least number every rational has a mantissa
and an exponent that it rounds to, half of the least number and what is below it rounds to zero,
and rounding keeps the order. Main statements: those two cases are all there are, and a magnitude
that is not below a number of the format does not round below it. -/
namespace ProgramGym.Binary64
open Float.Model Float.Model.UnpackedFloat

section
variable {m n : Nat} {e t : Int} {q v : ℚ}

/-- The nearest natural number, and of two as near the even one. -/
theorem exists_nearest_nat (nonneg : 0 ≤ q) : ∃ c : Nat, (c : ℚ) - 1 / 2 ≤ q ∧ q ≤ c + 1 / 2 ∧
    (c % 2 = 1 → (c : ℚ) - 1 / 2 < q ∧ q < c + 1 / 2) := by
  have floor := Nat.floor_le nonneg
  have next := Nat.lt_floor_add_one q
  rcases lt_trichotomy q (⌊q⌋₊ + 1 / 2) with below | tie | above
  · exact ⟨⌊q⌋₊, by linarith, by linarith, fun _ => ⟨by linarith, by linarith⟩⟩
  · rcases Nat.mod_two_eq_zero_or_one ⌊q⌋₊ with even | odd
    · exact ⟨⌊q⌋₊, by linarith, by linarith, fun odd => by omega⟩
    · refine ⟨⌊q⌋₊ + 1, ?_, ?_, fun odd => by omega⟩ <;> push_cast <;> linarith
  · refine ⟨⌊q⌋₊ + 1, ?_, ?_, fun _ => ⟨?_, ?_⟩⟩ <;> push_cast <;> linarith

/-- The place of the last digit: 53 digits from the first one on, but not below the least place. -/
theorem exists_place (above : (2 : ℚ) ^ (-1075 : Int) < v) : ∃ e : Int, -1074 ≤ e ∧
    v < 2 ^ (53 : Int) * 2 ^ e ∧ (1 / 2 : ℚ) * 2 ^ e < v ∧
      (e = -1074 ∨ 2 ^ (52 : Int) * 2 ^ e ≤ v) := by
  have pos : 0 < v := lt_trans (by positivity) above
  have low := Int.zpow_log_le_self (b := 2) (by decide) pos
  have high := Int.lt_zpow_succ_log_self (b := 2) (by decide) v
  push_cast at low high
  refine ⟨max (Int.log 2 v - 52) (-1074), le_max_right .., ?_, ?_, ?_⟩
  · rw [← zpow_add₀ (by norm_num)]
    exact high.trans_le (zpow_le_zpow_right₀ (by norm_num) (by omega))
  · rcases le_total (Int.log 2 v - 52) (-1074) with bottom | full
    · rw [max_eq_right bottom]
      refine lt_of_eq_of_lt ?_ above
      rw [show (-1075 : Int) = -1 + -1074 by norm_num, zpow_add₀ (by norm_num)]
      norm_num
    · rw [max_eq_left full]
      refine lt_of_lt_of_le ?_ low
      rw [zpow_sub₀ (by norm_num)]
      have place : (0 : ℚ) < 2 ^ Int.log 2 v := by positivity
      norm_num
      linarith
  · rcases le_total (Int.log 2 v - 52) (-1074) with bottom | full
    · exact .inl (max_eq_right bottom)
    · refine .inr ?_
      rw [max_eq_left full, ← zpow_add₀ (by norm_num), add_sub_cancel]
      exact low

/-- Every magnitude above half of the least number rounds to a mantissa and an exponent. -/
theorem exists_nearest (above : (2 : ℚ) ^ (-1075 : Int) < v) :
    ∃ m e, Placed m e ∧ Nearest m e v := by
  obtain ⟨e, least, high, half, full⟩ := exists_place above
  have place : (0 : ℚ) < 2 ^ e := by positivity
  obtain ⟨q, scaled⟩ : ∃ q, q * 2 ^ e = v := ⟨v / 2 ^ e, div_mul_cancel₀ v place.ne'⟩
  rw [← scaled] at high half full ⊢
  have high := lt_of_mul_lt_mul_right high place.le
  have half := lt_of_mul_lt_mul_right half place.le
  have full := full.imp_right fun full => le_of_mul_le_mul_right full place
  norm_num at high full
  obtain ⟨c, lower, upper, tie⟩ := exists_nearest_nat (half.le.trans' (by norm_num))
  have some : 0 < c := by
    have : (0 : ℚ) < c := by linarith
    exact_mod_cast this
  have most : c ≤ 2 * fractions := by
    have : (c : ℚ) < 9007199254740993 := by linarith
    exact Nat.lt_succ_iff.mp (by exact_mod_cast this)
  have digits : fractions ≤ c ∨ e = -1074 := by
    refine full.symm.imp_left fun full => ?_
    have : (4503599627370495 : ℚ) < c := by linarith
    exact Nat.succ_le_of_lt (by exact_mod_cast this)
  rcases most.lt_or_eq with short | rfl
  · refine ⟨c, e, ⟨some, short, least, digits⟩, ?_⟩
    refine ⟨mul_le_mul_of_nonneg_right lower place.le, mul_le_mul_of_nonneg_right upper place.le,
      fun odd => ⟨mul_lt_mul_of_pos_right (tie odd).1 place,
        mul_lt_mul_of_pos_right (tie odd).2 place⟩, fun same finer => ?_⟩
    refine mul_le_mul_of_nonneg_right ?_ place.le
    have full := full.resolve_left (by omega)
    rw [same]
    norm_num [fractions]
    linarith
  · -- a digit too many: the least full mantissa, one place higher
    have double : (2 : ℚ) ^ (e + 1) = 2 * 2 ^ e := by rw [zpow_add_one₀ (by norm_num), mul_comm]
    push_cast [fractions] at lower
    norm_num at lower
    refine ⟨fractions, e + 1, ⟨by decide, by decide, by omega, .inl le_rfl⟩, ?_⟩
    refine ⟨?_, ?_, fun odd => absurd odd (by decide), fun _ _ => ?_⟩ <;>
      rw [double, ← mul_assoc] <;> refine mul_le_mul_of_nonneg_right ?_ place.le <;>
      norm_num [fractions] <;> linarith

/-- The numbers of the format lie apart: above one of them, the next one is a place higher. -/
theorem Placed.succ_le (first : Placed m e) (second : Placed n t)
    (below : (m : ℚ) * 2 ^ e < n * 2 ^ t) : ((m : ℚ) + 1) * 2 ^ e ≤ n * 2 ^ t := by
  rcases le_or_gt e t with coarser | finer
  · have whole : ((n * 2 ^ (t - e).toNat : Nat) : ℚ) * 2 ^ e = n * 2 ^ t := by
      have exponent : (((t - e).toNat : Nat) : Int) = t - e := by omega
      push_cast
      rw [← zpow_natCast, exponent, mul_assoc, ← zpow_add₀ (by norm_num), sub_add_cancel]
    have place : (0 : ℚ) < 2 ^ e := by positivity
    rw [← whole] at below ⊢
    have below := lt_of_mul_lt_mul_right below place.le
    refine mul_le_mul_of_nonneg_right ?_ place.le
    exact_mod_cast Nat.succ_le_of_lt (by exact_mod_cast below)
  · -- the first has all its digits, so it is at least as large as anything with a lower place
    have least := second.least
    have full : (4503599627370496 : ℚ) ≤ m := by
      exact_mod_cast first.full.resolve_right (by omega)
    have high : (n : ℚ) < 9007199254740992 := by exact_mod_cast second.high
    have place : (0 : ℚ) < 2 ^ t := by positivity
    have double : 2 * (2 : ℚ) ^ t ≤ 2 ^ e := by
      rw [← zpow_one_add₀ (by norm_num)]
      exact zpow_le_zpow_right₀ (by norm_num) (by omega)
    nlinarith

/-- What is not below a number of the format does not round below it. -/
theorem Nearest.le (nearest : Nearest m e v) (placed : Placed m e) (bound : Placed n t)
    (above : (n : ℚ) * 2 ^ t ≤ v) : (n : ℚ) * 2 ^ t ≤ m * 2 ^ e := by
  by_contra below
  have place : (0 : ℚ) < 2 ^ e := by positivity
  have next := placed.succ_le bound (not_le.mp below)
  have high := nearest.high
  nlinarith

/-- Half of the least number and what is below it rounds to zero. -/
theorem roundWithAccuracy_tiny {mantissa : Nat} {exponent : Int} {accuracy : Accuracy}
    (represents : Represents (ExtendedMantissa.ofMantissaAndAccuracy mantissa accuracy) q)
    (fine : fractions ≤ mantissa ∨ exponent ≤ -1074)
    (tiny : q * 2 ^ exponent ≤ 2 ^ (-1075 : Int)) (s : Sign) :
    roundWithAccuracy Format.binary64 s mantissa exponent accuracy = .zero s := by
  have digits : totalExponent mantissa exponent ≤ -1073 :=
    totalExponent_le represents fine le_rfl
      (tiny.trans_lt (zpow_lt_zpow_right₀ (by norm_num) (by norm_num)))
  have chosen : Format.binary64.targetExponent (totalExponent mantissa exponent) = -1074 := by
    rw [targetExponent_eq]
    omega
  have reachable : exponent ≤ -1074 := chosen ▸ target_reachable fine
  have scaled := shifted_value (x := q) reachable
  have half : (2 : ℚ) ^ (-1075 : Int) = 1 / 2 * 2 ^ (-1074 : Int) := by
    rw [show (-1075 : Int) = -1 + -1074 by norm_num, zpow_add₀ (by norm_num)]
    norm_num
  rw [← scaled, half] at tiny
  have upper := le_of_mul_le_mul_right tiny (by positivity)
  have rounded := represents.shiftRight (-1074 - exponent).toNat
  have lower := (Nat.cast_nonneg (α := ℚ) _).trans rounded.floor.1
  refine roundWithAccuracy_zero s (shift_eq chosen reachable) ?_ le_rfl
  refine rounded.roundedMantissa ?_ ?_ (by omega) <;> push_cast <;> linarith

end
end ProgramGym.Binary64
