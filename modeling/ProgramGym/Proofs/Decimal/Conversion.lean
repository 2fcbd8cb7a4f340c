import Mathlib
import ProgramGym.Proofs.Decimal.Nearest
import ProgramGym.Proofs.Decimal.Scientific
import ProgramGym.Proofs.Decimal.Shortest

/-! Decimals as binary64 numbers, over the whole range. Main statement: a decimal is converted to
the nearest number, and of two as near to the one of even mantissa; to zero up to half of the least
number, and to an infinity from half a place above the largest one on. -/
namespace ProgramGym

namespace Binary64
open Float.Model Float.Model.UnpackedFloat

/-- What a magnitude with a sign is rounded to. -/
inductive RoundsTo (negative : Bool) (v : ℚ) : Binary64 → Prop where
  | zero (tiny : v ≤ 2 ^ (-1075 : Int)) : RoundsTo negative v (.finite negative 0 (-1074))
  | finite {m : Nat} {e : Int} (canonical : Canonical m e) (nearest : Nearest m e v) :
      RoundsTo negative v (.finite negative m e)
  | infinite (huge : (2 ^ 53 - 1 / 2) * 2 ^ (971 : Int) ≤ v) :
      RoundsTo negative v (.infinite negative)

/-- The other sign. -/
def flip : Binary64 → Binary64
  | .notANumber => .notANumber
  | .infinite negative => .infinite !negative
  | .finite negative m e => .finite (!negative) m e

theorem RoundsTo.flip {negative : Bool} {v : ℚ} {x : Binary64} (rounds : RoundsTo negative v x) :
    RoundsTo (!negative) v x.flip := by
  cases rounds with
  | zero tiny => exact .zero tiny
  | finite canonical nearest => exact .finite canonical nearest
  | infinite huge => exact .infinite huge

section
variable {m c k : Nat} {e : Int}

theorem ofFloat_neg (x : Float) : ofFloat (-x) = (ofFloat x).flip := by
  have rounded := rounded_unpack x.toModel.toBits.toBitVec
  change Rounded x.toModel.unpack at rounded
  rw [ofFloat_eq, ofFloat_eq]
  have negated : (-x).toModel.unpack = x.toModel.unpack.neg := by
    refine unpack_pack ?_
    cases unpacked : x.toModel.unpack with
    | notANumber | infinity | zero => trivial
    | finite s m e pos =>
      rw [unpacked] at rounded
      exact rounded
  rw [negated]
  cases x.toModel.unpack with
  | notANumber => rfl
  | infinity s | zero s | finite s => cases s <;> rfl

/-- An exponent that is too large is packed as infinity. -/
theorem Placed.unpack_float_large (placed : Placed m e) (large : 971 < e) (s : Sign) :
    (placed.float s).toModel.unpack = .infinity s := by
  have packed : UnpackedFloat.pack Format.binary64 (.finite s m e placed.pos) =
      packedInfinity Format.binary64 s := by
    unfold UnpackedFloat.pack
    simp only [Format.exponentBias]
    exact if_pos (by omega)
  change unpack Format.binary64 (UnpackedFloat.pack Format.binary64 _) = _
  rw [packed]
  exact unpack_pack (u := .infinity s) trivial

/-- What a magnitude is nearest to is packed as what it rounds to. -/
theorem roundsTo_float {v : ℚ} (placed : Placed m e) (nearest : Nearest m e v) :
    RoundsTo false v (ofFloat (placed.float .positive)) := by
  rcases le_or_gt e 971 with small | large
  · have canonical := placed.canonical small
    have pattern : ofFloat (placed.float .positive) = .finite false m e :=
      canonical.ofFloat_float .positive
    rw [pattern]
    exact .finite canonical nearest
  · rw [ofFloat_eq, placed.unpack_float_large large]
    refine .infinite ?_
    have full : fractions ≤ m := placed.full.resolve_right (by omega)
    have place : (2 : ℚ) * 2 ^ (971 : Int) ≤ 2 ^ e := by
      rw [← zpow_one_add₀ (by norm_num)]
      exact zpow_le_zpow_right₀ (by norm_num) (by omega)
    have low : (2 ^ 52 - 1 / 4 : ℚ) * 2 ^ e ≤ v := by
      rcases full.eq_or_lt with same | more
      · have finer := nearest.finer same.symm (by omega)
        rw [← same] at finer
        norm_num [fractions] at finer ⊢
        exact finer
      · refine le_trans (mul_le_mul_of_nonneg_right ?_ (by positivity)) nearest.low
        have : (4503599627370497 : ℚ) ≤ m := by exact_mod_cast more
        norm_num
        linarith
    refine le_trans ?_ low
    calc (2 ^ 53 - 1 / 2 : ℚ) * 2 ^ (971 : Int) = (2 ^ 52 - 1 / 4) * (2 * 2 ^ (971 : Int)) := by
          ring
      _ ≤ (2 ^ 52 - 1 / 4) * 2 ^ e := mul_le_mul_of_nonneg_left place (by norm_num)

/-- A quotient of no more than half of the least number is zero. -/
theorem ofScientific_tiny (pos : 0 < c) (tiny : (c : ℚ) / 10 ^ k ≤ 2 ^ (-1075 : Int)) :
    (Float.ofScientific c true k).toModel.unpack = .zero .positive := by
  have some : (1 : ℚ) ≤ c := by exact_mod_cast pos
  have many : 22 < k := by
    by_contra few
    have power : (10 : ℚ) ^ k ≤ 10 ^ 22 := pow_le_pow_right₀ (by norm_num) (not_lt.mp few)
    have least : (1 : ℚ) / 10 ^ 22 ≤ c / 10 ^ k := by gcongr
    have less : (2 : ℚ) ^ (-1075 : Int) < 2 ^ (-100 : Int) :=
      zpow_lt_zpow_right₀ (by norm_num) (by norm_num)
    exact absurd ((least.trans tiny).trans_lt less) (by norm_num)
  have exact : UnpackedFloat.ofScientific Format.binary64 c (Int.negOfNat k) = .zero .positive := by
    rw [show Int.negOfNat k = -(k : Int) from Int.negOfNat_eq]
    unfold UnpackedFloat.ofScientific
    rw [dif_neg pos.ne', if_neg (by simp)]
    split
    · rfl
    rw [if_neg (by omega)]
    obtain ⟨_, _, _, _, represents, fine, quotient, divided⟩ :=
      div_represents .positive .positive 0 0 pos (Nat.pow_pos (n := (-(-(k : Int))).toNat)
        (by decide : 0 < 10))
    rw [divided]
    refine roundWithAccuracy_tiny represents fine ?_ _
    rw [quotient]
    simpa using tiny
  rw [Float.ofScientific, dif_neg (by omega)]
  refine Eq.trans (congrArg (fun u => unpack Format.binary64 (UnpackedFloat.pack _ u)) exact) ?_
  exact unpack_pack (u := .zero .positive) trivial

end
end Binary64

namespace Decimal
open Binary64
variable {m : Nat} {e : Int} {d : Decimal}

/-- How many digits stand before the point. -/
def size (d : Decimal) : Int := digitCount d.coefficient + d.exponent

theorem value_lt (d : Decimal) : d.value < 10 ^ d.size := by
  rw [value, size, zpow_add₀ (by norm_num), zpow_natCast]
  exact mul_lt_mul_of_pos_right (by exact_mod_cast lt_pow_digitCount d.coefficient) (by positivity)

theorem le_value (pos : 0 < d.coefficient) : 10 ^ (d.size - 1) ≤ d.value := by
  have digits := digitCount_pos d.coefficient
  rw [value, size, show (digitCount d.coefficient : Int) + d.exponent - 1 =
    ((digitCount d.coefficient - 1 : Nat) : Int) + d.exponent by omega,
    zpow_add₀ (by norm_num), zpow_natCast]
  exact mul_le_mul_of_nonneg_right (by exact_mod_cast pow_digitCount_le pos) (by positivity)

theorem coefficient_pos (above : (2 : ℚ) ^ (-1075 : Int) < d.value) : 0 < d.coefficient := by
  refine Nat.pos_of_ne_zero fun zero => ?_
  rw [value, zero, Nat.cast_zero, zero_mul] at above
  exact absurd above (by simp)

theorem two_zpow_le_ten (k : Nat) : (2 : ℚ) ^ (3 * k) ≤ 10 ^ k := by
  rw [pow_mul]
  exact pow_le_pow_left₀ (by norm_num) (by norm_num) k

/-- Far below the point everything is less than half of the least number. -/
theorem tiny_of_size (small : d.size < -400) : d.value ≤ 2 ^ (-1075 : Int) := by
  refine (value_lt d).le.trans ?_
  calc (10 : ℚ) ^ d.size ≤ 10 ^ (-(401 : Nat) : Int) :=
        zpow_le_zpow_right₀ (by norm_num) (by omega)
    _ ≤ 2 ^ (-(3 * 401 : Nat) : Int) := by
        rw [zpow_neg, zpow_neg, zpow_natCast, zpow_natCast]
        exact inv_anti₀ (by positivity) (two_zpow_le_ten 401)
    _ ≤ 2 ^ (-1075 : Int) := zpow_le_zpow_right₀ (by norm_num) (by norm_num)

/-- With that many digits before the point it is more than the largest number. -/
theorem huge_of_size (pos : 0 < d.coefficient) (large : 400 < d.size) :
    2 ^ (1024 : Int) ≤ d.value := by
  refine le_trans ?_ (le_value pos)
  calc (2 : ℚ) ^ (1024 : Int) ≤ 2 ^ ((3 * 400 : Nat) : Int) :=
        zpow_le_zpow_right₀ (by norm_num) (by norm_num)
    _ ≤ 10 ^ ((400 : Nat) : Int) := by
        rw [zpow_natCast, zpow_natCast]
        exact two_zpow_le_ten 400
    _ ≤ 10 ^ (d.size - 1) := zpow_le_zpow_right₀ (by norm_num) (by omega)

/-- What coefficient and exponent come to where the exponent is not out of all range. -/
theorem toFloat_eq (pos : 0 < d.coefficient) (low : -400 ≤ d.size) (high : d.size ≤ 400) :
    d.toFloat false = match d.exponent with
      | .ofNat e => Float.ofScientific d.coefficient false e
      | .negSucc e => Float.ofScientific d.coefficient true (e + 1) := by
  unfold size at low high
  unfold toFloat
  dsimp only
  rw [if_neg (by decide), if_neg (by simp [pos.ne']; omega)]
  exact if_neg (by simp; omega)

theorem toFloat_infinity (pos : 0 < d.coefficient) (large : 400 < d.size) :
    d.toFloat false = Number.infinity := by
  unfold size at large
  unfold toFloat
  dsimp only
  rw [if_neg (by decide), if_neg (by simp [pos.ne']; omega), if_pos (by simp; omega)]

theorem toFloat_zero (none : d.coefficient = 0 ∨ d.size < -400) : d.toFloat false = 0 := by
  unfold size at none
  unfold toFloat
  dsimp only
  rw [if_neg (by decide), if_pos (by simpa using none)]

/-- Where a decimal has a nearest number, it is converted to it. -/
theorem toFloat_placed (placed : Placed m e) (nearest : Nearest m e d.value)
    (pos : 0 < d.coefficient) (low : -400 ≤ d.size) (high : d.size ≤ 400) :
    d.toFloat false = placed.float .positive := by
  have digits := digitCount_pos d.coefficient
  rw [toFloat_eq pos low high]
  unfold size at low high
  split
  · next e whole =>
    rw [whole, Int.ofNat_eq_natCast] at high
    refine Binary64.ofScientific_nearest placed pos false (by simp; omega) ?_
    rw [value, whole] at nearest
    simpa using nearest
  · next e fraction =>
    rw [fraction] at low
    have few : digitCount d.coefficient - 1 ≤ d.coefficient.log2 := by
      rw [Nat.le_log2 pos.ne']
      exact (Nat.pow_le_pow_left (by decide) _).trans (pow_digitCount_le pos)
    refine Binary64.ofScientific_nearest placed pos true (by simp; omega) ?_
    rw [value, fraction, zpow_negSucc, ← div_eq_mul_inv] at nearest
    exact nearest

/-- A decimal of no more than half of the least number is converted to zero. -/
theorem toFloat_tiny (tiny : d.value ≤ 2 ^ (-1075 : Int)) :
    ofFloat (d.toFloat false) = .finite false 0 (-1074) := by
  have zero : ofFloat 0 = .finite false 0 (-1074) := by decide +kernel
  by_cases none : d.coefficient = 0 ∨ d.size < -400
  · rw [toFloat_zero none, zero]
  obtain ⟨some, low⟩ := not_or.mp none
  have pos := Nat.pos_of_ne_zero some
  have least : (1 : ℚ) ≤ d.coefficient := by exact_mod_cast pos
  have less : (2 : ℚ) ^ (-1075 : Int) < 1 := zpow_lt_one_of_neg₀ (by norm_num) (by norm_num)
  have high : d.size ≤ 400 := by
    by_contra large
    have power : (1 : ℚ) ≤ 2 ^ (1024 : Int) := one_le_zpow₀ (by norm_num) (by norm_num)
    exact absurd (power.trans (huge_of_size pos (not_le.mp large))) (tiny.trans_lt less).not_ge
  rw [toFloat_eq pos (not_lt.mp low) high, ofFloat_eq]
  split
  · next e whole =>
    rw [value, whole] at tiny
    have power : (1 : ℚ) ≤ 10 ^ (Int.ofNat e) := one_le_zpow₀ (by norm_num) (by simp)
    nlinarith
  · next e fraction =>
    rw [value, fraction, zpow_negSucc, ← div_eq_mul_inv] at tiny
    rw [ofScientific_tiny pos tiny]
    rfl

theorem roundsTo_unsigned (d : Decimal) : RoundsTo false d.value (ofFloat (d.toFloat false)) := by
  rcases le_or_gt d.value (2 ^ (-1075 : Int)) with tiny | above
  · rw [toFloat_tiny tiny]
    exact .zero tiny
  have pos := coefficient_pos above
  have low : -400 ≤ d.size := by
    by_contra small
    exact absurd (tiny_of_size (not_le.mp small)) above.not_ge
  rcases le_or_gt d.size 400 with high | large
  · obtain ⟨m, e, placed, nearest⟩ := exists_nearest above
    rw [toFloat_placed placed nearest pos low high]
    exact roundsTo_float placed nearest
  · have pattern : ofFloat Number.infinity = .infinite false := by decide +kernel
    rw [toFloat_infinity pos large, pattern]
    refine .infinite (le_trans ?_ (huge_of_size pos large))
    rw [show (1024 : Int) = 53 + 971 by norm_num, zpow_add₀ (by norm_num)]
    exact mul_le_mul_of_nonneg_right (by norm_num) (by positivity)

/-- A decimal with a sign is converted to what it rounds to. -/
theorem roundsTo_toFloat (d : Decimal) (negative : Bool) :
    RoundsTo negative d.value (ofFloat (d.toFloat negative)) := by
  have unsigned := roundsTo_unsigned d
  cases negative with
  | false => exact unsigned
  | true =>
    change RoundsTo true d.value (ofFloat (-d.toFloat false))
    rw [ofFloat_neg]
    exact unsigned.flip

end Decimal
end ProgramGym
