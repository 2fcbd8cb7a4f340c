import Mathlib
import ProgramGym.Proofs.Decimal.Rounding

/-! Numbers with a power of ten. Where coefficient and power are binary64 numbers the arithmetic
multiplies or divides these two, elsewhere it takes exact ones. Main statement: either way it gives
the number that the exact value rounds to. -/
namespace ProgramGym.Binary64
open Float.Model Float.Model.UnpackedFloat

section
variable {m n : Nat} {e : Int} {x : Float}

/-- The number with a sign, a mantissa and an exponent. -/
def Canonical.float (canonical : Canonical m e) (s : Sign) : Float :=
  .ofModel (.pack (.finite s m e canonical.pos))

/-- The number that is packed of what rounding leaves, infinite where the exponent is too large. -/
def Placed.float (placed : Placed m e) (s : Sign) : Float :=
  .ofModel (.pack (.finite s m e placed.pos))

theorem Canonical.unpack_float (canonical : Canonical m e) (s : Sign) :
    (canonical.float s).toModel.unpack = .finite s m e canonical.pos :=
  unpack_pack (u := .finite s m e canonical.pos) canonical

theorem Canonical.ofFloat_float (canonical : Canonical m e) (s : Sign) :
    ofFloat (canonical.float s) = .finite (isNegative s) m e := by
  rw [ofFloat_eq, canonical.unpack_float]
  rfl

/-- A pattern with some mantissa is that of a number that can be unpacked. -/
theorem unpack_of_ofFloat {negative : Bool} (pattern : ofFloat x = .finite negative m e)
    (pos : 0 < m) : Canonical m e ∧ ∃ s, isNegative s = negative ∧
      x.toModel.unpack = .finite s m e pos := by
  have rounded := rounded_unpack x.toModel.toBits.toBitVec
  change Rounded x.toModel.unpack at rounded
  rw [ofFloat_eq] at pattern
  cases unpacked : x.toModel.unpack with
  | notANumber | infinity s =>
    rw [unpacked] at pattern
    cases pattern
  | zero s =>
    rw [unpacked] at pattern
    obtain ⟨_, rfl, _⟩ := Binary64.finite.inj pattern
    exact absurd pos (by decide)
  | finite s m' e' pos' =>
    rw [unpacked] at pattern rounded
    obtain ⟨sign, rfl, rfl⟩ := Binary64.finite.inj pattern
    exact ⟨rounded, s, sign, rfl⟩

theorem magnitude_pos_denominator (m : Nat) (e : Int) : 0 < (magnitude m e).denominator := by
  cases e with
  | ofNat k => exact Nat.one_pos
  | negSucc k => exact Nat.pow_pos (by decide)

/-- A magnitude is the number that mantissa and exponent stand for. -/
theorem magnitude_value (m : Nat) (e : Int) :
    ((magnitude m e).numerator : ℚ) / (magnitude m e).denominator = m * 2 ^ e := by
  cases e with
  | ofNat k => simp [magnitude]
  | negSucc k =>
    simp only [magnitude, Nat.pow_eq, zpow_negSucc]
    push_cast
    rfl

theorem toNat?_eq_some : toNat? (.finite false m e) = some n ↔ (n : ℚ) = m * 2 ^ e := by
  have pos := magnitude_pos_denominator m e
  have divisor : ((magnitude m e).denominator : ℚ) ≠ 0 := by exact_mod_cast pos.ne'
  rw [← magnitude_value, eq_div_iff divisor]
  simp only [toNat?, Magnitude.isWhole, Magnitude.whole, beq_iff_eq, Option.ite_none_right_eq_some,
    Option.some_inj]
  constructor
  · rintro ⟨divides, rfl⟩
    exact_mod_cast Nat.div_mul_cancel (Nat.dvd_of_mod_eq_zero divides)
  · intro same
    have same : n * (magnitude m e).denominator = (magnitude m e).numerator := by
      exact_mod_cast same
    rw [← same]
    exact ⟨Nat.mul_mod_left .., Nat.mul_div_cancel _ pos⟩

/-- A positive whole number has all its digits. -/
theorem Canonical.full_of_whole (canonical : Canonical m e) (pos : 0 < n)
    (value : (n : ℚ) = m * 2 ^ e) : fractions ≤ m := by
  rcases canonical.full with full | bottom
  · exact full
  · have large {k : Nat} (scale : 52 ≤ k) (value : (n : ℚ) = m * 2 ^ (-(k : Int))) :
        fractions ≤ m := by
      rw [zpow_neg, ← div_eq_mul_inv, eq_div_iff (by positivity), zpow_natCast] at value
      have scaled : n * 2 ^ k = m := by exact_mod_cast value
      calc fractions = 1 * 2 ^ 52 := rfl
        _ ≤ n * 2 ^ k := Nat.mul_le_mul pos (Nat.pow_le_pow_right (by decide) scale)
        _ = m := scaled
    exact large (k := 1074) (by decide) (bottom ▸ value)

/-- A whole number of at most 53 bits. -/
theorem canonical_ofNat (pos : 0 < n) (small : n < 2 ^ 53) :
    ∃ m e, Canonical m e ∧ fractions ≤ m ∧ (n : ℚ) = m * 2 ^ e := by
  have log : n.log2 < 53 := (Nat.log2_lt pos.ne').mpr small
  have scale : 2 ^ n.log2 * 2 ^ (52 - n.log2) = fractions := by
    rw [← pow_add, show n.log2 + (52 - n.log2) = 52 by omega]
    rfl
  have low : fractions ≤ n * 2 ^ (52 - n.log2) := by
    rw [← scale]
    exact Nat.mul_le_mul_right _ (Nat.log2_self_le pos.ne')
  have high : n * 2 ^ (52 - n.log2) < 2 * fractions := by
    calc n * 2 ^ (52 - n.log2) < 2 ^ (n.log2 + 1) * 2 ^ (52 - n.log2) :=
          Nat.mul_lt_mul_of_pos_right Nat.lt_log2_self (by positivity)
      _ = 2 * (2 ^ n.log2 * 2 ^ (52 - n.log2)) := by ring
      _ = 2 * fractions := by rw [scale]
  refine ⟨_, n.log2 - 52, ⟨by positivity, high, by omega, by omega, .inl low⟩, low, ?_⟩
  have back : (n.log2 : Int) - 52 = -((52 - n.log2 : Nat) : Int) := by omega
  rw [back, zpow_neg, zpow_natCast]
  push_cast
  field_simp

end

/-- A positive count, unpacked. -/
theorem unpack_of_toNat? {x : Float} {n : Nat} (whole : Number.toNat? x = some n) (pos : 0 < n) :
    ∃ (m : Nat) (e : Int) (canonical : Canonical m e),
      x.toModel.unpack = .finite .positive m e canonical.pos ∧ (n : ℚ) = m * 2 ^ e := by
  unfold Number.toNat? at whole
  cases pattern : ofFloat x with
  | notANumber | infinite negative =>
    rw [pattern] at whole
    cases whole
  | finite negative m e =>
    rw [pattern] at whole
    cases negative with
    | true => cases whole
    | false =>
      have value := toNat?_eq_some.mp whole
      have some : 0 < m := Nat.pos_of_ne_zero fun zero => by
        rw [zero, Nat.cast_zero, zero_mul] at value
        exact pos.ne' (by exact_mod_cast value)
      obtain ⟨canonical, s, sign, unpacked⟩ := unpack_of_ofFloat pattern some
      cases s with
      | negative => cases sign
      | positive => exact ⟨m, e, canonical, unpacked, value⟩

/-- The entries of the table of powers of ten are exact. -/
theorem powersOfTen : ∀ k : Fin Float.exactlyRepresentablePowersOfTen.size,
    Number.toNat? Float.exactlyRepresentablePowersOfTen[k] = some (10 ^ k.val) := by
  decide +kernel

theorem powerOfTen {k : Nat} (bound : k < Float.exactlyRepresentablePowersOfTen.size) :
    ∃ (p : Nat) (q : Int) (canonical : Canonical p q), fractions ≤ p ∧ (10 : ℚ) ^ k = p * 2 ^ q ∧
      Float.exactlyRepresentablePowersOfTen[k].toModel.unpack =
        .finite .positive p q canonical.pos := by
  have entry : Number.toNat? Float.exactlyRepresentablePowersOfTen[k] = some (10 ^ k) :=
    powersOfTen ⟨k, bound⟩
  have pos : 0 < 10 ^ k := by positivity
  obtain ⟨p, q, canonical, unpacked, value⟩ := unpack_of_toNat? entry pos
  refine ⟨p, q, canonical, canonical.full_of_whole pos value, ?_, unpacked⟩
  exact_mod_cast value

/-! The two ways to a number. -/

section
variable {m c k : Nat} {e : Int}

theorem toFloat_ofNat {p n : Nat} {q : Int} (canonical : Canonical p q) (pos : 0 < n)
    (small : n < 2 ^ 53) (value : (n : ℚ) = p * 2 ^ q) :
    n.toUInt64.toFloat.toModel.unpack = .finite .positive p q canonical.pos := by
  have word : n.toUInt64.toNat = n := by
    simp only [Nat.toUInt64_eq, UInt64.toNat_ofNat']
    omega
  have rounded : UnpackedFloat.ofNat Format.binary64 n = .finite .positive p q canonical.pos := by
    unfold UnpackedFloat.ofNat UnpackedFloat.ofInt UnpackedFloat.normalize
    rw [show compare (n : Int) 0 = .gt from Int.compare_eq_gt.mpr (by exact_mod_cast pos)]
    refine round_nearest canonical.placed .positive pos ?_
    rw [Int.toNat_natCast, zpow_zero, mul_one, value]
    exact nearest_self p q
  change unpack Format.binary64 (UnpackedFloat.pack Format.binary64
    (UnpackedFloat.ofNat Format.binary64 n.toUInt64.toNat)) = _
  rw [word, rounded]
  exact unpack_pack (u := .finite .positive p q canonical.pos) canonical

theorem mul_float (placed : Placed m e) {x y : Float}
    (product : UnpackedFloat.mul Format.binary64 x.toModel.unpack y.toModel.unpack =
      .finite .positive m e placed.pos) : x * y = placed.float .positive :=
  congrArg (fun u => Float.ofModel (.pack u)) product

theorem div_float (placed : Placed m e) {x y : Float}
    (quotient : UnpackedFloat.div Format.binary64 x.toModel.unpack y.toModel.unpack =
      .finite .positive m e placed.pos) : x / y = placed.float .positive :=
  congrArg (fun u => Float.ofModel (.pack u)) quotient

variable (placed : Placed m e) (pos : 0 < c)
include placed pos

/-- A coefficient and a power of ten that are both exact are multiplied or divided. -/
theorem ofScientific_fast (small : c < 2 ^ 53) (few : k ≤ 22) (negative : Bool)
    (nearest : Nearest m e (if negative then c / 10 ^ k else c * 10 ^ k)) :
    Float.ofScientific c negative k = placed.float .positive := by
  obtain ⟨p, q, canonical₁, full₁, value₁⟩ := canonical_ofNat pos small
  obtain ⟨p', q', canonical₂, full₂, value₂, unpacked₂⟩ := powerOfTen (Nat.lt_succ_of_le few)
  have unpacked₁ := toFloat_ofNat canonical₁ pos small value₁
  rw [Float.ofScientific, dif_pos ⟨small, few⟩]
  cases negative with
  | true =>
    simp only [if_true] at nearest ⊢
    apply div_float placed
    refine (congrArg₂ (UnpackedFloat.div Format.binary64) unpacked₁ unpacked₂).trans ?_
    exact div_nearest placed .positive .positive canonical₁.pos canonical₂.pos
      (by rw [← value₁, ← value₂]; exact nearest)
  | false =>
    simp only [Bool.false_eq_true, if_false] at nearest ⊢
    apply mul_float placed
    refine (congrArg₂ (UnpackedFloat.mul Format.binary64) unpacked₁ unpacked₂).trans ?_
    have fine : fractions ≤ p * p' := full₁.trans (Nat.le_mul_of_pos_right p canonical₂.pos)
    exact mul_nearest placed .positive .positive canonical₁.pos canonical₂.pos (.inl fine)
      (by rw [← value₁, ← value₂]; exact nearest)

/-- Any other is taken exactly, unless its power is out of all range. -/
theorem ofScientific_exact {power : Int} (low : -(2048 + (c.log2 : Int)) ≤ power)
    (high : power ≤ 2048) (nearest : Nearest m e (c * 10 ^ power)) :
    UnpackedFloat.ofScientific Format.binary64 c power = .finite .positive m e placed.pos := by
  unfold UnpackedFloat.ofScientific
  rw [dif_neg pos.ne', if_neg (by simpa using high), if_neg (by simpa using low)]
  split
  · next whole =>
    refine mul_nearest placed .positive .positive _ _ (.inl ?_) ?_
    · rw [Nat.shiftLeft_eq]
      calc fractions ≤ 1 * 2 ^ 53 * 1 := by decide
        _ ≤ c * 2 ^ 53 * 10 ^ power.toNat :=
          Nat.mul_le_mul (Nat.mul_le_mul_right _ pos) (Nat.pow_pos (by decide))
    · convert nearest using 1
      rw [Nat.shiftLeft_eq, ← Int.toNat_of_nonneg whole, zpow_natCast, Int.toNat_natCast,
        zpow_zero, mul_one, zpow_neg, zpow_natCast]
      push_cast
      field_simp
  · next fraction =>
    refine div_nearest placed .positive .positive _ _ ?_
    convert nearest using 1
    have whole : (((-power).toNat : Nat) : Int) = -power := by omega
    rw [zpow_zero, mul_one, mul_one, div_eq_mul_inv]
    push_cast
    rw [← zpow_natCast, whole, zpow_neg, inv_inv]

/-- Coefficient and power give the number that their exact value rounds to. -/
theorem ofScientific_nearest (negative : Bool)
    (range : k ≤ if negative then 2048 + c.log2 else 2048)
    (nearest : Nearest m e (if negative then c / 10 ^ k else c * 10 ^ k)) :
    Float.ofScientific c negative k = placed.float .positive := by
  by_cases fast : c < 2 ^ 53 ∧ k ≤ 22
  · exact ofScientific_fast placed pos fast.1 fast.2 negative nearest
  · rw [Float.ofScientific, dif_neg fast]
    refine congrArg (fun u => Float.ofModel (.pack u)) ?_
    cases negative with
    | true =>
      rw [if_pos rfl] at range nearest ⊢
      rw [show Int.negOfNat k = -(k : Int) from Int.negOfNat_eq]
      refine ofScientific_exact placed pos (by omega) (by omega) ?_
      rwa [zpow_neg, zpow_natCast, ← div_eq_mul_inv]
    | false =>
      simp only [Bool.false_eq_true, if_false, Int.ofNat_eq_natCast] at range nearest ⊢
      refine ofScientific_exact placed pos (by omega) (by omega) ?_
      rwa [zpow_natCast]

end

end ProgramGym.Binary64
