import Mathlib
import ProgramGym.Decimal.Shortest
import ProgramGym.Proofs.Decimal.Canonical

/-! Rounding to the nearest binary64 number. A mantissa with a round bit and a sticky bit stands for
an exact quotient, and shifting it right loses nothing that rounding looks at. Main statement: the
arithmetic rounds every quotient between the ends of the interval of a finite number to that
number, its own last place, the place below it and the numbers of short mantissa included. -/
namespace ProgramGym.Binary64
open Float.Model Float.Model.UnpackedFloat

/-- What a number exceeds its mantissa and its round bit by. -/
def rest (em : ExtendedMantissa) (x : ℚ) : ℚ := x - em.mantissa - if em.roundBit then 1 / 2 else 0

/-- An extended mantissa tells the number up to what lies below its round bit, and of that whether
there is any. -/
structure Represents (em : ExtendedMantissa) (x : ℚ) : Prop where
  nonneg : 0 ≤ rest em x
  small : rest em x < 1 / 2
  sticky : em.stickyBit = true ↔ 0 < rest em x

/-- The quotients that round to a finite number: half a last place around it, an end only where
the mantissa is even, and half as much where the places below are finer. -/
structure Nearest (m : Nat) (e : Int) (v : ℚ) : Prop where
  low : ((m : ℚ) - 1 / 2) * 2 ^ e ≤ v
  high : v ≤ ((m : ℚ) + 1 / 2) * 2 ^ e
  tie : m % 2 = 1 → ((m : ℚ) - 1 / 2) * 2 ^ e < v ∧ v < ((m : ℚ) + 1 / 2) * 2 ^ e
  finer : m = fractions → -1074 < e → ((m : ℚ) - 1 / 4) * 2 ^ e ≤ v

section
variable {em : ExtendedMantissa} {x : ℚ}

theorem represents_exact (m : Nat) :
    Represents (ExtendedMantissa.ofMantissaAndAccuracy m .exact) m := by
  constructor <;> simp [rest, ExtendedMantissa.ofMantissaAndAccuracy]

/-- A quotient of natural numbers, by its whole part and what is left of it. -/
theorem represents_quotient (n : Nat) {d : Nat} (pos : 0 < d) :
    Represents (ExtendedMantissa.ofMantissaAndAccuracy (n / d) (accuracyOfFraction (n % d) d))
      (n / d) := by
  have below : ((n % d : Nat) : ℚ) < d := by exact_mod_cast Nat.mod_lt n pos
  have divisor : (0 : ℚ) < d := by exact_mod_cast pos
  have split : (n : ℚ) / d = (n / d : Nat) + (n % d : Nat) / d := by
    have parts : (n : ℚ) = d * (n / d : Nat) + (n % d : Nat) := by
      exact_mod_cast (Nat.div_add_mod n d).symm
    field_simp
    linarith
  rw [split]
  generalize n % d = r at below
  unfold accuracyOfFraction
  split
  · next zero =>
    subst zero
    constructor <;> simp [rest, ExtendedMantissa.ofMantissaAndAccuracy]
  · next some =>
    have positive : (0 : ℚ) < r := by exact_mod_cast Nat.pos_of_ne_zero some
    have part : (0 : ℚ) < r / d := by positivity
    cases order : compare (2 * r) d with
    | lt =>
      have half : (r : ℚ) / d < 2⁻¹ := by
        rw [div_lt_iff₀ divisor]
        have : (2 * r : ℚ) < d := by exact_mod_cast Nat.compare_eq_lt.mp order
        linarith
      constructor <;> simp [rest, ExtendedMantissa.ofMantissaAndAccuracy, part, part.le, half]
    | eq =>
      have half : (r : ℚ) / d = 1 / 2 := by
        rw [div_eq_iff divisor.ne']
        have : (2 * r : ℚ) = d := by exact_mod_cast Nat.compare_eq_eq.mp order
        linarith
      constructor <;> simp [rest, ExtendedMantissa.ofMantissaAndAccuracy, half]
    | gt =>
      have half : 1 / 2 < (r : ℚ) / d := by
        rw [lt_div_iff₀ divisor]
        have : (d : ℚ) < 2 * r := by exact_mod_cast Nat.compare_eq_gt.mp order
        linarith
      have whole : (r : ℚ) / d < 1 := (div_lt_one divisor).mpr below
      refine ⟨?_, ?_, ?_⟩ <;> simp [rest, ExtendedMantissa.ofMantissaAndAccuracy] <;> linarith

theorem Represents.shiftRightOne (represents : Represents em x) :
    Represents em.shiftRightOne (x / 2) := by
  obtain ⟨nonneg, small, sticky⟩ := represents
  have parts : (em.mantissa : ℚ) = 2 * (em.mantissa / 2 : Nat) + (em.mantissa % 2 : Nat) := by
    exact_mod_cast (Nat.div_add_mod em.mantissa 2).symm
  have half : rest em.shiftRightOne (x / 2) =
      ((if em.roundBit then 1 / 2 else 0) + rest em x) / 2 := by
    simp only [rest, ExtendedMantissa.shiftRightOne]
    rcases Nat.mod_two_eq_zero_or_one em.mantissa with even | odd
    · rw [even] at parts
      simp only [even, bne_self_eq_false, Bool.false_eq_true, if_false]
      push_cast at parts
      linarith
    · rw [odd] at parts
      simp only [odd, Nat.one_ne_zero, bne_iff_ne, ne_eq, not_false_eq_true, if_true]
      push_cast at parts
      linarith
  refine ⟨?_, ?_, ?_⟩ <;> rw [half]
  · split <;> linarith
  · split <;> linarith
  · simp only [ExtendedMantissa.shiftRightOne, Bool.or_eq_true, sticky]
    split
    · next bit =>
      simp only [bit, true_or, true_iff]
      linarith
    · next bit =>
      simp only [bit, false_or, Bool.false_eq_true]
      constructor <;> intro some <;> linarith

theorem Represents.shiftRight (represents : Represents em x) (k : Nat) :
    Represents (em >>> k) (x / 2 ^ k) := by
  change Represents (k.repeat ExtendedMantissa.shiftRightOne em) _
  induction k with
  | zero => simpa [Nat.repeat] using represents
  | succ k ih =>
    have next := ih.shiftRightOne
    rwa [div_div, ← pow_succ] at next

theorem Represents.floor (represents : Represents em x) :
    (em.mantissa : ℚ) ≤ x ∧ x < em.mantissa + 1 := by
  obtain ⟨nonneg, small, _⟩ := represents
  unfold rest at nonneg small
  by_cases bit : em.roundBit = true
  · rw [if_pos bit] at nonneg small
    constructor <;> linarith
  · rw [if_neg bit] at nonneg small
    constructor <;> linarith

/-- Rounding takes the nearest whole number, and of two as near the even one. -/
theorem Represents.roundedMantissa (represents : Represents em x) {c : Nat}
    (low : (c : ℚ) - 1 / 2 ≤ x) (high : x ≤ c + 1 / 2)
    (tie : c % 2 = 1 → (c : ℚ) - 1 / 2 < x ∧ x < c + 1 / 2) : em.roundedMantissa = c := by
  obtain ⟨m, round, sticky⟩ := em
  obtain ⟨nonneg, small, some⟩ := represents
  have above (below : (m : ℚ) < c + 1) : m ≤ c := Nat.lt_succ_iff.mp (by exact_mod_cast below)
  have under (more : (c : ℚ) < m + 1) : c ≤ m := Nat.lt_succ_iff.mp (by exact_mod_cast more)
  have above' (below : (m : ℚ) < c) : m + 1 ≤ c := by exact_mod_cast below
  have under' (more : (c : ℚ) < m + 2) : c ≤ m + 1 :=
    Nat.lt_succ_iff.mp (by exact_mod_cast more)
  simp only [rest] at nonneg small some
  cases round <;> cases sticky <;>
    simp only [ExtendedMantissa.roundedMantissa, ExtendedMantissa.accuracy,
      Accuracy.roundToNearestEven, Bool.false_eq_true, if_false, if_true, false_iff, true_iff,
      not_lt] at nonneg small some ⊢
  · -- the number is whole
    exact le_antisymm (above (by linarith)) (under (by linarith))
  · exact le_antisymm (above (by linarith)) (under (by linarith))
  · -- a tie: the even one of the two
    have upper := above (by linarith)
    have lower := under' (by linarith)
    rcases Nat.mod_two_eq_zero_or_one c with even | odd
    · omega
    · obtain ⟨less, more⟩ := tie odd
      have same : c = m ∨ c = m + 1 := by omega
      rcases same with rfl | rfl
      · linarith
      · push_cast at less
        linarith
  · exact le_antisymm (above' (by linarith)) (under' (by linarith))

theorem mantissa_le_roundedMantissa (em : ExtendedMantissa) :
    em.mantissa ≤ em.roundedMantissa := by
  obtain ⟨m, round, sticky⟩ := em
  cases round <;> cases sticky <;>
    simp [ExtendedMantissa.roundedMantissa, ExtendedMantissa.accuracy,
      Accuracy.roundToNearestEven]

/-- Rounding does not pass a whole number. -/
theorem Represents.roundedMantissa_le (represents : Represents em x) {n : Nat} (bound : x ≤ n) :
    em.roundedMantissa ≤ n := by
  obtain ⟨m, round, sticky⟩ := em
  have nonneg := represents.nonneg
  simp only [rest] at nonneg
  cases round with
  | false =>
    have whole : m ≤ n := by exact_mod_cast represents.floor.1.trans bound
    cases sticky <;> exact whole
  | true =>
    have less : (m : ℚ) < n := by
      simp only [if_true] at nonneg
      linarith
    have less : m < n := by exact_mod_cast less
    cases sticky <;>
      simp only [ExtendedMantissa.roundedMantissa, ExtendedMantissa.accuracy,
        Accuracy.roundToNearestEven] <;> omega

end

section
variable {m mantissa : Nat} {e exponent k : Int} {v x : ℚ} {accuracy : Accuracy}

theorem mantissa_ofMantissaAndAccuracy (m : Nat) (accuracy : Accuracy) :
    (ExtendedMantissa.ofMantissaAndAccuracy m accuracy).mantissa = m := by
  cases accuracy with
  | exact => rfl
  | inexact order => cases order <;> rfl

variable (represents : Represents (ExtendedMantissa.ofMantissaAndAccuracy mantissa accuracy) x)
include represents

/-! The place of the first digit bounds a number from both sides. A mantissa may be zero where its
exponent is no larger than the least one. -/

theorem totalExponent_le (fine : fractions ≤ mantissa ∨ exponent ≤ -1074) (least : -1073 ≤ k)
    (below : x * 2 ^ exponent < 2 ^ k) : totalExponent mantissa exponent ≤ k := by
  unfold totalExponent
  rcases Nat.eq_zero_or_pos mantissa with rfl | pos
  · rcases fine with full | bottom
    · exact absurd full (by decide)
    · rw [Nat.log2_zero]
      omega
  · have floor := represents.floor.1
    rw [mantissa_ofMantissaAndAccuracy] at floor
    have digit : (2 : ℚ) ^ (mantissa.log2 : Int) ≤ x := by
      rw [zpow_natCast]
      calc (2 : ℚ) ^ mantissa.log2 = ((2 ^ mantissa.log2 : Nat) : ℚ) := by push_cast; rfl
        _ ≤ mantissa := by exact_mod_cast Nat.log2_self_le pos.ne'
        _ ≤ x := floor
    have first : (2 : ℚ) ^ ((mantissa.log2 : Int) + exponent) < 2 ^ k := by
      rw [zpow_add₀ (by norm_num)]
      exact lt_of_le_of_lt (mul_le_mul_of_nonneg_right digit (by positivity)) below
    have := (zpow_lt_zpow_iff_right₀ (by norm_num : (1 : ℚ) < 2)).mp first
    omega

theorem lt_totalExponent (above : (2 : ℚ) ^ k ≤ x * 2 ^ exponent) :
    k < totalExponent mantissa exponent := by
  have floor := represents.floor.2
  rw [mantissa_ofMantissaAndAccuracy] at floor
  have digit : x < (2 : ℚ) ^ ((mantissa.log2 : Int) + 1) := by
    calc x < ((mantissa + 1 : Nat) : ℚ) := by exact_mod_cast floor
      _ ≤ ((2 ^ (mantissa.log2 + 1) : Nat) : ℚ) := by exact_mod_cast Nat.lt_log2_self
      _ = (2 : ℚ) ^ ((mantissa.log2 : Int) + 1) := by
        push_cast
        exact (zpow_natCast (2 : ℚ) (mantissa.log2 + 1)).symm
  have first : (2 : ℚ) ^ k < 2 ^ ((mantissa.log2 : Int) + 1 + exponent) := by
    rw [zpow_add₀ (by norm_num)]
    exact lt_of_le_of_lt above (mul_lt_mul_of_pos_right digit (by positivity))
  exact (zpow_lt_zpow_iff_right₀ (by norm_num : (1 : ℚ) < 2)).mp first

omit represents

theorem targetExponent_eq (mantissa : Nat) (exponent : Int) :
    Format.binary64.targetExponent (totalExponent mantissa exponent) =
      max (totalExponent mantissa exponent - 53) (-1074) := rfl

/-- The exponent that a quotient is shifted to is that of the number it rounds to, unless it lies
in the finer places below a power of two. -/
theorem Nearest.target (placed : Placed m e) (nearest : Nearest m e (x * 2 ^ exponent))
    (represents : Represents (ExtendedMantissa.ofMantissaAndAccuracy mantissa accuracy) x)
    (fine : fractions ≤ mantissa ∨ exponent ≤ -1074) :
    Format.binary64.targetExponent (totalExponent mantissa exponent) = e ∨
    Format.binary64.targetExponent (totalExponent mantissa exponent) = e - 1 ∧ m = fractions ∧
      -1074 < e ∧ x * 2 ^ exponent < 2 ^ (e + 52) := by
  have least := placed.least
  have unit : (0 : ℚ) < 2 ^ e := by positivity
  have scaled (k : Int) : (2 : ℚ) ^ (e + k) = 2 ^ k * 2 ^ e := by
    rw [zpow_add₀ (by norm_num), mul_comm]
  have upper : totalExponent mantissa exponent ≤ e + 53 := by
    refine totalExponent_le represents fine (by omega) ?_
    have high : (m : ℚ) + 1 ≤ 2 ^ (53 : Int) := by
      have : m + 1 ≤ 9007199254740992 := placed.high
      norm_num
      exact_mod_cast this
    rw [scaled]
    refine lt_of_le_of_lt nearest.high (mul_lt_mul_of_pos_right ?_ unit)
    linarith
  rw [targetExponent_eq]
  rcases placed.full.symm with bottom | full
  · exact .inl (by omega)
  by_cases bottom : e = -1074
  · exact .inl (by omega)
  have lower : (4503599627370496 : ℚ) ≤ m := by exact_mod_cast full
  rcases lt_or_ge (x * 2 ^ exponent) (2 ^ (e + 52)) with below | above
  · -- only the least full mantissa has quotients below its own power of two
    have same : m = fractions := by
      have between := lt_of_le_of_lt nearest.low below
      rw [scaled, mul_lt_mul_iff_of_pos_right unit] at between
      norm_num at between
      have : (m : ℚ) < 4503599627370497 := by linarith
      exact le_antisymm (Nat.lt_succ_iff.mp (by exact_mod_cast this)) full
    have lower : e + 51 < totalExponent mantissa exponent := by
      refine lt_totalExponent represents (le_trans ?_ (nearest.finer same (by omega)))
      rw [scaled]
      refine mul_le_mul_of_nonneg_right ?_ unit.le
      calc (2 : ℚ) ^ (51 : Int) ≤ 4503599627370496 - 1 / 4 := by norm_num
        _ ≤ m - 1 / 4 := sub_le_sub_right lower _
    have upper : totalExponent mantissa exponent ≤ e + 52 :=
      totalExponent_le represents fine (by omega) below
    exact .inr ⟨by omega, same, by omega, below⟩
  · have := lt_totalExponent represents above
    exact .inl (by omega)

/-- A mantissa whose first rounding is known is shifted once more where it got a digit too many. -/
theorem roundWithAccuracy_eq (s : Sign) {em : ExtendedMantissa} {target : Int} (rounded : Nat)
    (first : shiftToTargetExponent Format.binary64 mantissa exponent accuracy = (em, target))
    (nearest : em.roundedMantissa = rounded)
    (second : (shiftToTargetExponent Format.binary64 rounded target .exact).1.mantissa = m ∧
      (shiftToTargetExponent Format.binary64 rounded target .exact).2 = e) (pos : 0 < m) :
    roundWithAccuracy Format.binary64 s mantissa exponent accuracy = .finite s m e pos := by
  obtain ⟨rfl, rfl⟩ := second
  unfold roundWithAccuracy
  simp only [first, nearest]
  exact dif_neg pos.ne'

theorem shift_eq {target : Int}
    (equal : Format.binary64.targetExponent (totalExponent mantissa exponent) = target)
    (reachable : exponent ≤ target) :
    shiftToTargetExponent Format.binary64 mantissa exponent accuracy =
      (ExtendedMantissa.ofMantissaAndAccuracy mantissa accuracy >>> (target - exponent).toNat,
        target) := by
  simp only [shiftToTargetExponent, shiftToExponent, equal]
  congr 1
  omega

theorem shift_none
    (reached : Format.binary64.targetExponent (totalExponent mantissa exponent) ≤ exponent) :
    shiftToTargetExponent Format.binary64 mantissa exponent accuracy =
      (ExtendedMantissa.ofMantissaAndAccuracy mantissa accuracy, exponent) := by
  simp only [shiftToTargetExponent, shiftToExponent]
  rw [Int.toNat_of_nonpos (by omega)]
  simp
  rfl

/-- A mantissa that was rounded to nothing is zero. -/
theorem roundWithAccuracy_zero (s : Sign) {em : ExtendedMantissa} {target : Int}
    (first : shiftToTargetExponent Format.binary64 mantissa exponent accuracy = (em, target))
    (nothing : em.roundedMantissa = 0) (least : -1074 ≤ target) :
    roundWithAccuracy Format.binary64 s mantissa exponent accuracy = .zero s := by
  have second : shiftToTargetExponent Format.binary64 0 target .exact =
      (ExtendedMantissa.ofMantissaAndAccuracy 0 .exact, target) := by
    refine shift_none ?_
    rw [targetExponent_eq, totalExponent, Nat.log2_zero]
    omega
  unfold roundWithAccuracy
  simp only [first, nothing, second]
  rfl

theorem target_reachable (fine : fractions ≤ mantissa ∨ exponent ≤ -1074) :
    exponent ≤ Format.binary64.targetExponent (totalExponent mantissa exponent) := by
  rw [targetExponent_eq, totalExponent]
  rcases fine with full | bottom
  · have some : mantissa ≠ 0 := fun zero => absurd (zero ▸ full) (by decide)
    have : 52 ≤ mantissa.log2 := (Nat.le_log2 some).mpr full
    omega
  · omega

/-- The quotient in units of the place that it is shifted to. -/
theorem shifted_value {target : Int} (reachable : exponent ≤ target) :
    x / 2 ^ (target - exponent).toNat * 2 ^ target = x * 2 ^ exponent := by
  have whole : (((target - exponent).toNat : Nat) : Int) = target - exponent := by omega
  rw [← zpow_natCast, whole, zpow_sub₀ (by norm_num)]
  field_simp

/-- Every quotient between the ends of the interval of a finite number rounds to it. -/
theorem roundWithAccuracy_nearest (placed : Placed m e) (s : Sign)
    (represents : Represents (ExtendedMantissa.ofMantissaAndAccuracy mantissa accuracy) x)
    (fine : fractions ≤ mantissa ∨ exponent ≤ -1074) (nearest : Nearest m e (x * 2 ^ exponent)) :
    roundWithAccuracy Format.binary64 s mantissa exponent accuracy =
      .finite s m e placed.pos := by
  have least := placed.least
  have reachable := target_reachable fine
  rcases nearest.target placed represents fine with target | ⟨target, same, above, below⟩
  · rw [target] at reachable
    refine roundWithAccuracy_eq s m (shift_eq target reachable) ?_ ?_ placed.pos
    · have unit : (0 : ℚ) < 2 ^ e := by positivity
      have scaled := shifted_value (x := x) reachable
      refine (represents.shiftRight _).roundedMantissa ?_ ?_ fun odd => ⟨?_, ?_⟩
      · exact le_of_mul_le_mul_right (by rw [scaled]; exact nearest.low) unit
      · exact le_of_mul_le_mul_right (by rw [scaled]; exact nearest.high) unit
      · exact lt_of_mul_lt_mul_right (by rw [scaled]; exact (nearest.tie odd).1) unit.le
      · exact lt_of_mul_lt_mul_right (by rw [scaled]; exact (nearest.tie odd).2) unit.le
    · rw [shift_eq placed.targetExponent le_rfl, sub_self]
      exact ⟨rfl, rfl⟩
  · subst same
    rw [target] at reachable
    refine roundWithAccuracy_eq s (2 * fractions) (shift_eq target reachable) ?_ ?_ placed.pos
    · -- rounding up to a digit too many
      have unit : (0 : ℚ) < 2 ^ (e - 1) := by positivity
      have scaled := shifted_value (x := x) reachable
      have double : (2 : ℚ) ^ e = 2 * 2 ^ (e - 1) := by
        rw [zpow_sub_one₀ (by norm_num)]
        ring
      have finer := nearest.finer rfl above
      have power : (2 : ℚ) ^ (e + 52) = (2 * fractions : Nat) * 2 ^ (e - 1) := by
        rw [zpow_add₀ (by norm_num), double]
        norm_num [fractions]
        ring
      rw [double, ← scaled, ← mul_assoc] at finer
      rw [power, ← scaled] at below
      have lower := le_of_mul_le_mul_right finer unit
      have upper := lt_of_mul_lt_mul_right below unit.le
      push_cast at lower upper
      have even : ¬ 2 * fractions % 2 = 1 := by omega
      refine (represents.shiftRight _).roundedMantissa ?_ ?_ fun odd => absurd odd even
      · push_cast
        linarith
      · push_cast
        linarith
    · have digits : Format.binary64.targetExponent (totalExponent (2 * fractions) (e - 1)) = e := by
        rw [targetExponent_eq, totalExponent, show (2 * fractions).log2 = 53 by decide +kernel]
        omega
      rw [shift_eq digits (by omega), show (e - (e - 1)).toNat = 1 by omega]
      exact ⟨rfl, rfl⟩

end

/-! The operations of the arithmetic, by the exact value that they round. -/

section
variable {m m₁ m₂ : Nat} {e e₁ e₂ : Int} {v : ℚ}

theorem nearest_self (m : Nat) (e : Int) : Nearest m e (m * 2 ^ e) := by
  have unit : (0 : ℚ) < 2 ^ e := by positivity
  constructor <;> intros <;> (try constructor) <;> nlinarith

theorem mul_nearest (placed : Placed m e) (s₁ s₂ : Sign) (pos₁ : 0 < m₁) (pos₂ : 0 < m₂)
    (fine : fractions ≤ m₁ * m₂ ∨ e₁ + e₂ ≤ -1074)
    (nearest : Nearest m e ((m₁ * 2 ^ e₁) * (m₂ * 2 ^ e₂))) :
    UnpackedFloat.mul Format.binary64 (.finite s₁ m₁ e₁ pos₁) (.finite s₂ m₂ e₂ pos₂) =
      .finite (s₁ * s₂) m e placed.pos := by
  refine roundWithAccuracy_nearest placed (s₁ * s₂) (represents_exact (m₁ * m₂)) fine ?_
  convert nearest using 1
  rw [zpow_add₀ (by norm_num)]
  push_cast
  ring

/-- The quotient of two mantissas is taken with all the digits that rounding needs. -/
theorem divCore_fine (pos₁ : 0 < m₁) (pos₂ : 0 < m₂) (e₁ e₂ : Int) :
    fractions ≤ (divCore Format.binary64 m₁ e₁ m₂ e₂).1 ∨
      (divCore Format.binary64 m₁ e₁ m₂ e₂).2.1 ≤ -1074 := by
  simp only [divCore]
  obtain ⟨target, chosen⟩ : ∃ target, target = min (e₁ - e₂)
      (Format.binary64.targetExponent (totalExponent m₁ e₁ - totalExponent m₂ e₂)) := ⟨_, rfl⟩
  rw [← chosen]
  rcases le_or_gt target (-1074) with bottom | above
  · exact .inr bottom
  left
  have digits : m₂.log2 + 53 ≤ m₁.log2 + (e₁ - e₂ - target).toNat := by
    simp only [Format.targetExponent, totalExponent, Format.minExponent, Format.mantissaBits]
      at chosen
    omega
  rw [Nat.le_div_iff_mul_le pos₂, Nat.shiftLeft_eq]
  calc fractions * m₂ ≤ 2 ^ 52 * 2 ^ (m₂.log2 + 1) :=
        Nat.mul_le_mul_left _ (Nat.lt_log2_self).le
    _ = 2 ^ (m₂.log2 + 53) := by rw [← pow_add]; congr 1; omega
    _ ≤ 2 ^ (m₁.log2 + (e₁ - e₂ - target).toNat) := Nat.pow_le_pow_right (by decide) digits
    _ = 2 ^ m₁.log2 * 2 ^ (e₁ - e₂ - target).toNat := pow_add ..
    _ ≤ m₁ * 2 ^ (e₁ - e₂ - target).toNat :=
        Nat.mul_le_mul_right _ (Nat.log2_self_le pos₁.ne')

/-- A quotient is rounded from enough of its digits. -/
theorem div_represents (s₁ s₂ : Sign) (e₁ e₂ : Int) (pos₁ : 0 < m₁) (pos₂ : 0 < m₂) :
    ∃ (mantissa : Nat) (exponent : Int) (accuracy : Accuracy) (x : ℚ),
      Represents (ExtendedMantissa.ofMantissaAndAccuracy mantissa accuracy) x ∧
      (fractions ≤ mantissa ∨ exponent ≤ -1074) ∧
      x * 2 ^ exponent = (m₁ * 2 ^ e₁) / (m₂ * 2 ^ e₂) ∧
      UnpackedFloat.div Format.binary64 (.finite s₁ m₁ e₁ pos₁) (.finite s₂ m₂ e₂ pos₂) =
        roundWithAccuracy Format.binary64 (s₁ / s₂) mantissa exponent accuracy := by
  have fine := divCore_fine pos₁ pos₂ e₁ e₂
  simp only [divCore] at fine
  have below : min (e₁ - e₂) (Format.binary64.targetExponent
      (totalExponent m₁ e₁ - totalExponent m₂ e₂)) ≤ e₁ - e₂ := min_le_left ..
  simp only [UnpackedFloat.div, divCore]
  generalize min (e₁ - e₂) _ = target at fine below
  refine ⟨_, _, _, _, represents_quotient _ pos₂, fine, ?_, rfl⟩
  have divisor : (m₂ : ℚ) ≠ 0 := by exact_mod_cast pos₂.ne'
  have shifted : ((m₁ <<< (e₁ - e₂ - target).toNat : Nat) : ℚ) =
      m₁ * (2 ^ (e₁ - e₂) / 2 ^ target) := by
    have whole : (((e₁ - e₂ - target).toNat : Nat) : Int) = e₁ - e₂ - target := by omega
    rw [Nat.shiftLeft_eq, ← zpow_sub₀ (by norm_num), ← whole, zpow_natCast]
    push_cast
    rfl
  rw [shifted, zpow_sub₀ (by norm_num)]
  field_simp

theorem div_nearest (placed : Placed m e) (s₁ s₂ : Sign) (pos₁ : 0 < m₁) (pos₂ : 0 < m₂)
    (nearest : Nearest m e ((m₁ * 2 ^ e₁) / (m₂ * 2 ^ e₂))) :
    UnpackedFloat.div Format.binary64 (.finite s₁ m₁ e₁ pos₁) (.finite s₂ m₂ e₂ pos₂) =
      .finite (s₁ / s₂) m e placed.pos := by
  obtain ⟨_, _, _, _, represents, fine, quotient, divided⟩ := div_represents s₁ s₂ e₁ e₂ pos₁ pos₂
  rw [divided]
  exact roundWithAccuracy_nearest placed (s₁ / s₂) represents fine (quotient ▸ nearest)

theorem round_nearest (placed : Placed m e) (s : Sign) (pos : 0 < m₁)
    (nearest : Nearest m e (m₁ * 2 ^ e₁)) :
    UnpackedFloat.round Format.binary64 s m₁ e₁ = .finite s m e placed.pos := by
  obtain ⟨k, shift⟩ : ∃ k, k =
      (e₁ - Format.binary64.targetExponent (totalExponent m₁ e₁)).toNat := ⟨_, rfl⟩
  simp only [UnpackedFloat.round, decreaseExponent, ← shift]
  have fine : fractions ≤ m₁ <<< k ∨ e₁ - (k : Int) ≤ -1074 := by
    rw [targetExponent_eq, totalExponent] at shift
    rcases le_or_gt (e₁ - (k : Int)) (-1074) with bottom | above
    · exact .inr bottom
    left
    rw [Nat.shiftLeft_eq]
    calc fractions = 2 ^ 52 := rfl
      _ ≤ 2 ^ (m₁.log2 + k) := Nat.pow_le_pow_right (by decide) (by omega)
      _ = 2 ^ m₁.log2 * 2 ^ k := pow_add ..
      _ ≤ m₁ * 2 ^ k := Nat.mul_le_mul_right _ (Nat.log2_self_le pos.ne')
  refine roundWithAccuracy_nearest placed s (represents_exact _) fine ?_
  convert nearest using 1
  rw [Nat.shiftLeft_eq, zpow_sub₀ (by norm_num), zpow_natCast]
  push_cast
  field_simp

end

end ProgramGym.Binary64
