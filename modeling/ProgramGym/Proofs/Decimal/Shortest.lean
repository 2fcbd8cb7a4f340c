import Mathlib
import ProgramGym.Proofs.Decimal.Scientific

/-! The fewest digits of a number. A point of a decimal grid is taken only if it lies in the
interval of the number, and the grid of seventeen digits is so fine that one of the two points
around the number does. Main statement: the digits that are written round to the number that they
were written for. -/
namespace ProgramGym.Decimal
open Binary64 (Magnitude Canonical Nearest fractions)

/-- The number that a coefficient and a power of ten stand for. -/
def value (d : Decimal) : ℚ := d.coefficient * 10 ^ d.exponent

theorem value_stripZeros (fuel : Nat) (d : Decimal) : (stripZeros fuel d).value = d.value := by
  induction fuel generalizing d with
  | zero => rfl
  | succ fuel ih =>
    rw [stripZeros]
    split
    · next tens =>
      simp only [Bool.and_eq_true, bne_iff_ne, beq_iff_eq] at tens
      have tenfold : (d.coefficient : ℚ) = 10 * (d.coefficient / 10 : Nat) := by
        exact_mod_cast (Nat.mul_div_cancel' (Nat.dvd_of_mod_eq_zero tens.2)).symm
      rw [ih, value, value, tenfold, zpow_add₀ (by norm_num)]
      simp only [zpow_one]
      ring
    · rfl

/-! The place of the first digit. -/

theorem digitCount_pos (n : Nat) : 0 < digitCount n := by
  rw [digitCount, Nat.toString_eq_ofList_toDigits, String.length_ofList]
  exact Nat.length_toDigits_pos

theorem digitCount_le_iff {n k : Nat} (pos : 0 < k) : digitCount n ≤ k ↔ n < 10 ^ k := by
  rw [digitCount, Nat.toString_eq_ofList_toDigits, String.length_ofList]
  exact Nat.length_toDigits_le_iff (by decide) pos

theorem lt_pow_digitCount (n : Nat) : n < 10 ^ digitCount n :=
  (digitCount_le_iff (digitCount_pos n)).mp le_rfl

theorem pow_digitCount_le {n : Nat} (pos : 0 < n) : 10 ^ (digitCount n - 1) ≤ n := by
  rcases Nat.eq_zero_or_pos (digitCount n - 1) with zero | more
  · rw [zero]
    exact pos
  · refine Nat.le_of_not_lt fun below => ?_
    have := (digitCount_le_iff more).mpr below
    omega

theorem reaches_tensToReach {fuel n d : Nat} (enough : d ≤ 10 ^ fuel * n) :
    d ≤ 10 ^ tensToReach fuel n d * n := by
  induction fuel generalizing n with
  | zero => exact enough
  | succ fuel ih =>
    rw [tensToReach]
    split
    · next reached => simpa using reached
    · have further := ih (n := 10 * n) (by rwa [← mul_assoc, ← pow_succ])
      rwa [pow_succ, mul_assoc]

/-- The power of ten at the first digit is no larger than the number. -/
theorem pow_order_le {m : Magnitude} (numerator : 0 < m.numerator)
    (denominator : 0 < m.denominator) :
    (10 : ℚ) ^ (order m - 1) ≤ m.numerator / m.denominator := by
  have divisor : (0 : ℚ) < m.denominator := by exact_mod_cast denominator
  rw [le_div_iff₀ divisor]
  unfold order
  split
  · next whole =>
    have pos : 0 < m.whole := Nat.div_pos whole denominator
    have digits := digitCount_pos m.whole
    have exponent : ((digitCount m.whole : Nat) : Int) - 1 = ((digitCount m.whole - 1 : Nat) : Int) :=
      by omega
    have below : 10 ^ (digitCount m.whole - 1) * m.denominator ≤ m.numerator :=
      (Nat.mul_le_mul_right _ (pow_digitCount_le pos)).trans (Nat.div_mul_le_self ..)
    rw [exponent, zpow_natCast]
    exact_mod_cast below
  · have enough : m.denominator ≤ 10 ^ (m.denominator.log2 + 1) * m.numerator := by
      calc m.denominator ≤ 2 ^ (m.denominator.log2 + 1) := Nat.lt_log2_self.le
        _ ≤ 10 ^ (m.denominator.log2 + 1) := Nat.pow_le_pow_left (by decide) _
        _ ≤ 10 ^ (m.denominator.log2 + 1) * m.numerator := Nat.le_mul_of_pos_right _ numerator
    have reached := reaches_tensToReach enough
    generalize tensToReach (m.denominator.log2 + 1) m.numerator m.denominator = k at reached
    rw [Int.ofNat_eq_natCast, show (1 : Int) - k - 1 = -k by ring, zpow_neg, zpow_natCast,
      inv_mul_le_iff₀ (by positivity)]
    exact_mod_cast reached

/-! Points of a grid. -/

/-- Whether a point lies between two ends, or on one of them where they belong to it. -/
def within (low high : Nat) (closed : Bool) (point : Nat) : Bool :=
  if closed then low ≤ point && point ≤ high else low < point && point < high

section
variable {low val high denominator c : Nat} {closed : Bool}

theorem within_of_gridPoint? (found : gridPoint? low val high closed denominator = some c) :
    within low high closed (c * denominator) = true := by
  unfold gridPoint? at found
  dsimp only at found
  split at found
  · next below _ => exact Option.some.inj found ▸ below
  · next above => exact Option.some.inj found ▸ above
  · cases found
  · next below above =>
    split at found
    · exact Option.some.inj found ▸ below
    split at found
    · exact Option.some.inj found ▸ above
    · have chosen := Option.some.inj found
      split at chosen
      · exact chosen ▸ below
      · exact chosen ▸ above

/-- There is a point if one of the two around the number is. -/
theorem gridPoint?_isSome
    (some : within low high closed (val / denominator * denominator) = true ∨
      within low high closed ((val / denominator + 1) * denominator) = true) :
    ∃ c, gridPoint? low val high closed denominator = .some c := by
  unfold gridPoint?
  dsimp only
  split
  · exact ⟨_, rfl⟩
  · exact ⟨_, rfl⟩
  · next below above =>
    rcases some with below' | above'
    · exact absurd (below'.symm.trans below) (by decide)
    · exact absurd (above'.symm.trans above) (by decide)
  · split
    · exact ⟨_, rfl⟩
    · split <;> exact ⟨_, rfl⟩

end

theorem scale_pos_denominator {unit : Magnitude} (pos : 0 < unit.denominator) (power : Int) :
    0 < (scale unit power).denominator := by
  cases power with
  | ofNat p => exact Nat.mul_pos pos (Nat.pow_pos (by decide))
  | negSucc p => exact pos

theorem scale_value (unit : Magnitude) (power : Int) :
    ((scale unit power).numerator : ℚ) / (scale unit power).denominator =
      unit.numerator / unit.denominator / 10 ^ power := by
  cases power with
  | ofNat p =>
    simp only [scale, Nat.pow_eq, Int.ofNat_eq_natCast, zpow_natCast]
    push_cast
    rw [div_div]
  | negSucc p =>
    simp only [scale, Nat.pow_eq, zpow_negSucc]
    push_cast
    rw [div_inv_eq_mul]
    ring

section
variable {m : Nat} {e : Int}

/-- The grid of a power of ten in quarters of the last place of a number. -/
def grid (e power : Int) : Magnitude := scale (Binary64.magnitude 1 (e - 2)) power

/-- The unit of a grid: numerators count quarters of the last place, denominators powers of ten. -/
theorem grid_unit (e power : Int) : ∃ unit : ℚ, 0 < unit ∧
    ((grid e power).numerator : ℚ) = 2 ^ e / 4 * unit ∧
    ((grid e power).denominator : ℚ) = 10 ^ power * unit := by
  have positive : 0 < (grid e power).denominator :=
    scale_pos_denominator (Binary64.magnitude_pos_denominator 1 (e - 2)) power
  have divisor : (0 : ℚ) < (grid e power).denominator := by exact_mod_cast positive
  have ratio := scale_value (Binary64.magnitude 1 (e - 2)) power
  change ((grid e power).numerator : ℚ) / (grid e power).denominator = _ at ratio
  rw [Binary64.magnitude_value, Nat.cast_one, one_mul, zpow_sub₀ (by norm_num),
    div_eq_iff divisor.ne'] at ratio
  refine ⟨(grid e power).denominator / 10 ^ power, by positivity, ?_, by field_simp⟩
  rw [ratio]
  norm_num
  field_simp

theorem interval_low (pos : 0 < m) (e : Int) : ((interval m e).low : ℚ) / 4 =
    m - if m = fractions ∧ -1074 < e then 1 / 4 else 1 / 2 := by
  simp only [interval, beq_iff_eq, Bool.and_eq_true, decide_eq_true_eq, gt_iff_lt]
  split
  · rw [Nat.cast_sub (by omega)]
    push_cast
    ring
  · rw [Nat.cast_sub (by omega)]
    push_cast
    ring

theorem interval_high (m : Nat) (e : Int) : ((interval m e).high : ℚ) / 4 = m + 1 / 2 := by
  simp only [interval]
  push_cast
  ring

/-- A point of a grid between the ends of an interval, the ends as the numbers that they are. -/
theorem within_grid (power : Int) (c : Nat) :
    within ((interval m e).low * (grid e power).numerator)
      ((interval m e).high * (grid e power).numerator) (interval m e).closed
      (c * (grid e power).denominator) = true ↔
    if m % 2 = 0 then
      ((interval m e).low : ℚ) / 4 * 2 ^ e ≤ c * 10 ^ power ∧
        (c : ℚ) * 10 ^ power ≤ (interval m e).high / 4 * 2 ^ e
    else
      ((interval m e).low : ℚ) / 4 * 2 ^ e < c * 10 ^ power ∧
        (c : ℚ) * 10 ^ power < (interval m e).high / 4 * 2 ^ e := by
  obtain ⟨unit, positive, numerator, denominator⟩ := grid_unit e power
  have end_ (a : Nat) :
      ((a * (grid e power).numerator : Nat) : ℚ) = (a : ℚ) / 4 * 2 ^ e * unit := by
    push_cast
    rw [numerator]
    ring
  have point :
      ((c * (grid e power).denominator : Nat) : ℚ) = (c : ℚ) * 10 ^ power * unit := by
    push_cast
    rw [denominator]
    ring
  have closed : (interval m e).closed = true ↔ m % 2 = 0 := beq_iff_eq
  simp only [within, closed]
  split
  · rw [Bool.and_eq_true, decide_eq_true_iff, decide_eq_true_iff, ← Nat.cast_le (α := ℚ),
      ← Nat.cast_le (α := ℚ), end_, end_, point, mul_le_mul_iff_of_pos_right positive,
      mul_le_mul_iff_of_pos_right positive]
  · rw [Bool.and_eq_true, decide_eq_true_iff, decide_eq_true_iff, ← Nat.cast_lt (α := ℚ),
      ← Nat.cast_lt (α := ℚ), end_, end_, point, mul_lt_mul_iff_of_pos_right positive,
      mul_lt_mul_iff_of_pos_right positive]

/-- A point that reads back is a number that rounds to the one the interval is for. -/
theorem nearest_of_within (pos : 0 < m) {power : Int} {c : Nat}
    (found : within ((interval m e).low * (grid e power).numerator)
      ((interval m e).high * (grid e power).numerator) (interval m e).closed
      (c * (grid e power).denominator) = true) : Nearest m e (c * 10 ^ power) := by
  have place : (0 : ℚ) < 2 ^ e := by positivity
  have half : (m : ℚ) - 1 / 2 ≤ m - if m = fractions ∧ -1074 < e then 1 / 4 else 1 / 2 := by
    split <;> linarith
  have lower := mul_le_mul_of_nonneg_right half place.le
  have found := (within_grid power c).mp found
  rw [interval_low pos, interval_high] at found
  split at found
  · next even =>
    refine ⟨lower.trans found.1, found.2, fun odd => by omega, fun least finer => ?_⟩
    simpa only [if_pos (And.intro least finer)] using found.1
  · next odd =>
    refine ⟨lower.trans found.1.le, found.2.le, fun _ => ⟨lower.trans_lt found.1, found.2⟩, ?_⟩
    rintro rfl
    exact absurd rfl odd

theorem within_of_between (pos : 0 < m) {power : Int} {c : Nat}
    (low : ((m : ℚ) - if m = fractions ∧ -1074 < e then 1 / 4 else 1 / 2) * 2 ^ e < c * 10 ^ power)
    (high : (c : ℚ) * 10 ^ power < (m + 1 / 2) * 2 ^ e) :
    within ((interval m e).low * (grid e power).numerator)
      ((interval m e).high * (grid e power).numerator) (interval m e).closed
      (c * (grid e power).denominator) = true := by
  rw [within_grid, interval_low pos, interval_high]
  split
  · exact ⟨low.le, high.le⟩
  · exact ⟨low, high⟩

/-- The two points of a grid around a number. -/
theorem grid_floor (m : Nat) (e power : Int) :
    let c := (interval m e).value * (grid e power).numerator / (grid e power).denominator
    (c : ℚ) * 10 ^ power ≤ m * 2 ^ e ∧ m * 2 ^ e < ((c + 1 : Nat) : ℚ) * 10 ^ power := by
  obtain ⟨unit, positive, numerator, denominator⟩ := grid_unit e power
  intro c
  have number : (((interval m e).value * (grid e power).numerator : Nat) : ℚ) =
      m * 2 ^ e * unit := by
    simp only [interval]
    push_cast
    rw [numerator]
    ring
  have point (c : Nat) :
      ((c * (grid e power).denominator : Nat) : ℚ) = (c : ℚ) * 10 ^ power * unit := by
    push_cast
    rw [denominator]
    ring
  have divisor : 0 < (grid e power).denominator := by
    have : (0 : ℚ) < (grid e power).denominator := by rw [denominator]; positivity
    exact_mod_cast this
  constructor
  · rw [← mul_le_mul_iff_of_pos_right positive, ← point, ← number, Nat.cast_le]
    exact Nat.div_mul_le_self ..
  · rw [← mul_lt_mul_iff_of_pos_right positive, ← point, ← number, Nat.cast_lt]
    exact (Nat.div_lt_iff_lt_mul divisor).mp (Nat.lt_succ_self c)

/-- The grid of seventeen digits is finer than the places of a number. -/
theorem seventeen (canonical : Canonical m e) {power : Int}
    (fine : (10 : ℚ) ^ (power + 16) ≤ m * 2 ^ e) :
    ∃ c, gridPoint? ((interval m e).low * (grid e power).numerator)
      ((interval m e).value * (grid e power).numerator)
      ((interval m e).high * (grid e power).numerator) (interval m e).closed
      (grid e power).denominator = some c := by
  have place : (0 : ℚ) < 2 ^ e := by positivity
  have high : (m : ℚ) < 9007199254740992 := by exact_mod_cast canonical.high
  obtain ⟨lower, upper⟩ := grid_floor m e power
  apply gridPoint?_isSome
  generalize (interval m e).value * (grid e power).numerator / (grid e power).denominator = c
    at lower upper
  rw [zpow_add₀ (by norm_num)] at fine
  norm_num at fine
  push_cast at upper
  by_cases finer : m = fractions ∧ -1074 < e
  · -- the point above is nearer than half a place
    have least : (m : ℚ) = 4503599627370496 := by
      rw [finer.1]
      rfl
    refine .inr (within_of_between canonical.pos ?_ ?_)
    · rw [if_pos finer]
      push_cast
      nlinarith
    · rw [least] at lower fine ⊢
      push_cast
      linarith
  · have step : (10 : ℚ) ^ power < 1 * 2 ^ e := by nlinarith
    rcases lt_or_ge ((m : ℚ) * 2 ^ e - c * 10 ^ power) (1 / 2 * 2 ^ e) with near | far
    · refine .inl (within_of_between canonical.pos ?_ ?_)
      · rw [if_neg finer]
        linarith
      · linarith
    · refine .inr (within_of_between canonical.pos ?_ ?_)
      · rw [if_neg finer]
        push_cast
        linarith
      · push_cast
        linarith

/-- The search ends with a point that reads back, at seventeen digits at the latest. -/
theorem nearest_searchGrids (canonical : Canonical m e) {order : Int}
    (first : (10 : ℚ) ^ (order - 1) ≤ m * 2 ^ e) {fuel digits : Nat} (some : 1 ≤ fuel)
    (all : fuel + digits = 18) :
    Nearest m e (searchGrids (interval m e) (Binary64.magnitude 1 (e - 2)) order fuel digits).value := by
  induction fuel generalizing digits with
  | zero => exact absurd some (by decide)
  | succ fuel ih =>
    rw [searchGrids]
    split
    · next c found =>
      rw [value_stripZeros]
      exact nearest_of_within canonical.pos (within_of_gridPoint? found)
    · next missed =>
      rcases Nat.eq_zero_or_pos fuel with rfl | more
      · have last : order - Int.ofNat digits + 16 = order - 1 := by
          rw [Int.ofNat_eq_natCast]
          omega
        obtain ⟨c, found⟩ := seventeen canonical (last ▸ first)
        exact absurd (missed.symm.trans found) (by simp)
      · exact ih more (by omega)

/-- The digits that are written for a number round to it. -/
theorem nearest_shortest (canonical : Canonical m e) : Nearest m e (shortest m e).value := by
  rw [shortest, if_neg (by simpa using canonical.pos.ne')]
  refine nearest_searchGrids canonical ?_ (by decide) rfl
  rw [← Binary64.magnitude_value]
  refine pow_order_le ?_ (Binary64.magnitude_pos_denominator m e)
  cases e with
  | ofNat e => exact Nat.mul_pos canonical.pos (Nat.pow_pos (by decide))
  | negSucc e => exact canonical.pos

end

end ProgramGym.Decimal
