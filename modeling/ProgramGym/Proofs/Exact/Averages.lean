import Mathlib
import ProgramGym.Proofs.Exact.Vectors

/-! Averages of exact numbers. The average of no numbers is zero, as is their spread, which is the
average distance from the average, squared. Main statements: means and variances of reals are these,
in whatever order the reals come; the spread is not negative, and it is the average of the squares
less the square of the average. -/
namespace ProgramGym
noncomputable section

def average (xs : List ℝ) : ℝ := xs.sum / xs.length

def spread (xs : List ℝ) : ℝ := average (xs.map fun x => (x - average xs) ^ 2)

variable {xs ys : List ℝ}

theorem average_perm (same : xs.Perm ys) : average xs = average ys := by
  rw [average, average, same.sum_eq, same.length_eq]

theorem average_nil : average [] = 0 := by
  rw [average, List.sum_nil, zero_div]

theorem average_eq_zero_iff : average xs = 0 ↔ xs.sum = 0 := by
  rw [average, div_eq_zero_iff, Nat.cast_eq_zero, List.length_eq_zero_iff]
  constructor
  · rintro (zero | rfl)
    · exact zero
    · exact List.sum_nil
  · exact .inl

theorem spread_perm (same : xs.Perm ys) : spread xs = spread ys := by
  rw [spread, spread, average_perm same]
  exact average_perm (same.map _)

theorem spread_nonneg (xs : List ℝ) : 0 ≤ spread xs := by
  refine div_nonneg (List.sum_nonneg fun y inside => ?_) (Nat.cast_nonneg _)
  obtain ⟨x, _, rfl⟩ := List.mem_map.mp inside
  exact sq_nonneg _

theorem sum_sq_sub (m : ℝ) (xs : List ℝ) : (xs.map fun x => (x - m) ^ 2).sum =
    (xs.map (· ^ 2)).sum - 2 * m * xs.sum + xs.length * m ^ 2 := by
  induction xs with
  | nil => simp
  | cons x xs ih =>
    simp only [List.map_cons, List.sum_cons, List.length_cons, ih, Nat.cast_succ]
    ring

theorem spread_eq (xs : List ℝ) : spread xs = average (xs.map (· ^ 2)) - average xs ^ 2 := by
  cases xs with
  | nil => simp [spread, average]
  | cons x xs =>
    have count : ((x :: xs).length : ℝ) ≠ 0 := Nat.cast_ne_zero.mpr (Nat.succ_ne_zero _)
    rw [spread, average, sum_sq_sub, average, average, List.length_map, List.length_map]
    field_simp
    ring

/-- The average of a test is the share of what it holds of. -/
theorem average_indicator {β : Type} (p : β → Bool) (bs : List β) :
    average (bs.map fun b => if p b then 1 else 0) = bs.countP p / bs.length := by
  have total : (bs.map fun b => if p b then (1 : ℝ) else 0).sum = bs.countP p := by
    induction bs with
    | nil => simp
    | cons b bs ih =>
      rw [List.map_cons, List.sum_cons, ih, List.countP_cons, Nat.cast_add, add_comm]
      split <;> simp
  rw [average, total, List.length_map]

namespace Exact

theorem map_real_eq_row (xs : List ℝ) : xs.map real = row xs.get := by
  have all : (List.ofFn xs.get).map real = row xs.get := List.map_ofFn
  rwa [List.ofFn_get] at all

theorem sum_reals (xs : List ℝ) : Scalar.sum (xs.map real) = real xs.sum := by
  rw [map_real_eq_row, sum_row]
  exact congrArg real (Fin.sum_univ_getElem xs)

theorem mean_reals (xs : List ℝ) : Scalar.mean (xs.map real) = real (average xs) := by
  rw [Scalar.mean, sum_reals, List.length_map, nat_eq, average]
  cases xs with
  | nil => simp
  | cons x xs => exact real_div (Nat.cast_ne_zero.mpr (Nat.succ_ne_zero _))

/-- A share of none is zero. -/
theorem share_real {β : Type} (p : β → Bool) (bs : List β) :
    (if bs.isEmpty then Scalar.nat 0 else Scalar.nat (bs.filter p).length / Scalar.nat bs.length) =
      real (bs.countP p / bs.length) := by
  rw [List.countP_eq_length_filter, nat_eq, nat_eq, nat_eq]
  cases bs with
  | nil => simp
  | cons b bs => exact real_div (Nat.cast_ne_zero.mpr (Nat.succ_ne_zero _))

/-- A variance is the mean of the distances from the mean, squared. -/
theorem variance_eq_mean {α : Type} [Scalar α] (xs : List α) : Scalar.variance xs =
    Scalar.mean (xs.map fun x => Scalar.square (x - Scalar.mean xs)) := by
  rw [Scalar.variance, Scalar.mean.eq_def (xs.map _), Scalar.sum, List.foldl_map, List.isEmpty_map,
    List.length_map]

theorem variance_reals (xs : List ℝ) : Scalar.variance (xs.map real) = real (spread xs) := by
  have distance (x : ℝ) :
      Scalar.square (real x - real (average xs)) = real ((x - average xs) ^ 2) := by
    rw [real_sub, Scalar.square, real_mul, sq]
  calc Scalar.variance (xs.map real)
    _ = Scalar.mean (xs.map fun x => Scalar.square (real x - real (average xs))) := by
      rw [variance_eq_mean, mean_reals, List.map_map]
      rfl
    _ = Scalar.mean ((xs.map fun x => (x - average xs) ^ 2).map real) := by
      rw [List.map_map]
      exact congrArg Scalar.mean (List.map_congr_left fun x _ => distance x)
    _ = real (spread xs) := mean_reals _

theorem sqrt_real {x : ℝ} (nonneg : 0 ≤ x) : Scalar.sqrt (real x) = real √x := by
  have below : ¬ (x : EReal) < 0 := by exact_mod_cast not_lt.mpr nonneg
  exact (if_neg below).trans (if_neg (EReal.coe_ne_top x))

end Exact
end
end ProgramGym
