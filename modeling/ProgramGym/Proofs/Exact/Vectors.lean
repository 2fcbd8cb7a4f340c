import Mathlib
import ProgramGym.Linear
import ProgramGym.Proofs.Exact.Numbers

/-! Linear learners' arithmetic over exact numbers. A vector of reals is a list of exact numbers, a
matrix the list of its rows. Main statements: products, maxima, probabilities and returns of such
lists are those of linear algebra. -/
namespace ProgramGym
noncomputable section
namespace Exact
open Matrix

def row {n : ℕ} (v : Fin n → ℝ) : List Exact := List.ofFn fun j => real (v j)

def matrix {m n : ℕ} (W : Matrix (Fin m) (Fin n) ℝ) : List (List Exact) :=
  List.ofFn fun a => row (W a)

section
variable {m n : ℕ}

theorem row_succ (v : Fin (n + 1) → ℝ) : row v = real (v 0) :: row (Fin.tail v) := List.ofFn_succ

@[simp] theorem length_row (v : Fin n → ℝ) : (row v).length = n := List.length_ofFn

@[simp] theorem length_matrix (W : Matrix (Fin m) (Fin n) ℝ) : (matrix W).length = m :=
  List.length_ofFn

@[simp] theorem getElem_row (v : Fin n → ℝ) (j : ℕ) (bound : j < (row v).length) :
    (row v)[j] = real (v ⟨j, by simpa using bound⟩) := List.getElem_ofFn bound

@[simp] theorem getElem_matrix (W : Matrix (Fin m) (Fin n) ℝ) (a : ℕ)
    (bound : a < (matrix W).length) : (matrix W)[a] = row (W ⟨a, by simpa using bound⟩) :=
  List.getElem_ofFn bound

theorem map_row {v w : Fin n → ℝ} {f : Exact → Exact} (each : ∀ j, f (real (v j)) = real (w j)) :
    (row v).map f = row w := by
  rw [row, List.map_ofFn]
  exact congrArg List.ofFn (funext each)

theorem getD_row (v : Fin n → ℝ) (j : Fin n) (default : Exact) :
    (row v).getD j default = real (v j) := by
  rw [List.getD_eq_getElem _ _ (by simp), getElem_row]

theorem getD_matrix (W : Matrix (Fin m) (Fin n) ℝ) (a : Fin m) (default : List Exact) :
    (matrix W).getD a default = row (W a) := by
  rw [List.getD_eq_getElem _ _ (by simp), getElem_matrix]

theorem set_matrix (W : Matrix (Fin m) (Fin n) ℝ) (a : Fin m) (v : Fin n → ℝ) :
    (matrix W).set a (row v) = matrix (W.updateRow a v) := by
  refine List.ext_getElem (by simp) fun b first second => ?_
  rw [List.getElem_set]
  split
  · next same =>
    have same : (⟨b, by simpa using second⟩ : Fin m) = a := Fin.ext same.symm
    rw [getElem_matrix, same, updateRow_self]
  · next other =>
    have other : (⟨b, by simpa using second⟩ : Fin m) ≠ a := fun same => other (same ▸ rfl)
    rw [getElem_matrix, getElem_matrix, updateRow_ne other]

/-! Sums from the front, with what was summed before. -/

theorem dotFrom_row (s : ℝ) (v w : Fin n → ℝ) :
    Linear.dotFrom (real s) (row v) (row w) = real (s + v ⬝ᵥ w) := by
  induction n generalizing s with
  | zero => simp [row, Linear.dotFrom]
  | succ n ih =>
    rw [row_succ, row_succ, Linear.dotFrom, real_mul, real_add, ih, dotProduct, dotProduct,
      Fin.sum_univ_succ, add_assoc]
    rfl

theorem dot_row (v w : Fin n → ℝ) : Linear.dot (row v) (row w) = real (v ⬝ᵥ w) := by
  rw [Linear.dot, nat_eq, Nat.cast_zero, dotFrom_row, zero_add]

theorem foldl_add_row (s : ℝ) (z : Fin n → ℝ) :
    (row z).foldl (· + ·) (real s) = real (s + ∑ i, z i) := by
  induction n generalizing s with
  | zero => simp [row]
  | succ n ih =>
    rw [row_succ, List.foldl_cons, real_add, ih, Fin.sum_univ_succ, add_assoc]
    rfl

theorem sum_row (z : Fin n → ℝ) : Scalar.sum (row z) = real (∑ i, z i) := by
  rw [Scalar.sum, nat_eq, Nat.cast_zero, foldl_add_row, zero_add]

theorem addScaled_row (v w : Fin n → ℝ) (c : ℝ) :
    Linear.addScaled (row v) (real c) (row w) = row (v + c • w) := by
  refine List.ext_getElem (by simp [Linear.addScaled]) fun j first second => ?_
  simp [Linear.addScaled]

theorem addScaled_matrix (V W : Matrix (Fin m) (Fin n) ℝ) (c : ℝ) :
    List.zipWith (fun row direction => Linear.addScaled row (real c) direction) (matrix V)
      (matrix W) = matrix (V + c • W) := by
  refine List.ext_getElem (by simp) fun a first second => ?_
  rw [List.getElem_zipWith, getElem_matrix, getElem_matrix, addScaled_row, getElem_matrix]
  rfl

/-- The values of rows of weights. -/
theorem dots_matrix (W : Matrix (Fin m) (Fin n) ℝ) (x : Fin n → ℝ) :
    (matrix W).map (Linear.dot · (row x)) = row (W *ᵥ x) := by
  refine List.ext_getElem (by simp) fun a first second => ?_
  rw [List.getElem_map, getElem_matrix, dot_row, getElem_row]
  rfl

theorem clip_real (x bound : ℝ) :
    Linear.clip (real x) (real bound) = real (max (-bound) (min bound x)) := by
  rw [Linear.clip, real_neg, min_real, max_real]

/-- The greatest number, by the bounds that it has. -/
theorem foldl_max_row (s : ℝ) (z : Fin n → ℝ) : ∃ t : ℝ,
    (row z).foldl Scalar.max (real s) = real t ∧ ∀ u, t ≤ u ↔ s ≤ u ∧ ∀ i, z i ≤ u := by
  induction n generalizing s with
  | zero => exact ⟨s, by simp [row], by simp⟩
  | succ n ih =>
    obtain ⟨t, folded, bounds⟩ := ih (max s (z 0)) (Fin.tail z)
    refine ⟨t, by rw [row_succ, List.foldl_cons, max_real, folded], fun u => ?_⟩
    rw [bounds, max_le_iff, Fin.forall_fin_succ, and_assoc]
    rfl

section
variable [Nonempty (Fin m)] (z : Fin m → ℝ)

theorem maximum_row : Scalar.maximum (row z) = real (⨆ a, z a) := by
  obtain ⟨n, rfl⟩ := Nat.exists_eq_succ_of_ne_zero (Fin.pos'.ne' : m ≠ 0)
  obtain ⟨t, folded, bounds⟩ := foldl_max_row (z 0) (Fin.tail z)
  have bounds (u : ℝ) : t ≤ u ↔ ∀ a, z a ≤ u := by
    rw [bounds, Fin.forall_fin_succ]
    rfl
  have greatest : t = ⨆ a, z a := by
    refine le_antisymm ((bounds _).mpr fun a => ?_) (ciSup_le ((bounds t).mp le_rfl))
    exact le_ciSup (Set.finite_range z).bddAbove a
  rw [Scalar.maximum, row_succ, List.foldl_cons, max_lowest, folded, greatest]

/-- Powers are taken of differences to the greatest logit, which cancels. -/
theorem softmax_row : Linear.softmax (row z) (Scalar.nat 1) =
    row fun a => Real.exp (z a) / ∑ b, Real.exp (z b) := by
  have powers : (row z).map (fun v => Scalar.exp ((v - real (⨆ b, z b)) / Scalar.nat 1)) =
      row fun a => Real.exp (z a) / Real.exp (⨆ b, z b) := by
    refine map_row fun a => ?_
    simp [real_div one_ne_zero, Real.exp_sub]
  have total : 0 < ∑ b, Real.exp (z b) / Real.exp (⨆ b, z b) :=
    Finset.sum_pos (fun b _ => div_pos (Real.exp_pos _) (Real.exp_pos _)) Finset.univ_nonempty
  rw [Linear.softmax, maximum_row, powers, sum_row]
  refine map_row fun a => ?_
  rw [real_div total.ne', ← Finset.sum_div, div_div_div_cancel_right₀ (Real.exp_pos _).ne']

end

section
variable (γ : ℝ) {k : ℕ}

/-- The return of a step: from there on, the rewards with a discount for each step of delay. -/
def returnFrom (r : Fin k → ℝ) (t : Fin k) : ℝ := ∑ s ∈ Finset.Ici t, γ ^ (s.val - t.val) * r s

theorem returnFrom_zero (r : Fin (k + 1) → ℝ) :
    returnFrom γ r 0 = ∑ s, γ ^ s.val * r s := by
  rw [returnFrom, ← bot_eq_zero, Finset.Ici_bot]
  rfl

theorem returnFrom_succ (r : Fin (k + 1) → ℝ) (t : Fin k) :
    returnFrom γ r t.succ = returnFrom γ (Fin.tail r) t := by
  rw [returnFrom, ← Fin.map_succEmb_Ici, Finset.sum_map]
  simp [returnFrom, Fin.tail]

theorem discountedReturns_row (r : Fin k → ℝ) :
    Linear.discountedReturns (real γ) (row r) = row (returnFrom γ r) := by
  induction k with
  | zero => simp [row, Linear.discountedReturns]
  | succ k ih =>
    have next : (row (returnFrom γ (Fin.tail r))).headD (Scalar.nat 0) =
        real (∑ s, γ ^ s.val * Fin.tail r s) := by
      cases k with
      | zero => simp [row]
      | succ k => rw [row_succ, List.headD_cons, returnFrom_zero]
    have first : returnFrom γ r 0 = r 0 + γ * ∑ s, γ ^ s.val * Fin.tail r s := by
      rw [returnFrom_zero, Fin.sum_univ_succ, Finset.mul_sum]
      simp [Fin.tail, pow_succ', mul_assoc]
    rw [row_succ, Linear.discountedReturns, ih, row_succ, next, first, real_mul, real_add]
    exact congrArg (_ :: row ·) (funext fun t => (returnFrom_succ γ r t).symm)

end
end

end Exact
end
end ProgramGym
