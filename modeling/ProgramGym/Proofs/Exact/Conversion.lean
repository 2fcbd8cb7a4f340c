import Mathlib
import ProgramGym.Proofs.Exact.Vectors
import ProgramGym.Proofs.Learner.Exploration

/-! The exact number that a binary64 number stands for. Main statements: finite numbers stand for
real numbers, and those that are not negative for what they are worth; settings in range stand for
real settings. -/
namespace ProgramGym
open Binary64 Float.Model Float.Model.UnpackedFloat

namespace Exact

/-- Both zeros stand for zero. -/
noncomputable def ofFloat (x : Float) : Exact :=
  match x.toModel.unpack with
  | .notANumber => undefined
  | .infinity .positive => number ⊤
  | .infinity .negative => number ⊥
  | .zero _ => real 0
  | .finite s m e _ => real (s.apply m * 2 ^ e)

variable {x : Float}

theorem ofFloat_finite (finite : x.isFinite = true) : ∃ v, ofFloat x = real v := by
  change x.toModel.unpack.isFinite = true at finite
  unfold ofFloat
  cases unpacked : x.toModel.unpack with
  | notANumber | infinity s =>
    rw [unpacked] at finite
    cases finite
  | zero s => exact ⟨0, rfl⟩
  | finite s m e pos => exact ⟨_, rfl⟩

theorem ofFloat_worth {v : ℚ} (worth : Worth x v) : ofFloat x = real v := by
  cases worth with
  | zero s unpacked => simp [ofFloat, unpacked]
  | finite canonical unpacked => simp [ofFloat, unpacked, Sign.apply]

section
variable {m n : ℕ}

theorem ofFloat_row {xs : List Float} (length : xs.length = n)
    (finite : ∀ x ∈ xs, x.isFinite = true) : ∃ v : Fin n → ℝ, xs.map ofFloat = row v := by
  subst length
  choose v value using fun j : Fin xs.length => ofFloat_finite (finite _ (List.getElem_mem j.isLt))
  refine ⟨v, List.ext_getElem (by simp) fun j first second => ?_⟩
  rw [List.getElem_map, getElem_row]
  exact value ⟨j, by simpa using second⟩

theorem ofFloat_matrix {rows : List (List Float)} (count : rows.length = m)
    (lengths : ∀ r ∈ rows, r.length = n) (finite : ∀ r ∈ rows, ∀ x ∈ r, x.isFinite = true) :
    ∃ W : Matrix (Fin m) (Fin n) ℝ, rows.map (·.map ofFloat) = matrix W := by
  subst count
  choose W value using fun a : Fin rows.length =>
    ofFloat_row (lengths _ (List.getElem_mem a.isLt)) (finite _ (List.getElem_mem a.isLt))
  refine ⟨.of W, List.ext_getElem (by simp) fun a first second => ?_⟩
  rw [List.getElem_map, getElem_matrix]
  exact value ⟨a, by simpa using second⟩

end

end Exact

theorem Range.ofFloat_real {range : Range} {x : Float} (inside : range.contains x = true) :
    ∃ v, Exact.ofFloat x = .real v :=
  Exact.ofFloat_finite (finite_of_contains inside)

/-- What lies beyond an open end at zero is worth more than nothing. -/
theorem Range.ofFloat_pos {high : Float} {highOpen : Bool} {x : Float}
    (inside : (Range.mk 0 high true highOpen).contains x = true) :
    ∃ v, 0 < v ∧ Exact.ofFloat x = .real v := by
  obtain ⟨v, worth⟩ := worth_of_finite (finite_of_contains inside) (not_lt_low inside)
  refine ⟨v, ?_, Exact.ofFloat_worth worth⟩
  simp only [contains, Bool.and_eq_true, if_true, worth.le_iff worth_zero] at inside
  simpa using inside.1.2

theorem QSettings.Valid.exact {s : QSettings Float} (valid : s.Valid) : ∃ t : QSettings ℝ,
    0 < t.learningRate ∧ 0 < t.tdErrorClip ∧ s.map Exact.ofFloat = t.map Exact.real := by
  obtain ⟨learningRate, moves, rate⟩ := Range.ofFloat_pos valid.learningRate
  obtain ⟨gamma, discount⟩ := Range.ofFloat_real valid.gamma
  obtain ⟨epsilon, start⟩ := Range.ofFloat_real valid.epsilon
  obtain ⟨epsilonDecay, factor⟩ := Range.ofFloat_real valid.epsilonDecay
  obtain ⟨epsilonMin, floor⟩ := Range.ofFloat_real valid.epsilonMin
  obtain ⟨tdErrorClip, some, bound⟩ := Range.ofFloat_pos valid.tdErrorClip
  obtain ⟨weightInit, scale⟩ := Range.ofFloat_real valid.weightInit
  refine ⟨⟨learningRate, gamma, epsilon, epsilonDecay, epsilonMin, tdErrorClip, weightInit⟩,
    moves, some, ?_⟩
  simp [map, rate, discount, start, factor, floor, bound, scale]

theorem PolicySettings.Valid.exact {s : PolicySettings Float} (valid : s.Valid) :
    ∃ t : PolicySettings ℝ, 0 < t.learningRate ∧ 0 < t.gradientClip ∧
      s.map Exact.ofFloat = t.map Exact.real := by
  obtain ⟨learningRate, moves, rate⟩ := Range.ofFloat_pos valid.learningRate
  obtain ⟨gamma, discount⟩ := Range.ofFloat_real valid.gamma
  obtain ⟨baselineMomentum, momentum⟩ := Range.ofFloat_real valid.baselineMomentum
  obtain ⟨gradientClip, some, bound⟩ := Range.ofFloat_pos valid.gradientClip
  obtain ⟨weightInit, scale⟩ := Range.ofFloat_real valid.weightInit
  refine ⟨⟨learningRate, gamma, baselineMomentum, gradientClip, weightInit⟩, moves, some, ?_⟩
  simp [map, rate, discount, momentum, bound, scale]

/-- The momentum is not negative and less than one. -/
theorem PolicySettings.Valid.momentum {s : PolicySettings Float} (valid : s.Valid) :
    ∃ m : ℝ, 0 ≤ m ∧ m < 1 ∧ Exact.ofFloat s.baselineMomentum = .real m := by
  have inside := valid.baselineMomentum
  obtain ⟨v, worth⟩ :=
    worth_of_finite (Range.finite_of_contains inside) (Range.not_lt_low inside)
  have below : v < 1 := by
    simp only [Range.contains, LearnerSettings.belowOne, Bool.and_eq_true, if_true, ge_iff_le,
      worth_one.le_iff worth] at inside
    simpa using inside.2
  refine ⟨v, ?_, ?_, Exact.ofFloat_worth worth⟩
  · exact_mod_cast worth.nonneg
  · exact_mod_cast below

end ProgramGym
