import Mathlib
import ProgramGym.Learner.QLearner
import ProgramGym.Proofs.Exact.Conversion

/-! Q-learning. An update touches one row of weights, whatever the arithmetic. Main statement: over
exact numbers a lesson moves the value of its action at any features by the learning rate times the
clipped error times the product with the features learned from, all of it as valued before; so
no weight drifts by more than learning rate times bound with each lesson. -/
namespace ProgramGym
noncomputable section
open Matrix

/-- What a Q-learner is told of one step, in real numbers. -/
structure Lesson (m n : ℕ) where
  features : Fin n → ℝ
  action : Fin m
  reward : ℝ
  next : Fin n → ℝ
  done : Bool

namespace QLearner

section
variable {α : Type} [Scalar α] (q : QLearner α) (features : List α) (action : Nat) (reward : α)
  (next : List α) (done : Bool)

theorem learn_settings : (q.learn features action reward next done).settings = q.settings := by
  cases done <;> rfl

theorem learn_weights : (q.learn features action reward next done).weights =
    (q.update features action reward next done).weights := by
  cases done <;> rfl

theorem learn_other {j : Nat} (other : j ≠ action) :
    (q.learn features action reward next done).weights[j]? = q.weights[j]? := by
  rw [learn_weights]
  exact List.getElem?_set_ne other.symm

/-- After the last step of an episode there is nothing to look ahead to. -/
theorem learn_done (next' : List α) :
    q.learn features action reward next true = q.learn features action reward next' true := rfl

def map {β : Type} (f : α → β) (q : QLearner α) : QLearner β :=
  ⟨q.settings.map f, q.weights.map (·.map f), f q.epsilon⟩

end

section
variable {m n : ℕ}

/-- A learner of real settings, weights and exploration. -/
def exact (s : QSettings ℝ) (W : Matrix (Fin m) (Fin n) ℝ) (ε : ℝ) : QLearner Exact :=
  ⟨s.map .real, Exact.matrix W, .real ε⟩

/-- Every learner with finite weights and exploration stands for one of these. -/
theorem exact_of_finite {q : QLearner Float} (valid : q.settings.Valid)
    (rows : q.weights.length = m) (columns : ∀ row ∈ q.weights, row.length = n)
    (weights : ∀ row ∈ q.weights, ∀ x ∈ row, x.isFinite = true)
    (epsilon : q.epsilon.isFinite = true) :
    ∃ (s : QSettings ℝ) (W : Matrix (Fin m) (Fin n) ℝ) (ε : ℝ),
      0 < s.learningRate ∧ 0 < s.tdErrorClip ∧ q.map Exact.ofFloat = exact s W ε := by
  obtain ⟨s, moves, some, settings⟩ := valid.exact
  obtain ⟨W, weights⟩ := Exact.ofFloat_matrix rows columns weights
  obtain ⟨ε, epsilon⟩ := Exact.ofFloat_finite epsilon
  exact ⟨s, W, ε, moves, some, by rw [map, exact, settings, weights, epsilon]⟩

def hear (q : QLearner Exact) (l : Lesson m n) : QLearner Exact :=
  q.learn (Exact.row l.features) l.action (.real l.reward) (Exact.row l.next) l.done

variable (s : QSettings ℝ) (W : Matrix (Fin m) (Fin n) ℝ) (ε : ℝ) (l : Lesson m n)

/-- The target less the value, both as of before the lesson, and clipped. -/
def tdError : ℝ :=
  max (-s.tdErrorClip) (min s.tdErrorClip
    ((if l.done then l.reward else l.reward + s.gamma * ⨆ b, (W *ᵥ l.next) b) -
      (W *ᵥ l.features) l.action))

/-- Only the row of the action moves, along the features. -/
def moved : Matrix (Fin m) (Fin n) ℝ :=
  W.updateRow l.action (W l.action + (s.learningRate * tdError s W l) • l.features)

def exploration : ℝ := if l.done then max s.epsilonMin (ε * s.epsilonDecay) else ε

theorem values_exact (x : Fin n → ℝ) : (exact s W ε).values (Exact.row x) = Exact.row (W *ᵥ x) :=
  Exact.dots_matrix W x

theorem target_exact : (exact s W ε).target (.real l.reward) (Exact.row l.next) l.done =
    .real (if l.done then l.reward else l.reward + s.gamma * ⨆ b, (W *ᵥ l.next) b) := by
  have : Nonempty (Fin m) := ⟨l.action⟩
  unfold target
  split
  · rfl
  · rw [values_exact, Exact.maximum_row]
    simp [exact, QSettings.map]

theorem update_exact : (exact s W ε).update (Exact.row l.features) l.action (.real l.reward)
    (Exact.row l.next) l.done = exact s (moved s W l) ε := by
  have clipped : Linear.clip ((exact s W ε).target (.real l.reward) (Exact.row l.next) l.done -
      Linear.dot (Exact.row (W l.action)) (Exact.row l.features)) (exact s W ε).settings.tdErrorClip =
      .real (tdError s W l) := by
    rw [target_exact, Exact.dot_row, Exact.real_sub]
    exact Exact.clip_real _ _
  rw [update, moveToward]
  simp only [exact, Exact.getD_matrix] at clipped ⊢
  rw [clipped]
  simp only [QSettings.map, Exact.real_mul, Exact.addScaled_row, Exact.set_matrix]
  rfl

theorem hear_exact : (exact s W ε).hear l = exact s (moved s W l) (exploration s ε l) := by
  rw [hear, learn, update_exact, exploration]
  cases l.done with
  | false => rfl
  | true => simp [decay, exact, QSettings.map]

theorem moved_mulVec (y : Fin n → ℝ) : moved s W l *ᵥ y =
    W *ᵥ y + Pi.single l.action (s.learningRate * tdError s W l * (l.features ⬝ᵥ y)) := by
  ext a
  rcases eq_or_ne a l.action with rfl | other
  · change moved s W l l.action ⬝ᵥ y = _
    rw [moved, updateRow_self, add_dotProduct, smul_dotProduct, Pi.add_apply, Pi.single_eq_same]
    rfl
  · simp [moved, mulVec, updateRow_ne other, Pi.single_eq_of_ne other]

variable {s} (bounded : 0 ≤ s.tdErrorClip)
include bounded

theorem abs_tdError_le : |tdError s W l| ≤ s.tdErrorClip :=
  abs_le.mpr ⟨le_max_left .., max_le (neg_le_self bounded) (min_le_left ..)⟩

variable {l} (rate : 0 ≤ s.learningRate)
include rate

/-- One lesson from features between -1 and 1. -/
theorem moved_drift (small : ∀ j, |l.features j| ≤ 1) (a : Fin m) (j : Fin n) :
    |moved s W l a j - W a j| ≤ s.learningRate * s.tdErrorClip := by
  have most : 0 ≤ s.learningRate * s.tdErrorClip := mul_nonneg rate bounded
  rcases eq_or_ne a l.action with rfl | other
  · have moves : moved s W l l.action j - W l.action j =
        s.learningRate * tdError s W l * l.features j := by simp [moved]
    calc |moved s W l l.action j - W l.action j|
        = s.learningRate * |tdError s W l| * |l.features j| := by
          rw [moves, abs_mul, abs_mul, abs_of_nonneg rate]
      _ ≤ s.learningRate * s.tdErrorClip * 1 := by
          gcongr
          · exact abs_tdError_le W l bounded
          · exact small j
      _ = s.learningRate * s.tdErrorClip := mul_one _
  · simpa [moved, updateRow_ne other] using most

/-- Each lesson may move a weight further, by one bound at most. -/
theorem drift {lessons : List (Lesson m n)} (small : ∀ l ∈ lessons, ∀ j, |l.features j| ≤ 1) :
    ∃ V ε', lessons.foldl hear (exact s W ε) = exact s V ε' ∧
      ∀ a j, |V a j - W a j| ≤ lessons.length * s.learningRate * s.tdErrorClip := by
  induction lessons generalizing W ε with
  | nil => exact ⟨W, ε, rfl, by simp⟩
  | cons l lessons ih =>
    obtain ⟨first, rest⟩ := List.forall_mem_cons.mp small
    obtain ⟨V, ε', run, near⟩ := ih (moved s W l) (exploration s ε l) rest
    refine ⟨V, ε', by rw [List.foldl_cons, hear_exact, run], fun a j => ?_⟩
    calc |V a j - W a j|
        ≤ |V a j - moved s W l a j| + |moved s W l a j - W a j| := abs_sub_le ..
      _ ≤ lessons.length * s.learningRate * s.tdErrorClip + s.learningRate * s.tdErrorClip :=
          add_le_add (near a j) (moved_drift W bounded rate first a j)
      _ = (l :: lessons).length * s.learningRate * s.tdErrorClip := by
          rw [List.length_cons]
          push_cast
          ring

end
end QLearner
end
end ProgramGym
