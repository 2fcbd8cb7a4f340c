import Mathlib
import ProgramGym.Proofs.Learner.Episodes

/-! What an episode leaves of the weights of a policy. The probabilities of actions sum to one, and
so the gradient of every step takes from some actions what it gives to others. Main statement: over
exact numbers the end of an episode keeps the sum of the weights of each feature, and if no return
is other than the baseline it keeps all weights. -/
namespace ProgramGym
noncomputable section
open Matrix

/-- A step that was told in finite numbers. -/
structure PolicyStep.Finite (step : PolicyStep Float) : Prop where
  features : ∀ x ∈ step.features, x.isFinite = true
  reward : step.reward.isFinite = true

namespace PolicyLearner

structure Finite (p : PolicyLearner Float) : Prop where
  weights : ∀ row ∈ p.weights, ∀ x ∈ row, x.isFinite = true
  baseline : p.baseline.isFinite = true
  buffer : ∀ step ∈ p.buffer, step.Finite

section
variable {m n : ℕ}

theorem experience_of_finite {step : PolicyStep Float} (finite : step.Finite)
    (length : step.features.length = n) (below : step.action < m) :
    ∃ d : Experience m n, step.map Exact.ofFloat = d.exact := by
  obtain ⟨x, features⟩ := Exact.ofFloat_row length finite.features
  obtain ⟨r, reward⟩ := Exact.ofFloat_finite finite.reward
  refine ⟨⟨x, ⟨step.action, below⟩, r⟩, ?_⟩
  rw [PolicyStep.map, features, reward]
  rfl

theorem experiences_of_finite {steps : List (PolicyStep Float)} (finite : ∀ step ∈ steps, step.Finite)
    (lengths : ∀ step ∈ steps, step.features.length = n) (below : ∀ step ∈ steps, step.action < m) :
    ∃ kept : List (Experience m n),
      steps.map (·.map Exact.ofFloat) = kept.map Experience.exact := by
  induction steps with
  | nil => exact ⟨[], rfl⟩
  | cons step steps ih =>
    rw [List.forall_mem_cons] at finite lengths below
    obtain ⟨d, first⟩ := experience_of_finite finite.1 lengths.1 below.1
    obtain ⟨kept, others⟩ := ih finite.2 lengths.2 below.2
    exact ⟨d :: kept, by rw [List.map_cons, first, others, List.map_cons]⟩

/-- Within an episode too a learner with finite numbers stands for one of real numbers. -/
theorem exact_of_finite_within {p : PolicyLearner Float} (finite : p.Finite)
    (valid : p.settings.Valid) (rows : p.weights.length = m)
    (columns : ∀ row ∈ p.weights, row.length = n)
    (lengths : ∀ step ∈ p.buffer, step.features.length = n)
    (below : ∀ step ∈ p.buffer, step.action < m) :
    ∃ (s : PolicySettings ℝ) (W : Matrix (Fin m) (Fin n) ℝ) (b : ℝ) (kept : List (Experience m n)),
      0 < s.learningRate ∧ 0 < s.gradientClip ∧
      p.map Exact.ofFloat = exact s W b p.baselineSet kept := by
  obtain ⟨s, W, b, moves, some, start⟩ :=
    exact_of_finite valid rows columns finite.weights finite.baseline
  obtain ⟨kept, steps⟩ := experiences_of_finite finite.buffer lengths below
  refine ⟨s, W, b, kept, moves, some, ?_⟩
  have within : p.map Exact.ofFloat =
    { p.startEpisode.map Exact.ofFloat with buffer := p.buffer.map (·.map Exact.ofFloat) } := rfl
  rw [within, start, steps]
  rfl

variable (s : PolicySettings ℝ) (W : Matrix (Fin m) (Fin n) ℝ) (b : ℝ)

theorem sum_policy [Nonempty (Fin m)] (x : Fin n → ℝ) : ∑ a, policy W x a = 1 := by
  have total : 0 < ∑ a, Real.exp ((W *ᵥ x) a) :=
    Finset.sum_pos (fun a _ => Real.exp_pos _) Finset.univ_nonempty
  simp only [policy]
  rw [← Finset.sum_div, div_self total.ne']

theorem sum_stepGradient (d : Experience m n) (g : ℝ) (i : Fin n) :
    ∑ a, stepGradient s W b d g a i = 0 := by
  have : Nonempty (Fin m) := ⟨d.action⟩
  have chosen : ∑ a, (Pi.single d.action 1 : Fin m → ℝ) a = 1 := by simp
  calc
    ∑ a, stepGradient s W b d g a i =
        advantage s b g * ((∑ a, ((Pi.single d.action 1 : Fin m → ℝ) a - policy W d.features a)) *
          d.features i) := by
      simp only [stepGradient, Matrix.smul_apply, vecMulVec_apply, Pi.sub_apply, smul_eq_mul,
        Finset.mul_sum, Finset.sum_mul]
    _ = 0 := by rw [Finset.sum_sub_distrib, chosen, sum_policy, sub_self, zero_mul, mul_zero]

theorem sum_ascent (episode : List (Experience m n)) (i : Fin n) :
    ∑ a, ascent s W b episode a i = 0 := by
  simp only [ascent, Matrix.sum_apply]
  rw [Finset.sum_comm]
  exact Finset.sum_eq_zero fun t _ => sum_stepGradient s W b episode[t] _ i

theorem advantage_self (some : 0 < s.gradientClip) : advantage s b b = 0 := by
  rw [advantage, sub_self, min_eq_right some.le, max_eq_right (neg_nonpos.mpr some.le)]

/-- The weights that an episode leads to. -/
def moved (episode : List (Experience m n)) : Matrix (Fin m) (Fin n) ℝ :=
  W + s.learningRate • ascent s W b episode

theorem sum_moved (episode : List (Experience m n)) (i : Fin n) :
    ∑ a, moved s W b episode a i = ∑ a, W a i := by
  simp only [moved, Matrix.add_apply, Matrix.smul_apply, smul_eq_mul]
  rw [Finset.sum_add_distrib, ← Finset.mul_sum, sum_ascent, mul_zero, add_zero]

/-- Without an advantage there is no direction to go. -/
theorem moved_of_level {episode : List (Experience m n)} (some : 0 < s.gradientClip)
    (level : ∀ t, returns s episode t = b) : moved s W b episode = W := by
  have none : ascent s W b episode = 0 := by
    refine Finset.sum_eq_zero fun t _ => ?_
    rw [stepGradient, level, advantage_self s b some, zero_smul]
  rw [moved, none, smul_zero, add_zero]

theorem level_iff (episode : List (Experience m n)) :
    (∀ g ∈ Linear.discountedReturns (.real s.gamma)
      ((episode.map Experience.exact).map (·.reward)), g = .real b) ↔
      ∀ t, returns s episode t = b := by
  rw [returns_exact, Exact.row, List.forall_mem_ofFn_iff]
  exact forall_congr' fun t => Exact.real_inj _ _

theorem learn_exact (known : Bool) (kept : List (Experience m n)) (last : Experience m n) :
    (exact s W b known kept).learn last.exact true =
      exact s (moved s W b (kept ++ [last])) (nextBaseline s b known (kept ++ [last])) true [] := by
  rw [moved, ← ascend_exact]
  simp [learn, exact]

end
end PolicyLearner
end
end ProgramGym
