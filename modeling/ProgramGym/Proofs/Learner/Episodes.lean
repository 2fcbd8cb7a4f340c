import Mathlib
import ProgramGym.Learner.PolicyLearner
import ProgramGym.Proofs.Exact.Conversion

/-! Policy gradient. Until an episode ends its steps are only kept, whatever the arithmetic. Main
statement: over exact numbers an episode moves the weights by the learning rate times the sum, over
its steps, of the clipped advantage times the gradient of the log-likelihood; returns are those of
these steps alone, and the policy and the baseline are those from before. -/
namespace ProgramGym
noncomputable section
open Matrix

/-- A step of an episode, in real numbers. -/
structure Experience (m n : ℕ) where
  features : Fin n → ℝ
  action : Fin m
  reward : ℝ

def Experience.exact {m n : ℕ} (d : Experience m n) : PolicyStep Exact :=
  ⟨Exact.row d.features, d.action, .real d.reward⟩

def PolicyStep.map {α β : Type} (f : α → β) (step : PolicyStep α) : PolicyStep β :=
  ⟨step.features.map f, step.action, f step.reward⟩

namespace PolicyLearner

section
variable {α : Type} [Scalar α] (p : PolicyLearner α) (steps : List (PolicyStep α))

/-- Steps that do not end the episode. -/
def keep (p : PolicyLearner α) (steps : List (PolicyStep α)) : PolicyLearner α :=
  steps.foldl (fun p step => p.learn step false) p

/-- A whole episode, from its start to its last step. -/
def study (p : PolicyLearner α) (steps : List (PolicyStep α)) (last : PolicyStep α) :
    PolicyLearner α :=
  (p.startEpisode.keep steps).learn last true

theorem keep_eq : p.keep steps = { p with buffer := p.buffer ++ steps } := by
  induction steps generalizing p with
  | nil => simp [keep]
  | cons step steps ih =>
    rw [keep, List.foldl_cons, ← keep, ih]
    simp [learn]

theorem startEpisode_keep : (p.keep steps).startEpisode = p.startEpisode := by
  rw [keep_eq]
  rfl

theorem study_eq (last : PolicyStep α) :
    p.study steps last = { p with buffer := steps ++ [last] }.ascend := by
  rw [study, keep_eq]
  rfl

def map {β : Type} (f : α → β) (p : PolicyLearner α) : PolicyLearner β :=
  ⟨p.settings.map f, p.weights.map (·.map f), f p.baseline, p.baselineSet, p.buffer.map (·.map f)⟩

end

section
variable {m n : ℕ}

/-- A learner of real settings, weights, baseline and steps. -/
def exact (s : PolicySettings ℝ) (W : Matrix (Fin m) (Fin n) ℝ) (b : ℝ) (known : Bool)
    (buffer : List (Experience m n)) : PolicyLearner Exact :=
  ⟨s.map .real, Exact.matrix W, .real b, known, buffer.map Experience.exact⟩

/-- At the start of an episode every learner with finite numbers stands for one of these. -/
theorem exact_of_finite {p : PolicyLearner Float} (valid : p.settings.Valid)
    (rows : p.weights.length = m) (columns : ∀ row ∈ p.weights, row.length = n)
    (weights : ∀ row ∈ p.weights, ∀ x ∈ row, x.isFinite = true)
    (baseline : p.baseline.isFinite = true) :
    ∃ (s : PolicySettings ℝ) (W : Matrix (Fin m) (Fin n) ℝ) (b : ℝ),
      0 < s.learningRate ∧ 0 < s.gradientClip ∧
      p.startEpisode.map Exact.ofFloat = exact s W b p.baselineSet [] := by
  obtain ⟨s, moves, some, settings⟩ := valid.exact
  obtain ⟨W, weights⟩ := Exact.ofFloat_matrix rows columns weights
  obtain ⟨b, baseline⟩ := Exact.ofFloat_finite baseline
  refine ⟨s, W, b, moves, some, ?_⟩
  rw [map, exact, startEpisode, settings, weights, baseline]
  rfl

/-- The probabilities of actions, proportional to the exponentials of their logits. -/
def policy (W : Matrix (Fin m) (Fin n) ℝ) (x : Fin n → ℝ) : Fin m → ℝ :=
  fun a => Real.exp ((W *ᵥ x) a) / ∑ b, Real.exp ((W *ᵥ x) b)

section
variable (s : PolicySettings ℝ) (W : Matrix (Fin m) (Fin n) ℝ) (b : ℝ)

/-- What a return is more than the baseline, clipped. -/
def advantage (g : ℝ) : ℝ := max (-s.gradientClip) (min s.gradientClip (g - b))

/-- One step's part of the gradient, for a given return. -/
def stepGradient (d : Experience m n) (g : ℝ) : Matrix (Fin m) (Fin n) ℝ :=
  advantage s b g • vecMulVec (Pi.single d.action 1 - policy W d.features) d.features

def returns (episode : List (Experience m n)) : Fin episode.length → ℝ :=
  Exact.returnFrom s.gamma fun t => episode[t].reward

/-- The gradient of an episode, under the policy and the baseline from before it. -/
def ascent (episode : List (Experience m n)) : Matrix (Fin m) (Fin n) ℝ :=
  ∑ t, stepGradient s W b episode[t] (returns s episode t)

/-- The first episode sets the baseline, later ones are averaged into it. -/
def nextBaseline (known : Bool) (episode : List (Experience m n)) : ℝ :=
  let total := ∑ t : Fin episode.length, episode[t].reward
  if known then s.baselineMomentum * b + (1 - s.baselineMomentum) * total else total

variable (known : Bool) (buffer : List (Experience m n))

theorem probabilities_exact [Nonempty (Fin m)] (x : Fin n → ℝ) :
    (exact s W b known buffer).probabilities (Exact.row x) = Exact.row (policy W x) := by
  rw [probabilities, probabilitiesOf, exact, Exact.dots_matrix, Exact.softmax_row]
  rfl

theorem addStep_exact (Γ : Matrix (Fin m) (Fin n) ℝ) (d : Experience m n) (g : ℝ) :
    (exact s W b known buffer).addStep (Exact.matrix Γ) d.exact (.real g) =
      Exact.matrix (Γ + stepGradient s W b d g) := by
  have : Nonempty (Fin m) := ⟨d.action⟩
  have clipped : Linear.clip (.real g - (exact s W b known buffer).baseline)
      (exact s W b known buffer).settings.gradientClip = .real (advantage s b g) := by
    simp only [exact, Exact.real_sub]
    exact Exact.clip_real _ _
  unfold addStep
  simp only [clipped, Exact.nat_eq, Exact.eq_real, Nat.cast_zero, decide_eq_true_eq]
  split
  · -- a step without advantage is left out, and would have added nothing
    next none => simp [stepGradient, none]
  · refine List.ext_getElem (by simp) fun a first second => ?_
    have chosen : (Scalar.ofBool (a == d.exact.action) : Exact) =
        .real ((Pi.single d.action 1 : Fin m → ℝ) ⟨a, by simpa using second⟩) := by
      simp [Scalar.ofBool, Experience.exact, Pi.single_apply, Fin.ext_iff]
    have likely : ((exact s W b known buffer).probabilities d.exact.features).getD a
        Scalar.absent = .real (policy W d.features ⟨a, by simpa using second⟩) := by
      rw [Experience.exact, probabilities_exact]
      exact Exact.getD_row _ ⟨a, by simpa using second⟩ _
    simp only [List.getElem_map, List.getElem_zipIdx, Nat.zero_add, chosen, likely,
      Exact.getElem_matrix, Exact.real_sub, Exact.real_mul]
    change Linear.addScaled _ _ (Exact.row d.features) = _
    rw [Exact.addScaled_row]
    refine congrArg Exact.row (funext fun j => ?_)
    simp [stepGradient, vecMulVec_apply, mul_assoc]

/-- The gradient added up so far is carried along; the learner that adds to it stays the same. -/
theorem foldl_addStep (Γ : Matrix (Fin m) (Fin n) ℝ) (episode : List (Experience m n))
    (g : Fin episode.length → ℝ) :
    ((episode.map Experience.exact).zip (Exact.row g)).foldl
        (fun Γ (step, g) => (exact s W b known buffer).addStep Γ step g) (Exact.matrix Γ) =
      Exact.matrix (Γ + ∑ t, stepGradient s W b episode[t] (g t)) := by
  induction episode generalizing Γ with
  | nil => simp
  | cons d episode ih =>
    change Fin (episode.length + 1) → ℝ at g
    have first : Exact.row g = .real (g 0) :: Exact.row (Fin.tail g) := Exact.row_succ g
    rw [List.map_cons, first, List.zip_cons_cons, List.foldl_cons]
    dsimp only
    rw [addStep_exact, ih, add_assoc]
    refine congrArg (fun Δ => Exact.matrix (Γ + Δ)) ?_
    exact (Fin.sum_univ_succ fun t : Fin (episode.length + 1) =>
      stepGradient s W b (d :: episode)[t] (g t)).symm

theorem rewards_exact (episode : List (Experience m n)) :
    (episode.map Experience.exact).map (·.reward) = Exact.row fun t : Fin episode.length =>
      episode[t].reward := by
  refine List.ext_getElem (by simp) fun t first second => ?_
  simp [Experience.exact]

theorem returns_exact (episode : List (Experience m n)) :
    Linear.discountedReturns (.real s.gamma) ((episode.map Experience.exact).map (·.reward)) =
      Exact.row (returns s episode) := by
  rw [rewards_exact, Exact.discountedReturns_row]
  rfl

theorem gradient_exact : (exact s W b known buffer).gradient = Exact.matrix (ascent s W b buffer) := by
  have zero : (Exact.matrix W).map (fun row => row.map fun _ => (Scalar.nat 0 : Exact)) =
      Exact.matrix (0 : Matrix (Fin m) (Fin n) ℝ) := by
    refine List.ext_getElem (by simp) fun a first second => ?_
    rw [List.getElem_map, Exact.getElem_matrix, Exact.getElem_matrix]
    exact Exact.map_row fun j => by simp
  have folded := foldl_addStep s W b known buffer 0 buffer (returns s buffer)
  rw [← returns_exact, ← zero, zero_add] at folded
  exact folded

theorem episodeReturn_exact : (exact s W b known buffer).episodeReturn =
    .real (∑ t : Fin buffer.length, buffer[t].reward) := by
  have summed : (exact s W b known buffer).episodeReturn =
      ((buffer.map Experience.exact).map (·.reward)).foldl (· + ·) (Scalar.nat 0) := by
    rw [List.foldl_map]
    rfl
  rw [summed, rewards_exact]
  exact Exact.sum_row _

theorem ascend_exact : (exact s W b known buffer).ascend =
    exact s (W + s.learningRate • ascent s W b buffer) (nextBaseline s b known buffer) true [] := by
  have moved : List.zipWith (fun row direction => Linear.addScaled row
      (exact s W b known buffer).settings.learningRate direction)
      (exact s W b known buffer).weights (Exact.matrix (ascent s W b buffer)) =
      Exact.matrix (W + s.learningRate • ascent s W b buffer) :=
    Exact.addScaled_matrix ..
  rw [ascend, episodeReturn_exact, gradient_exact, moved]
  cases known with
  | false => rfl
  | true => simp [updateBaseline, nextBaseline, exact, PolicySettings.map]

theorem study_exact (steps : List (Experience m n)) (last : Experience m n) :
    (exact s W b known buffer).study (steps.map Experience.exact) last.exact =
      exact s (W + s.learningRate • ascent s W b (steps ++ [last]))
        (nextBaseline s b known (steps ++ [last])) true [] := by
  rw [study_eq, ← ascend_exact]
  simp [exact]

end
end
end PolicyLearner
end
end ProgramGym
