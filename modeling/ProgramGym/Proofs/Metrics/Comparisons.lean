import Mathlib
import ProgramGym.Proofs.Exact.Comparing
import ProgramGym.Proofs.Metrics.Aggregates

/-! Comparisons of figures in exact arithmetic. A change is given in percent of the size of the
figure that is compared with, so that its sign is that of the difference; only for a figure of zero
another rule holds, by which a rise counts and a fall does not. Main statement: a reported
improvement is positive exactly for a greater figure and negative exactly for a smaller one, unless
the smaller one is compared with zero, where no change is reported. -/
namespace ProgramGym
noncomputable section

namespace Metrics
open Exact

def map {α β : Type} (f : α → β) (m : Metrics α) : Metrics β where
  numEpisodes := m.numEpisodes
  successRate := f m.successRate
  meanReward := f m.meanReward
  rewardVariance := f m.rewardVariance
  stdReward := f m.stdReward
  meanLength := f m.meanLength
  stdLength := f m.stdLength
  outcomes := m.outcomes
  samplePrograms := m.samplePrograms

def figures {α : Type} (m : Metrics α) : List α :=
  [m.successRate, m.meanReward, m.rewardVariance, m.stdReward, m.meanLength, m.stdLength]

/-- Finite figures stand for real ones. -/
theorem exact_of_finite {m : Metrics Float} (finite : ∀ x ∈ m.figures, x.isFinite = true) :
    ∃ r : Metrics ℝ, m.map ofFloat = r.map real := by
  simp only [figures, List.forall_mem_cons] at finite
  obtain ⟨rate, reward, variance, deviation, length, lengths, _⟩ := finite
  obtain ⟨successRate, rate⟩ := ofFloat_finite rate
  obtain ⟨meanReward, reward⟩ := ofFloat_finite reward
  obtain ⟨rewardVariance, variance⟩ := ofFloat_finite variance
  obtain ⟨stdReward, deviation⟩ := ofFloat_finite deviation
  obtain ⟨meanLength, length⟩ := ofFloat_finite length
  obtain ⟨stdLength, lengths⟩ := ofFloat_finite lengths
  refine ⟨⟨m.numEpisodes, successRate, meanReward, rewardVariance, stdReward, meanLength, stdLength,
    m.outcomes, m.samplePrograms⟩, ?_⟩
  simp only [map, rate, reward, variance, deviation, length, lengths]

/-- The change from one figure to another in percent. -/
def percentage (baseline learned : ℝ) : ℝ :=
  if baseline = 0 then if 0 < learned then 100 else 0
  else (learned - baseline) / |baseline| * 100

section
variable (baseline learned : ℝ)

theorem improvement_exact :
    improvement (real baseline) (real learned) = real (percentage baseline learned) := by
  rw [improvement, percentage, nat_eq, nat_eq, Nat.cast_zero, eq_real, lt_real]
  by_cases zero : baseline = 0
  · rw [decide_eq_true zero, if_pos zero]
    by_cases rise : 0 < learned <;> simp [rise]
  · rw [decide_eq_false zero, if_neg zero, abs_real, real_sub, real_div (abs_ne_zero.mpr zero),
      real_mul]
    simp

variable {baseline learned}

theorem percentage_pos_iff : 0 < percentage baseline learned ↔ baseline < learned := by
  rw [percentage]
  split
  · next zero =>
    rw [zero]
    split
    · next rise => exact iff_of_true (by norm_num) rise
    · next none => exact iff_of_false (lt_irrefl 0) none
  · next some =>
    rw [mul_pos_iff_of_pos_right (by norm_num), div_pos_iff_of_pos_right (abs_pos.mpr some), sub_pos]

theorem percentage_neg_iff :
    percentage baseline learned < 0 ↔ learned < baseline ∧ baseline ≠ 0 := by
  rw [percentage]
  split
  · next zero =>
    refine iff_of_false (not_lt.mpr ?_) fun fall => fall.2 zero
    split <;> norm_num
  · next some =>
    rw [← lt_div_iff₀ (by norm_num), zero_div, div_lt_iff₀ (abs_pos.mpr some), zero_mul, sub_neg,
      and_iff_left some]

/-- The change tells which of two figures is the greater one. -/
structure Directed (change baseline learned : ℝ) : Prop where
  rise : 0 < change ↔ baseline < learned
  fall : change < 0 ↔ learned < baseline
  none : change = 0 ↔ learned = baseline

/-- Only a fall from zero goes unseen. -/
theorem directed_iff :
    Directed (percentage baseline learned) baseline learned ↔ ¬(baseline = 0 ∧ learned < 0) := by
  constructor
  · rintro ⟨-, fall, -⟩ ⟨zero, fallen⟩
    exact (percentage_neg_iff.mp (fall.mpr (zero ▸ fallen))).2 zero
  · intro seen
    have fall : percentage baseline learned < 0 ↔ learned < baseline :=
      percentage_neg_iff.trans <| and_iff_left_of_imp fun fallen zero => seen ⟨zero, zero ▸ fallen⟩
    refine ⟨percentage_pos_iff, fall, ?_⟩
    -- neither sign is left
    rw [eq_iff_le_not_lt, eq_iff_le_not_lt, ← not_lt, ← not_lt, percentage_pos_iff, fall]

theorem percentage_of_fall (zero : baseline = 0) (fall : learned < 0) :
    percentage baseline learned = 0 := by
  rw [percentage, if_pos zero, if_neg fall.not_gt]

end

/-- Two figures in exact numbers with a change that tells the greater one, unless the baseline is
zero and the other figure is negative: then it says that there is no change. -/
def Comparison.Tells (c : Comparison Exact) (baseline learned : ℝ) : Prop :=
  ∃ change, c = ⟨real baseline, real learned, real change⟩ ∧
    (Directed change baseline learned ↔ ¬(baseline = 0 ∧ learned < 0)) ∧
    (baseline = 0 ∧ learned < 0 → change = 0)

theorem tells_compareFigures (baseline learned : ℝ) :
    (compareFigures (real baseline) (real learned)).Tells baseline learned :=
  ⟨percentage baseline learned, by rw [compareFigures, improvement_exact], directed_iff,
    fun ⟨zero, fall⟩ => percentage_of_fall zero fall⟩

/-- Over exact numbers each comparison of finite figures tells by the sign of its change which of
them is greater, exactly if it is none of a negative figure with a zero one. -/
theorem compare_directed {baseline learned : Metrics Float}
    (old : ∀ x ∈ baseline.figures, x.isFinite = true)
    (new : ∀ x ∈ learned.figures, x.isFinite = true) :
    ∃ b l : Metrics ℝ, baseline.map ofFloat = b.map real ∧ learned.map ofFloat = l.map real ∧
      let comparisons := compare (baseline.map ofFloat) (learned.map ofFloat)
      comparisons.meanReward.Tells b.meanReward l.meanReward ∧
      comparisons.successRate.Tells b.successRate l.successRate ∧
      comparisons.meanLength.Tells b.meanLength l.meanLength := by
  obtain ⟨b, before⟩ := exact_of_finite old
  obtain ⟨l, after⟩ := exact_of_finite new
  refine ⟨b, l, before, after, ?_⟩
  rw [before, after]
  exact ⟨tells_compareFigures .., tells_compareFigures .., tells_compareFigures ..⟩

theorem compare_directed_fifty :
    let old := compute [sampleRecord (2 : Float) "a"] sampleLimit
    let new := compute [sampleRecord (3 : Float) "a"] sampleLimit
    (∀ x ∈ old.figures, x.isFinite = true) ∧ (∀ x ∈ new.figures, x.isFinite = true) ∧
    (compare old new).meanReward.improvement = 50 ∧
    ∃ b l : Metrics ℝ, old.map ofFloat = b.map real ∧ new.map ofFloat = l.map real ∧
      (compare (old.map ofFloat) (new.map ofFloat)).meanReward.Tells b.meanReward l.meanReward := by
  intro old new
  have first : ∀ x ∈ old.figures, x.isFinite = true := by decide +kernel
  have second : ∀ x ∈ new.figures, x.isFinite = true := by decide +kernel
  obtain ⟨b, l, before, after, told, _⟩ := compare_directed first second
  exact ⟨first, second, by decide +kernel, b, l, before, after, told⟩

/-- A mean reward that falls from zero to less is said not to have changed. -/
theorem fall_from_zero :
    let old := compute [sampleRecord (0 : Float) "a"] sampleLimit
    let new := compute [sampleRecord (-5 : Float) "a"] sampleLimit
    (∀ x ∈ old.figures, x.isFinite = true) ∧ (∀ x ∈ new.figures, x.isFinite = true) ∧
    (compare old new).meanReward.improvement = 0 ∧
    (compare (old.map ofFloat) (new.map ofFloat)).meanReward =
      ⟨real 0, real (-5), real 0⟩ ∧ ¬Directed 0 0 (-5) := by
  intro old new
  have zero : ofFloat old.meanReward = real 0 := by
    rw [show old.meanReward = 0 by decide +kernel]
    exact (IsReal.zero .positive rfl).ofFloat
  have five : ofFloat new.meanReward = real (-5) := by
    have unpacked : (-5 : Float).toModel.unpack =
      .finite .negative (5 * 2 ^ 50) (-50) (by decide) := rfl
    rw [show new.meanReward = -5 by decide +kernel, ofFloat, unpacked]
    simp only [Float.Model.UnpackedFloat.Sign.apply]
    norm_num
  have figures : (compare (old.map ofFloat) (new.map ofFloat)).meanReward =
      compareFigures (ofFloat old.meanReward) (ofFloat new.meanReward) := rfl
  refine ⟨by decide +kernel, by decide +kernel, by decide +kernel, ?_, fun told => ?_⟩
  · rw [figures, zero, five, compareFigures, improvement_exact,
      percentage_of_fall rfl (by norm_num)]
  · exact lt_irrefl (0 : ℝ) (told.fall.mpr (by norm_num))

end Metrics
end
end ProgramGym
