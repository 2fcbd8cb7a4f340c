import Mathlib
import ProgramGym.Proofs.Metrics.Aggregates
import ProgramGym.Trainer

/-! Figures over the last episodes of a training. A window of so many episodes holds the last ones,
all of them if there are not so many; but a window of none leaves out nothing. Main statement: the
rolling figures are those of the last episodes unless the window is of none, and a curve of rolling
means ends, at every episode, with the share of successes up to it. -/
namespace ProgramGym

namespace Curve
variable {α β : Type}

theorem latest_count (k : ℕ) (xs : List β) :
    latest (.count k) xs = if k = 0 then xs else xs.rtake k := by
  cases k with
  | zero => rfl
  | succ k => rfl

theorem latest_map (window : Quantity Float) (f : α → β) (xs : List α) :
    latest window (xs.map f) = (latest window xs).map f := by
  rw [latest, latest, List.length_map, List.map_drop]

/-- Every point of a rolling average is the mean of the last values up to it. -/
theorem getElem?_rollingAverage [Scalar α] (values : List α) (k : ℕ) {i : ℕ}
    (inside : i < values.length) : (rollingAverage values (.count k))[i]? =
      some (Scalar.mean ((values.take (i + 1)).rtake k)) := by
  have window : (values.drop (start (.count k) i)).take (i + 1 - start (.count k) i) =
      (values.take (i + 1)).rtake k := by
    rw [List.rtake, List.length_take_of_le inside, List.drop_take]
    rfl
  simp only [rollingAverage, List.getElem?_map, List.getElem?_range inside, Option.map_some, window]

end Curve

noncomputable section
namespace Trainer
open Exact Metrics

theorem rollingSuccessRate_exact (history : List (EpisodeRecord ℝ)) (window : Quantity Float) :
    rollingSuccessRate (history.map (·.map real)) window =
      real (successShare (Curve.latest window history)) := by
  rw [rollingSuccessRate, Curve.latest_map]
  refine (share_real _ _).trans ?_
  rw [List.countP_map, List.length_map]
  rfl

theorem averageReward_exact (history : List (EpisodeRecord ℝ)) (window : Quantity Float) :
    averageReward (history.map (·.map real)) window =
      real (average (rewards (Curve.latest window history))) := by
  rw [averageReward, Curve.latest_map, ← mean_reals, rewards, List.map_map, List.map_map]
  rfl

/-- The successes of episodes as a curve is drawn from them. -/
theorem mean_successes (history : List (EpisodeRecord ℝ)) :
    Scalar.mean (history.map fun r => (Scalar.ofBool r.success : Exact)) =
      real (successShare history) := by
  rw [successShare, ← average_indicator, ← mean_reals, List.map_map]
  refine congrArg Scalar.mean (List.map_congr_left fun r _ => ?_)
  change real ((if r.success then 1 else 0 : ℕ) : ℝ) = real (if r.success then 1 else 0)
  rw [Nat.cast_ite, Nat.cast_one, Nat.cast_zero]

/-- The curve of successes ends, at every episode, with the rate over the episodes up to it. -/
theorem curve_exact (history : List (EpisodeRecord ℝ)) {k i : ℕ} (wide : 1 ≤ k)
    (inside : i < history.length) :
    (Curve.rollingAverage ((history.map (·.map real)).map fun r => Scalar.ofBool r.success)
      (.count k))[i]? =
        some (rollingSuccessRate ((history.map (·.map real)).take (i + 1)) (.count k)) := by
  have seen : ((history.map (·.map real)).map fun r => (Scalar.ofBool r.success : Exact)) =
      history.map fun r => Scalar.ofBool r.success := List.map_map
  have inside' : i < (history.map fun r => (Scalar.ofBool r.success : Exact)).length := by
    rwa [List.length_map]
  rw [seen, Curve.getElem?_rollingAverage _ k inside', ← List.map_take,
    ← List.map_take, rollingSuccessRate_exact, Curve.latest_count, if_neg (by omega),
    ← mean_successes, List.rtake, List.rtake, List.map_drop, List.length_map]

theorem rollingSuccessRate_count (history : List (EpisodeRecord Float)) (k : ℕ) :
    let recent := if k = 0 then history else history.rtake k
    rollingSuccessRate history (.count k) = if recent.isEmpty then 0
      else Float.ofNat (recent.countP (·.success)) / Float.ofNat recent.length := by
  intro recent
  rw [rollingSuccessRate, Curve.latest_count, List.countP_eq_length_filter]
  rfl

theorem averageReward_count (history : List (EpisodeRecord Float)) (k : ℕ) :
    let recent := if k = 0 then history else history.rtake k
    averageReward history (.count k) = if recent.isEmpty then 0
      else recent.foldl (fun sum r => sum + r.totalReward) 0 / Float.ofNat recent.length := by
  intro recent
  rw [averageReward, Curve.latest_count, Scalar.mean, Scalar.sum, List.foldl_map, List.isEmpty_map,
    List.length_map]
  rfl

theorem rollingSuccessRate_eq_iff (history : List (EpisodeRecord ℝ)) (k : ℕ) :
    rollingSuccessRate (history.map (·.map real)) (.count k) =
        real (successShare (history.rtake k)) ↔
      1 ≤ k ∨ ∀ r ∈ history, r.success = false := by
  rw [rollingSuccessRate_exact, Curve.latest_count, real_inj]
  cases k with
  | zero =>
    have nothing : successShare (history.rtake 0) = 0 := by
      rw [List.rtake_zero, successShare_nil]
    rw [if_pos rfl, nothing, successShare_eq_zero_iff]
    simp
  | succ k => simp

theorem averageReward_eq_iff (history : List (EpisodeRecord ℝ)) (k : ℕ) :
    averageReward (history.map (·.map real)) (.count k) =
        real (average (rewards (history.rtake k))) ↔
      1 ≤ k ∨ (rewards history).sum = 0 := by
  rw [averageReward_exact, Curve.latest_count, real_inj]
  cases k with
  | zero =>
    have nothing : average (rewards (history.rtake 0)) = 0 := by
      rw [List.rtake_zero, rewards, List.map_nil, average_nil]
    rw [if_pos rfl, nothing, average_eq_zero_iff]
    simp
  | succ k => simp

/-- The figures that a trainer draws from its last episodes, however many it has had. They are the
share of successes and the mean reward of the last `k` of them, of all where there are not so many,
and zero where there are none; but over no episodes they are the figures of all, which are not zero
where there was a success and where the rewards do not cancel. In exact arithmetic, a curve of
rolling means over the successes has the rate over the episodes so far at every episode, and ends
with that over all of them. -/
theorem rolling_figures (k : ℕ) :
    (∀ history : List (EpisodeRecord Float),
      let recent := if k = 0 then history else history.rtake k
      rollingSuccessRate history (.count k) = (if recent.isEmpty then 0
        else Float.ofNat (recent.countP (·.success)) / Float.ofNat recent.length) ∧
      averageReward history (.count k) = (if recent.isEmpty then 0
        else recent.foldl (fun sum r => sum + r.totalReward) 0 / Float.ofNat recent.length)) ∧
    ∀ history : List (EpisodeRecord ℝ),
      let past := history.map (·.map real)
      let recent := history.rtake k
      let curve := Curve.rollingAverage (past.map fun r => Scalar.ofBool r.success) (.count k)
      recent <:+ history ∧ recent.length = min k history.length ∧
      (rollingSuccessRate past (.count k) = real (recent.countP (·.success) / recent.length) ↔
        1 ≤ k ∨ ∀ r ∈ history, r.success = false) ∧
      (averageReward past (.count k) = real ((recent.map (·.totalReward)).sum / recent.length) ↔
        1 ≤ k ∨ (history.map (·.totalReward)).sum = 0) ∧
      (1 ≤ k → (∀ i < history.length,
          curve[i]? = some (rollingSuccessRate (past.take (i + 1)) (.count k))) ∧
        (history ≠ [] → curve.getLast? = some (rollingSuccessRate past (.count k)))) := by
  constructor
  · intro history
    exact ⟨rollingSuccessRate_count history k, averageReward_count history k⟩
  · intro history past recent curve
    have count : recent.length = min k history.length := by
      rw [show recent = history.drop (history.length - k) from rfl, List.length_drop]
      omega
    have paid : average (rewards recent) = (recent.map (·.totalReward)).sum / recent.length := by
      rw [average, rewards, List.length_map]
    refine ⟨List.drop_suffix _ _, count, rollingSuccessRate_eq_iff history k,
      paid ▸ averageReward_eq_iff history k, fun wide => ⟨fun i => curve_exact history wide, ?_⟩⟩
    intro nonempty
    have all : 0 < history.length := List.length_pos_iff.mpr nonempty
    have length : curve.length = history.length := by
      simp only [curve, past, Curve.rollingAverage, List.length_map, List.length_range]
    rw [List.getLast?_eq_getElem?, length, curve_exact history wide (by omega),
      Nat.sub_add_cancel all, List.take_of_length_le (by rw [List.length_map])]

theorem rolling_figures_two :
    let won : EpisodeRecord ℝ := sampleRecord 1 "a"
    let lost : EpisodeRecord ℝ := { sampleRecord 0 "b" with success := false }
    1 ≤ 1 ∧ [won, lost] ≠ [] ∧
    (Curve.rollingAverage (([won, lost].map (·.map real)).map fun r => Scalar.ofBool r.success)
      (.count 1)).getLast? =
        some (rollingSuccessRate ([won, lost].map (·.map real)) (.count 1)) := by
  intro won lost
  have nonempty : [won, lost] ≠ [] := List.cons_ne_nil _ _
  obtain ⟨_, figures⟩ := rolling_figures 1
  obtain ⟨_, _, _, _, ends⟩ := figures [won, lost]
  exact ⟨le_rfl, nonempty, (ends le_rfl).2 nonempty⟩

/-- Over the last none of a single episode that succeeded, the rate is not zero. -/
theorem no_episodes_count_as_all :
    rollingSuccessRate [sampleRecord (1 : Float) "a"] (.count 0) ≠ 0 := by
  decide +kernel

end Trainer
end
end ProgramGym
