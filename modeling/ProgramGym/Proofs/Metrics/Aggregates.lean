import Mathlib
import ProgramGym.Proofs.Exact.Averages
import ProgramGym.Proofs.Metrics

/-! Figures over records in exact arithmetic. Rewards and lengths are averaged, successes and
reasons counted, and none of it asks in which order the records come; only the sample programs do.
Main statement: what the samples and the counts are, and that the other figures are those of the
records in any order, with variances that are not negative. -/
namespace ProgramGym
noncomputable section

def EpisodeRecord.map {α β : Type} (f : α → β) (r : EpisodeRecord α) : EpisodeRecord β where
  episode := r.episode
  totalReward := f r.totalReward
  success := r.success
  steps := r.steps
  reason := r.reason
  program := r.program

namespace Metrics
open Exact

/-! Records of real rewards. -/

def rewards (records : List (EpisodeRecord ℝ)) : List ℝ := records.map (·.totalReward)

def lengths (records : List (EpisodeRecord ℝ)) : List ℝ := records.map fun r => (r.steps : ℝ)

def successShare (records : List (EpisodeRecord ℝ)) : ℝ :=
  records.countP (·.success) / records.length

theorem successShare_nil : successShare [] = 0 := by
  rw [successShare, List.countP_nil, Nat.cast_zero, zero_div]

theorem successShare_eq_zero_iff {records : List (EpisodeRecord ℝ)} :
    successShare records = 0 ↔ ∀ r ∈ records, r.success = false := by
  rw [successShare, div_eq_zero_iff, Nat.cast_eq_zero, Nat.cast_eq_zero, List.length_eq_zero_iff,
    List.countP_eq_zero]
  constructor
  · rintro (failed | rfl) r inside
    · exact Bool.eq_false_of_not_eq_true (failed r inside)
    · exact absurd inside List.not_mem_nil
  · intro failed
    exact .inl fun r inside => Bool.not_eq_true _ ▸ failed r inside

/-- Every figure over records of real rewards. -/
theorem compute_exact (records : List (EpisodeRecord ℝ)) (limit : Quantity Float) :
    compute (records.map (·.map real)) limit =
      { numEpisodes := records.length
        successRate := real (successShare records)
        meanReward := real (average (rewards records))
        rewardVariance := real (spread (rewards records))
        stdReward := real √(spread (rewards records))
        meanLength := real (average (lengths records))
        stdLength := real √(spread (lengths records))
        outcomes := .ofReasons (records.map (·.reason))
        samplePrograms := samples (enough limit) [] (records.map (·.program)) } := by
  have paid : (records.map (·.map real)).map (·.totalReward) = (rewards records).map real := by
    rw [rewards, List.map_map, List.map_map]
    rfl
  have taken : ((records.map (·.map real)).map fun r => (Scalar.nat r.steps : Exact)) =
      (lengths records).map real := by
    rw [lengths, List.map_map, List.map_map]
    rfl
  have share : (if (records.map (·.map real)).isEmpty then (Scalar.nat 0 : Exact)
      else Scalar.nat ((records.map (·.map real)).filter (·.success)).length /
        Scalar.nat (records.map (·.map real)).length) = real (successShare records) := by
    rw [share_real, List.countP_map, List.length_map]
    rfl
  simp only [compute, share, paid, taken, mean_reals, variance_reals, sqrt_real (spread_nonneg _)]
  simp only [List.length_map, List.map_map]
  rfl

/-- All figures but the samples are those of the records in any other order. -/
theorem compute_perm {records others : List (EpisodeRecord ℝ)} (same : others.Perm records)
    (limit limit' : Quantity Float) :
    { compute (others.map (·.map real)) limit with samplePrograms := [] } =
      { compute (records.map (·.map real)) limit' with samplePrograms := [] } := by
  have share : successShare others = successShare records := by
    rw [successShare, successShare, same.countP_eq, same.length_eq]
  have paid : (rewards others).Perm (rewards records) := same.map _
  have taken : (lengths others).Perm (lengths records) := same.map _
  have counts : OutcomeCounts.ofReasons (others.map (·.reason)) =
      .ofReasons (records.map (·.reason)) := by
    have count (p : Option TerminalReason → Bool) : ((others.map (·.reason)).filter p).length =
        ((records.map (·.reason)).filter p).length := ((same.map _).filter p).length_eq
    simp only [OutcomeCounts.ofReasons, count]
  simp only [compute_exact, share, average_perm paid, spread_perm paid, average_perm taken,
    spread_perm taken, counts, same.length_eq]

/-- Figures drawn from any records, at most so many samples wanted. The samples are the first of the
different programs, in the order of their first appearance, and every count is the number of records
that ended for its reason, so that together they number those that ended. In exact arithmetic all
figures but the samples are the same for the records in any order; the variances behind the
deviations are not negative, and that of the rewards is the mean of their squares less the square of
their mean. -/
theorem aggregates (n : ℕ) :
    (∀ records : List (EpisodeRecord Float),
      let metrics := compute records (.count n)
      metrics.samplePrograms = (records.map (·.program)).eraseDups.take n ∧
      (∀ reason, metrics.outcomes.of reason = records.countP (·.reason == some reason)) ∧
      metrics.outcomes.total = records.countP (·.reason.isSome)) ∧
    ∀ records : List (EpisodeRecord ℝ),
      let metrics := compute (records.map (·.map real)) (.count n)
      (∀ others : List (EpisodeRecord ℝ), others.Perm records →
        { compute (others.map (·.map real)) (.count n) with samplePrograms := [] } =
          { metrics with samplePrograms := [] }) ∧
      ∃ meanReward rewardVariance lengthVariance : ℝ,
        metrics.meanReward = real meanReward ∧
        metrics.rewardVariance = real rewardVariance ∧ 0 ≤ rewardVariance ∧
        metrics.stdReward = real √rewardVariance ∧
        Scalar.variance (records.map fun r => Scalar.nat r.steps) = real lengthVariance ∧
        0 ≤ lengthVariance ∧ metrics.stdLength = real √lengthVariance ∧
        rewardVariance =
          (records.map fun r => r.totalReward ^ 2).sum / records.length - meanReward ^ 2 := by
  constructor
  · intro records metrics
    refine ⟨samples_eq_take List.nodup_nil (Nat.zero_le n) _, fun reason => ?_, ?_⟩
    · refine (OutcomeCounts.of_ofReasons _ reason).trans ?_
      rw [List.count_eq_countP, List.countP_map]
      rfl
    · refine (OutcomeCounts.total_ofReasons _).trans ?_
      rw [List.countP_map]
      rfl
  · intro records metrics
    have figures : metrics = _ := compute_exact records (.count n)
    have squares : average ((rewards records).map (· ^ 2)) =
        (records.map fun r => r.totalReward ^ 2).sum / records.length := by
      rw [average, rewards, List.map_map, List.length_map]
      rfl
    have spent : (records.map fun r => Scalar.nat r.steps) = (lengths records).map real := by
      rw [lengths, List.map_map]
      rfl
    refine ⟨fun others same => compute_perm same _ _, average (rewards records),
      spread (rewards records), spread (lengths records), ?_, ?_, spread_nonneg _, ?_, ?_,
      spread_nonneg _, ?_, ?_⟩
    · rw [figures]
    · rw [figures]
    · rw [figures]
    · rw [spent, variance_reals]
    · rw [figures]
    · rw [spread_eq, squares]

def sampleRecord {α : Type} (reward : α) (program : Text) : EpisodeRecord α :=
  ⟨1, reward, true, 2, some .success, program⟩

theorem aggregates_sample :
    (compute [sampleRecord (1 : Float) "a", sampleRecord 2 "a", sampleRecord 3 "b",
      sampleRecord 4 "c"] (.count 2)).samplePrograms = ["a", "b"] ∧
    [sampleRecord (3 : ℝ) "b", sampleRecord 1 "a"].Perm [sampleRecord 1 "a", sampleRecord 3 "b"] ∧
    { compute ([sampleRecord (3 : ℝ) "b", sampleRecord 1 "a"].map (·.map real)) (.count 2) with
        samplePrograms := [] } =
      { compute ([sampleRecord (1 : ℝ) "a", sampleRecord 3 "b"].map (·.map real)) (.count 2) with
        samplePrograms := [] } := by
  obtain ⟨counted, ordered⟩ := aggregates 2
  have swapped := List.Perm.swap (sampleRecord (1 : ℝ) "a") (sampleRecord 3 "b") []
  refine ⟨(counted _).1.trans ?_, swapped, (ordered _).1 _ swapped⟩
  rw [show List.map (fun r : EpisodeRecord Float => r.program) _ = ["a", "a", "b", "c"] from rfl]
  decide

end Metrics
end
end ProgramGym
