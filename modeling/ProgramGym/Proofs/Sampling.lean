import Mathlib
import ProgramGym.Proofs.Decimal.Sums

/-! Sampling an index by its probability. The running sum is rounded, but no number that is not
negative makes it smaller and a zero leaves it as it is. Main statement: a draw below the sum of all
probabilities falls on the least index whose running sum is above it, which is one of positive
probability, and any other draw falls on the last index, whatever the probability there is. -/
namespace ProgramGym.Linear

section
variable {α : Type} [Scalar α] {draw : α}

/-- The index that is found is the least one whose running sum exceeds the draw, and where none is
found there is no such index. -/
theorem sampleFrom_cases (draw cumulative : α) (index : Nat) (probabilities : List α) :
    (sampleFrom draw index cumulative probabilities = none ∧ ∀ i < probabilities.length,
      Scalar.lt draw ((probabilities.take (i + 1)).foldl (· + ·) cumulative) = false) ∨
    ∃ i < probabilities.length,
      sampleFrom draw index cumulative probabilities = some (index + i) ∧
      Scalar.lt draw ((probabilities.take (i + 1)).foldl (· + ·) cumulative) = true ∧
      ∀ j < i, Scalar.lt draw ((probabilities.take (j + 1)).foldl (· + ·) cumulative) = false := by
  induction probabilities generalizing index cumulative with
  | nil => exact .inl ⟨rfl, fun i below => absurd below (Nat.not_lt_zero i)⟩
  | cons p probabilities ih =>
    cases here : Scalar.lt draw (cumulative + p) with
    | true =>
      refine .inr ⟨0, Nat.succ_pos _, ?_, here, fun j below => absurd below (Nat.not_lt_zero j)⟩
      simp [sampleFrom, here]
    | false =>
      have next : sampleFrom draw index cumulative (p :: probabilities) =
          sampleFrom draw (index + 1) (cumulative + p) probabilities := by
        simp [sampleFrom, here]
      rw [next]
      rcases ih (cumulative + p) (index + 1) with ⟨missed, least⟩ | ⟨i, below, found, above, least⟩
      · refine .inl ⟨missed, fun i below => ?_⟩
        cases i with
        | zero => exact here
        | succ i => exact least i (Nat.succ_lt_succ_iff.mp below)
      · refine .inr ⟨i + 1, Nat.succ_lt_succ below, ?_, above, fun j before => ?_⟩
        · rw [found, Nat.add_assoc, Nat.add_comm 1 i]
        · cases j with
          | zero => exact here
          | succ j => exact least j (Nat.succ_lt_succ_iff.mp before)

end

section
open Binary64
variable {probabilities more : List Float} {draw p : Float}

theorem sum_concat (probabilities : List Float) (p : Float) :
    Scalar.sum (probabilities ++ [p]) = Scalar.sum probabilities + p := by
  simp only [Scalar.sum, List.foldl_append, List.foldl_cons, List.foldl_nil]

theorem reaches_sum (nonneg : ∀ p ∈ probabilities, 0 ≤ p) :
    ∃ v, Reaches (Scalar.sum probabilities) v := by
  -- added from the front, so that the last probability is the last summand
  induction probabilities using List.reverseRecOn with
  | nil => exact ⟨_, .worth worth_zero⟩
  | append_singleton probabilities p ih =>
    obtain ⟨v, sum⟩ := ih fun q member => nonneg q (by simp [member])
    obtain ⟨w, last⟩ := reaches_of_nonneg (nonneg p (by simp))
    obtain ⟨u, whole, _⟩ := sum.add last
    exact ⟨u, sum_concat probabilities p ▸ whole⟩

/-- No probability makes the running sum smaller. -/
theorem lt_sum_append (nonneg : ∀ p ∈ probabilities ++ more, 0 ≤ p) (unit : 0 ≤ draw)
    (below : draw < Scalar.sum probabilities) : draw < Scalar.sum (probabilities ++ more) := by
  induction more using List.reverseRecOn with
  | nil => rwa [List.append_nil]
  | append_singleton more p ih =>
    rw [← List.append_assoc] at nonneg ⊢
    have before : ∀ q ∈ probabilities ++ more, 0 ≤ q := fun q member =>
      nonneg q (List.mem_append_left _ member)
    obtain ⟨t, drawn⟩ := reaches_of_nonneg unit
    obtain ⟨v, sum⟩ := reaches_sum before
    obtain ⟨w, last⟩ := reaches_of_nonneg (nonneg p (by simp))
    obtain ⟨u, whole, above⟩ := sum.add last
    rw [sum_concat, drawn.lt_iff whole]
    exact ((drawn.lt_iff sum).mp (ih before)).trans_le above

/-- A probability that is not positive leaves the running sum as it is. -/
theorem lt_sum_concat_zero (nonneg : ∀ q ∈ probabilities ++ [p], 0 ≤ q) (unit : 0 ≤ draw)
    (zero : ¬ 0 < p) :
    draw < Scalar.sum (probabilities ++ [p]) ↔ draw < Scalar.sum probabilities := by
  obtain ⟨t, drawn⟩ := reaches_of_nonneg unit
  obtain ⟨v, sum⟩ := reaches_sum fun q member => nonneg q (List.mem_append_left [p] member)
  obtain ⟨w, last⟩ := reaches_of_nonneg (nonneg p (by simp))
  obtain ⟨s, unpacked⟩ := last.zero_of_not_pos zero
  rw [sum_concat, drawn.lt_iff (sum.add_zero unpacked), drawn.lt_iff sum]

/-- The probability at the least index whose running sum exceeds the draw is positive. -/
theorem pos_of_crossing {i : Nat} (nonneg : ∀ p ∈ probabilities, 0 ≤ p) (unit : 0 ≤ draw)
    (inside : i < probabilities.length)
    (above : draw < Scalar.sum (probabilities.take (i + 1)))
    (least : ∀ j < i, ¬ draw < Scalar.sum (probabilities.take (j + 1))) :
    0 < probabilities[i] := by
  have before : ¬ draw < Scalar.sum (probabilities.take i) := by
    cases i with
    | zero =>
      obtain ⟨t, drawn⟩ := reaches_of_nonneg unit
      have start : Reaches (Scalar.sum (probabilities.take 0)) 0 := .worth worth_zero
      exact (drawn.lt_iff start).not.mpr drawn.nonneg.not_gt
    | succ j => exact least j (Nat.lt_succ_self j)
  -- a zero would leave the running sum where it was, and there it did not exceed the draw
  by_contra zero
  have split : probabilities.take (i + 1) = probabilities.take i ++ [probabilities[i]] := by simp
  rw [split, lt_sum_concat_zero ?_ unit zero] at above
  · exact before above
  · rw [← split]
    exact fun p member => nonneg p (List.mem_of_mem_take member)

/-- A draw below the sum gives the least index whose running sum is above it, any other one the last
index. The probability there is positive unless the draw is not below the sum and the last
probability is zero. -/
theorem sample?_least_iff_positive (nonempty : probabilities ≠ [])
    (nonneg : ∀ p ∈ probabilities, 0 ≤ p) (unit : 0 ≤ draw) :
    ∃ (i : Nat) (inside : i < probabilities.length), sample? probabilities draw = some i ∧
      (draw < Scalar.sum probabilities → draw < Scalar.sum (probabilities.take (i + 1)) ∧
        ∀ j < i, ¬ draw < Scalar.sum (probabilities.take (j + 1))) ∧
      (¬ draw < Scalar.sum probabilities → i + 1 = probabilities.length) ∧
      (0 < probabilities[i] ↔
        draw < Scalar.sum probabilities ∨ 0 < probabilities.getLast nonempty) := by
  have pos := List.length_pos_of_ne_nil nonempty
  rcases sampleFrom_cases draw (Scalar.nat 0) 0 probabilities with
    ⟨missed, least⟩ | ⟨i, inside, found, above, least⟩
  · have last : sample? probabilities draw = some (probabilities.length - 1) := by
      simp [sample?, missed, nonempty]
    have passed : ¬ draw < Scalar.sum probabilities := by
      have := least (probabilities.length - 1) (by omega)
      rw [Nat.sub_add_cancel pos, List.take_length] at this
      exact of_decide_eq_false this
    refine ⟨probabilities.length - 1, by omega, last, fun below => absurd below passed,
      fun _ => Nat.sub_add_cancel pos, ?_⟩
    rw [List.getLast_eq_getElem, or_iff_right passed]
  · have drawn : sample? probabilities draw = some i := by
      simp [sample?, found]
    have above : draw < Scalar.sum (probabilities.take (i + 1)) := of_decide_eq_true above
    have least : ∀ j < i, ¬ draw < Scalar.sum (probabilities.take (j + 1)) := fun j before =>
      of_decide_eq_false (least j before)
    have below : draw < Scalar.sum probabilities := by
      have whole := List.take_append_drop (i + 1) probabilities
      rw [← whole] at nonneg ⊢
      exact lt_sum_append nonneg unit above
    exact ⟨i, inside, drawn, fun _ => ⟨above, least⟩, fun passed => absurd below passed,
      iff_of_true (pos_of_crossing nonneg unit inside above least) (.inl below)⟩

/-- A draw between two running sums passes over the zero between them. -/
theorem sample?_least_iff_positive_half :
    ([0.5, 0, 0.25] : List Float) ≠ [] ∧ (∀ p ∈ ([0.5, 0, 0.25] : List Float), 0 ≤ p) ∧
    (0 : Float) ≤ 0.5 ∧
    ∃ (i : Nat) (inside : i < ([0.5, 0, 0.25] : List Float).length),
      sample? ([0.5, 0, 0.25] : List Float) 0.5 = some i ∧
      ((0.5 : Float) < Scalar.sum [0.5, 0, 0.25] →
        (0.5 : Float) < Scalar.sum (([0.5, 0, 0.25] : List Float).take (i + 1)) ∧
        ∀ j < i, ¬ (0.5 : Float) < Scalar.sum (([0.5, 0, 0.25] : List Float).take (j + 1))) ∧
      (¬ (0.5 : Float) < Scalar.sum [0.5, 0, 0.25] →
        i + 1 = ([0.5, 0, 0.25] : List Float).length) ∧
      (0 < ([0.5, 0, 0.25] : List Float)[i] ↔ (0.5 : Float) < Scalar.sum [0.5, 0, 0.25] ∨
        0 < ([0.5, 0, 0.25] : List Float).getLast (List.cons_ne_nil _ _)) := by
  have nonneg : ∀ p ∈ ([0.5, 0, 0.25] : List Float), 0 ≤ p := by decide +kernel
  have unit : (0 : Float) ≤ 0.5 := by decide +kernel
  exact ⟨List.cons_ne_nil _ _, nonneg, unit,
    sample?_least_iff_positive (List.cons_ne_nil _ _) nonneg unit⟩

/-- Ten tenths come to less than one. A draw above them falls on what follows, which is zero. -/
theorem sample?_zero_after_tenths :
    (∀ p ∈ List.replicate 10 (0.1 : Float) ++ [0], 0 ≤ p) ∧ (0 : Float) < 0.1 ∧
    (0 : Float) ≤ 0.9999999999999999 ∧ (0.9999999999999999 : Float) < 1 ∧
    sample? (List.replicate 10 (0.1 : Float) ++ [0]) 0.9999999999999999 = some 10 ∧
    (List.replicate 10 (0.1 : Float) ++ [0])[10]? = some 0 := by
  decide +kernel

end
end ProgramGym.Linear
