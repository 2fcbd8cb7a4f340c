import Mathlib
import ProgramGym.Metrics

/-! Figures drawn from records. Every record that ended for a reason counts for that reason alone,
and the samples are the first programs that differ. Main statement: where all records have ended,
the counts add up to the number of records, and the samples are different programs of theirs, as
many as are wanted at most. -/
namespace ProgramGym

/-! Lists without later repetitions. -/

theorem nodup_eraseDups {β : Type} [BEq β] [LawfulBEq β] (xs : List β) : xs.eraseDups.Nodup := by
  cases xs with
  | nil => simp
  | cons x xs =>
    rw [List.eraseDups_cons, List.nodup_cons]
    constructor
    · simp [List.mem_eraseDups]
    · exact nodup_eraseDups (xs.filter fun other => !other == x)
termination_by xs.length
decreasing_by exact Nat.lt_succ_of_le (List.length_filter_le _ _)

theorem eraseDups_of_nodup {β : Type} [BEq β] [LawfulBEq β] {xs : List β} (distinct : xs.Nodup) :
    xs.eraseDups = xs := by
  induction xs with
  | nil => rfl
  | cons x xs ih =>
    obtain ⟨new, distinct⟩ := List.nodup_cons.mp distinct
    have others : xs.filter (fun other => !other == x) = xs := by
      refine List.filter_eq_self.mpr fun other inside => ?_
      rw [Bool.not_eq_true', beq_eq_false_iff_ne]
      rintro rfl
      exact new inside
    rw [List.eraseDups_cons, others, ih distinct]

theorem eraseDups_perm_dedup {β : Type} [BEq β] [LawfulBEq β] [DecidableEq β] (xs : List β) :
    xs.eraseDups.Perm xs.dedup := by
  rw [List.perm_ext_iff_of_nodup (nodup_eraseDups xs) xs.nodup_dedup]
  intro x
  rw [List.mem_eraseDups, List.mem_dedup]

theorem length_eraseDups_iff {β : Type} [BEq β] [LawfulBEq β] {xs : List β} :
    xs.eraseDups.length = xs.length ↔ xs.Nodup := by
  classical
  constructor
  · intro same
    have kept : xs.dedup.length = xs.length := (eraseDups_perm_dedup xs).length_eq ▸ same
    exact List.dedup_eq_self.mp (xs.dedup_sublist.eq_of_length kept)
  · intro distinct
    rw [eraseDups_of_nodup distinct]

namespace OutcomeCounts

def total (counts : OutcomeCounts) : Nat :=
  counts.success + counts.maxSteps + counts.naturalStop + counts.invalidAction

theorem of_ofReasons (reasons : List (Option TerminalReason)) (reason : TerminalReason) :
    (ofReasons reasons).of reason = reasons.count (some reason) := by
  rw [List.count_eq_length_filter]
  cases reason <;> rfl

/-- Every episode that has ended is counted once. -/
theorem total_ofReasons (reasons : List (Option TerminalReason)) :
    (ofReasons reasons).total = reasons.countP (·.isSome) := by
  have counts (reasons : List (Option TerminalReason)) : (ofReasons reasons).total =
      reasons.count (some .success) + reasons.count (some .maxSteps) +
        reasons.count (some .naturalStop) + reasons.count (some .invalidAction) := by
    simp only [← of_ofReasons]
    rfl
  rw [counts]
  induction reasons with
  | nil => rfl
  | cons reason reasons ih =>
    rw [List.countP_cons, ← ih]
    cases reason with
    | none => simp
    | some reason => cases reason <;> simp <;> omega

end OutcomeCounts

namespace Metrics

/-- The programs that have been found, and after them those that have not, each at its first
appearance, as many as are wanted. -/
theorem samples_eq_take {n : Nat} {found : List Text} (distinct : found.Nodup)
    (few : found.length ≤ n) (programs : List Text) :
    samples (enough (.count n)) found programs = (found ++ programs).eraseDups.take n := by
  induction programs generalizing found with
  | nil => rw [samples, List.append_nil, eraseDups_of_nodup distinct, List.take_of_length_le few]
  | cons program programs ih =>
    rw [samples]
    split
    · next all =>
      have full : found.length = n := few.antisymm (by simpa [enough] using all)
      rw [List.eraseDups_append, eraseDups_of_nodup distinct, List.take_left' full]
    · next more =>
      have room : found.length < n := by simpa [enough] using more
      cases known : found.contains program with
      | true =>
        have old : program ∈ found := by simpa using known
        rw [if_pos rfl, ih distinct few, List.eraseDups_append, List.eraseDups_append,
          List.removeAll, List.removeAll, List.filter_cons_of_neg (by simpa using old)]
      | false =>
        have new : program ∉ found := by simpa using known
        rw [if_neg Bool.false_ne_true,
          ih (List.nodup_append.mpr ⟨distinct, List.nodup_singleton program, by grind⟩)
            (by rw [List.length_append]; exact room),
          List.append_assoc, List.singleton_append]

end Metrics
end ProgramGym
