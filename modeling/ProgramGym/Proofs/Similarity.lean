import Mathlib
import ProgramGym.Proofs.Decimal.Values
import ProgramGym.Proofs.Exact.Numbers
import ProgramGym.Similarity

/-! Similarity as a score. Sequences agree in no more places than the longer one has, and in that
many only if they are equal, so the early answer for equal texts is the one that counting would
give. Main statements: the score is a fraction between zero and one, the same for both orders, and
one exactly for equal texts that are not blank; and dividing the counts in binary64 rounds no other
fraction to one. -/
namespace ProgramGym

namespace Text

theorem rdropWhile_head {β : Type} {p : β → Bool} {xs : List β}
    (kept : ∀ x ∈ xs.head?, p x = false) :
    ∀ x ∈ (xs.rdropWhile p).head?, p x = false := by
  intro x first
  obtain ⟨rest, whole⟩ := List.rdropWhile_prefix p (l := xs)
  refine kept x ?_
  rw [← whole]
  exact List.mem_head?_append_of_mem_head? first

theorem dropWhile_of_head {β : Type} {p : β → Bool} {xs : List β}
    (kept : ∀ x ∈ xs.head?, p x = false) : xs.dropWhile p = xs := by
  cases xs with
  | nil => rfl
  | cons x xs => rw [List.dropWhile_cons_of_neg (by simp [kept x rfl])]

theorem trim_trim (t : Text) : t.trim.trim = t.trim := by
  have first : ∀ u ∈ (t.units.dropWhile isBlankUnit).head?, isBlankUnit u = false := by
    intro u there
    have stopped := List.head?_dropWhile_not isBlankUnit t.units
    rw [Option.mem_def.mp there] at stopped
    exact stopped
  have kept := dropWhile_of_head (rdropWhile_head first)
  change Text.mk ((((t.units.dropWhile isBlankUnit).rdropWhile isBlankUnit).dropWhile
    isBlankUnit).rdropWhile isBlankUnit) = _
  rw [kept, List.rdropWhile_idempotent]
  rfl

theorem trim_length_le (t : Text) : t.trim.length ≤ t.length := by
  change t.trim.units.length ≤ t.units.length
  simp only [trim, List.length_reverse]
  exact ((List.dropWhile_sublist _).length_le.trans_eq List.length_reverse).trans
    (List.dropWhile_sublist _).length_le

end Text

namespace Similarity

section
variable (a b : List UInt16)

theorem agreements_comm : agreements a b = agreements b a := by
  induction a generalizing b with
  | nil => cases b <;> rfl
  | cons u us ih =>
    cases b with
    | nil => rfl
    | cons v vs => simp only [agreements, ih vs, Bool.beq_comm]

theorem agreements_le : agreements a b ≤ a.length := by
  induction a generalizing b with
  | nil => cases b <;> simp [agreements]
  | cons u us ih =>
    cases b with
    | nil => simp [agreements]
    | cons v vs =>
      have rest := ih vs
      simp only [agreements, List.length_cons]
      split <;> omega

theorem agreements_le_max : agreements a b ≤ max a.length b.length :=
  (agreements_le a b).trans (le_max_left _ _)

/-- Only equal sequences agree in every place of the longer one. -/
theorem eq_of_agreements (all : agreements a b = max a.length b.length) : a = b := by
  induction a generalizing b with
  | nil =>
    cases b with
    | nil => rfl
    | cons v vs => simp [agreements] at all
  | cons u us ih =>
    cases b with
    | nil => simp [agreements] at all
    | cons v vs =>
      have rest := agreements_le_max us vs
      simp only [agreements, List.length_cons] at all
      split at all
      · next same => rw [eq_of_beq same, ih vs (by omega)]
      · omega

end

variable (a b : Text)

/-- The score as the fraction that it is. -/
def fraction : ℚ := (ratio a b).1 / (ratio a b).2

theorem ratio_of_differ (some : b.trim.isEmpty = false) (differ : a.trim ≠ b.trim) :
    ratio a b = (agreements a.trim.units b.trim.units, max a.trim.length b.trim.length) := by
  simp [ratio, some, differ]

/-- The counts that are divided, by how they come about. -/
theorem ratio_cases :
    (b.trim.isEmpty = true ∧ ratio a b = (0, 1)) ∨
    (b.trim.isEmpty = false ∧ a.trim = b.trim ∧ ratio a b = (1, 1)) ∨
    (a.trim ≠ b.trim ∧
      agreements a.trim.units b.trim.units < max a.trim.length b.trim.length ∧
      ratio a b = (agreements a.trim.units b.trim.units, max a.trim.length b.trim.length)) := by
  cases blank : b.trim.isEmpty with
  | true => exact .inl ⟨rfl, by simp [ratio, blank]⟩
  | false =>
    by_cases same : a.trim = b.trim
    · exact .inr (.inl ⟨rfl, same, by simp [ratio, same, blank]⟩)
    · refine .inr (.inr ⟨same, lt_of_le_of_ne (agreements_le_max _ _) fun all => same ?_, ?_⟩)
      · exact congrArg Text.mk (eq_of_agreements _ _ all)
      · exact ratio_of_differ a b blank same

/-- Counts of agreements are at most what they are divided by, which is not zero. -/
theorem ratio_le : (ratio a b).1 ≤ (ratio a b).2 ∧ 0 < (ratio a b).2 := by
  rcases ratio_cases a b with ⟨_, counts⟩ | ⟨_, _, counts⟩ | ⟨_, below, counts⟩ <;> rw [counts]
  · decide
  · decide
  · exact ⟨below.le, by omega⟩

theorem ratio_eq_iff :
    (ratio a b).1 = (ratio a b).2 ↔ a.trim = b.trim ∧ a.trim.isEmpty = false := by
  rcases ratio_cases a b with ⟨blank, counts⟩ | ⟨some, same, counts⟩ | ⟨differ, below, counts⟩ <;>
    rw [counts]
  · refine iff_of_false (by decide) fun ⟨same, filled⟩ => ?_
    rw [same, blank] at filled
    cases filled
  · exact iff_of_true rfl ⟨same, same ▸ some⟩
  · exact iff_of_false below.ne fun both => differ both.1

theorem fraction_nonneg : 0 ≤ fraction a b := div_nonneg (Nat.cast_nonneg _) (Nat.cast_nonneg _)

theorem fraction_le_one : fraction a b ≤ 1 := by
  obtain ⟨le, pos⟩ := ratio_le a b
  exact div_le_one_of_le₀ (by exact_mod_cast le) (Nat.cast_nonneg _)

theorem fraction_eq_one_iff :
    fraction a b = 1 ↔ a.trim = b.trim ∧ a.trim.isEmpty = false := by
  obtain ⟨_, pos⟩ := ratio_le a b
  have nonzero : ((ratio a b).2 : ℚ) ≠ 0 := by exact_mod_cast pos.ne'
  rw [fraction, div_eq_one_iff_eq nonzero, ← ratio_eq_iff]
  exact Nat.cast_inj

/-- Nothing agrees with a blank text, on either side. -/
theorem fraction_blank (blank : a.trim.isEmpty = true ∨ b.trim.isEmpty = true) :
    fraction a b = 0 := by
  have none : (ratio a b).1 = 0 := by
    cases expected : b.trim.isEmpty with
    | true => simp [ratio, expected]
    | false =>
      have output : a.trim.isEmpty = true := by simpa [expected] using blank
      have differ : a.trim ≠ b.trim := fun same => by
        rw [same, expected] at output
        cases output
      rw [ratio_of_differ a b expected differ, List.isEmpty_iff.mp output]
      rfl
  rw [fraction, none, Nat.cast_zero, zero_div]

theorem fraction_comm : fraction a b = fraction b a := by
  cases output : a.trim.isEmpty with
  | true => rw [fraction_blank a b (.inl output), fraction_blank b a (.inr output)]
  | false =>
    cases expected : b.trim.isEmpty with
    | true => rw [fraction_blank a b (.inr expected), fraction_blank b a (.inl expected)]
    | false =>
      by_cases same : a.trim = b.trim
      · rw [(fraction_eq_one_iff a b).mpr ⟨same, output⟩,
          (fraction_eq_one_iff b a).mpr ⟨same.symm, expected⟩]
      · rw [fraction, fraction, ratio_of_differ a b expected same,
          ratio_of_differ b a output (Ne.symm same), agreements_comm, max_comm]

theorem fraction_trim : fraction a.trim b.trim = fraction a b := by
  simp only [fraction, ratio, Text.trim_trim]

/-- Over exact numbers the score is the fraction. -/
theorem positional_exact : (positional a b : Exact) = .real (fraction a b : ℚ) := by
  obtain ⟨_, pos⟩ := ratio_le a b
  have nonzero : ((ratio a b).2 : ℝ) ≠ 0 := by exact_mod_cast pos.ne'
  change Exact.real (ratio a b).1 / Exact.real (ratio a b).2 = _
  rw [Exact.real_div nonzero, fraction]
  push_cast
  rfl

/-! Over binary64 numbers the counts are exact as long as a number can count the units of the texts,
and the score is their quotient, rounded. -/

section
open Binary64
variable {a b}

theorem positional_of_match (some : b.trim.isEmpty = false) (same : a.trim = b.trim) :
    (positional a b : Float) = 1 := by
  have counts : ratio a b = (1, 1) := by simp [ratio, same, some]
  rw [positional, counts]
  decide +kernel

/-- What differs is scored by less than one, by as much as the length of the texts has room for. -/
theorem worth_positional {k : ℕ} (some : 1 ≤ k) (few : k ≤ 53) (filled : b.trim.isEmpty = false)
    (differ : a.trim ≠ b.trim) (output : a.length ≤ 2 ^ k) (expected : b.length ≤ 2 ^ k) :
    ∃ u ≤ (1 - (1 / 2) ^ k : ℚ), Worth (positional a b) u := by
  have counts := ratio_of_differ a b filled differ
  have less := lt_of_le_of_ne (ratio_le a b).1 fun all => differ ((ratio_eq_iff a b).mp all).1
  have small : (ratio a b).2 ≤ 2 ^ k := by
    rw [counts]
    exact max_le (a.trim_length_le.trans output) (b.trim_length_le.trans expected)
  exact worth_quotient some few small less

end

end Similarity
end ProgramGym
