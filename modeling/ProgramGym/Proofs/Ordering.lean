import Mathlib.Data.List.Lex
import Mathlib.Data.String.Basic
import ProgramGym.Text.Units

/-! The order of texts by their units. It is a total preorder, so that sorting by it leaves a
list in order. Main statement: on texts of the basic plane it is the order of code points. -/
namespace ProgramGym.Text

theorem unitsLt_iff (us vs : List UInt16) :
    unitsLt us vs = true ↔ us.map UInt16.toNat < vs.map UInt16.toNat := by
  induction us generalizing vs with
  | nil => cases vs <;> simp [unitsLt]
  | cons u us ih =>
    cases vs with
    | nil => simp [unitsLt]
    | cons v vs =>
      rw [unitsLt, List.map_cons, List.map_cons, List.cons_lt_cons_iff, ← ih]
      simp [UInt16.lt_iff_toNat_lt, UInt16.toNat_inj]

/-- The numbers of the units of a text. -/
def numbers (s : String) : List Nat := (unitsOfChars s.toList).map UInt16.toNat

theorem le_iff_numbers (a b : String) : le a b = true ↔ numbers a ≤ numbers b := by
  rw [le, Bool.not_eq_true', Bool.eq_false_iff, Ne, unitsLt_iff]
  exact not_lt

theorem pairwise_mergeSort (names : List String) :
    (names.mergeSort le).Pairwise fun a b => le a b = true := by
  apply List.pairwise_mergeSort
  · intro a b c first second
    rw [le_iff_numbers] at *
    exact first.trans second
  · intro a b
    rw [Bool.or_eq_true, le_iff_numbers, le_iff_numbers]
    exact le_total _ _

theorem map_toNat_unitsOfChars {cs : List Char} (basic : ∀ c ∈ cs, c.toNat < 0x10000) :
    (unitsOfChars cs).map UInt16.toNat = cs.map Char.toNat := by
  induction cs with
  | nil => rfl
  | cons c cs ih =>
    have single := basic c List.mem_cons_self
    rw [unitsOfChars, List.flatMap_cons, unitsOf, if_pos single, List.map_append, ← unitsOfChars,
      ih fun other inside => basic other (List.mem_cons_of_mem c inside), List.map_singleton,
      toNat_ofNat_unit single]
    rfl

theorem map_toNat_lt_iff (as bs : List Char) :
    as.map Char.toNat < bs.map Char.toNat ↔ as < bs := by
  induction as generalizing bs with
  | nil => cases bs <;> simp
  | cons a as ih =>
    cases bs with
    | nil => simp
    | cons b bs =>
      rw [List.map_cons, List.map_cons, List.cons_lt_cons_iff, List.cons_lt_cons_iff, ih,
        Char.toNat_inj]
      rfl

/-- All characters of a text are one unit each. -/
def Basic (s : String) : Prop := ∀ c ∈ s.toList, c.toNat < 0x10000

theorem le_iff_of_basic {a b : String} (basicA : Basic a) (basicB : Basic b) :
    le a b = true ↔ a ≤ b := by
  rw [le_iff_numbers, numbers, numbers, map_toNat_unitsOfChars basicA, map_toNat_unitsOfChars basicB,
    ← not_lt, ← not_lt, map_toNat_lt_iff, String.lt_iff_toList_lt]

/-- Names without repetition that are sorted are in ascending order, whether they are sorted by
units or by code points. -/
theorem ascending_mergeSort {names : List String} (basic : ∀ name ∈ names, Basic name)
    (once : names.Nodup) : (names.mergeSort le).Pairwise (· < ·) := by
  have apart : (names.mergeSort le).Nodup := (List.mergeSort_perm names le).nodup_iff.mpr once
  refine ((pairwise_mergeSort names).and apart).imp_of_mem fun {a b} insideA insideB related => ?_
  rw [List.mem_mergeSort] at insideA insideB
  exact lt_of_le_of_ne ((le_iff_of_basic (basic a insideA) (basic b insideB)).mp related.1)
    related.2

theorem ascending_sorted {names : List String} {test : String → String → Bool}
    (order : ∀ a b, test a b = true ↔ a ≤ b) (once : names.Nodup) :
    (names.mergeSort test).Pairwise (· < ·) := by
  have sorted : (names.mergeSort test).Pairwise fun a b => test a b = true := by
    apply List.pairwise_mergeSort
    · intro a b c first second
      rw [order] at *
      exact first.trans second
    · intro a b
      rw [Bool.or_eq_true, order, order]
      exact le_total a b
  refine (sorted.and ((List.mergeSort_perm names _).nodup_iff.mpr once)).imp fun related => ?_
  exact lt_of_le_of_ne ((order _ _).mp related.1) related.2

/-- Lists in ascending order differ in a member if at all. -/
theorem ascending_ext {as bs : List String} (sortedA : as.Pairwise (· < ·))
    (sortedB : bs.Pairwise (· < ·)) (same : ∀ name, name ∈ as ↔ name ∈ bs) : as = bs := by
  have members : as.Perm bs := by
    rw [List.perm_ext_iff_of_nodup (sortedA.imp ne_of_lt) (sortedB.imp ne_of_lt)]
    exact same
  apply members.eq_of_pairwise _ sortedA sortedB
  intro a b _ _ before after
  exact absurd before (lt_asymm after)

end ProgramGym.Text
