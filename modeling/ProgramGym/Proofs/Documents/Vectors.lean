import ProgramGym.Curve.Documents
import ProgramGym.Linear.Documents
import ProgramGym.Proofs.Checks
import ProgramGym.Proofs.Decimal.Arithmetic

/-! Lists of numbers among the documents. Where values of any kind are taken, a list of numbers is
one of them, and texts, nulls and entries of other kinds no longer matter. Main statements: choices,
returns, first weights and the figures of curves are then those of the numbers themselves. -/
namespace ProgramGym

theorem Scalar.lt_float {x y : Float} : Scalar.lt x y = true ↔ x < y := decide_eq_true_iff

namespace Json

/-- A list of numbers as a document. -/
def numbers (xs : List Float) : Json := .array (xs.map .number)

@[simp] theorem toNumber_number (x : Float) : toNumber (.number x) = x := rfl

theorem map_toNumber_numbers (xs : List Float) : (xs.map Json.number).map toNumber = xs := by
  rw [List.map_map]
  exact List.map_id xs

theorem total_numbers (xs : List Float) :
    total ((xs.map .number).map some) = .number (Scalar.sum xs) := by
  rw [total, List.foldl_map, List.foldl_map, Scalar.sum]
  exact List.foldl_hom Json.number fun _ _ => rfl

theorem count_numbers (xs : List Float) : (numbers xs).count = Float.ofNat xs.length := by
  simp [numbers, count, elements?]

theorem mean_numbers (xs : List Float) : mean ((xs.map .number).map some) = Scalar.mean xs := by
  simp only [mean, total_numbers, List.isEmpty_map, List.length_map, Scalar.mean]
  rfl

end Json

namespace Linear
open Json

/-- A list of numbers that is gone through. -/
def Documents.Entries.numbers (xs : List Float) : Entries := ⟨Json.numbers xs, xs.map .number⟩

theorem vector_numbers (xs : List Float) : vector (some (Json.numbers xs)) = .ok xs :=
  congrArg Except.ok (map_toNumber_numbers xs)

/-- Where the first vector has no entries the second one does not matter. -/
theorem dot_partner (xs ys : List Float) :
    (partner xs (some (Json.numbers ys))).map (dot xs) = .ok (dot xs ys) := by
  cases xs with
  | nil => rfl
  | cons x xs =>
    have looked : partner (x :: xs) (some (Json.numbers ys)) = .ok ys := vector_numbers ys
    rw [looked]
    rfl

/-! Choices. -/

theorem Documents.argmaxFrom_numbers (best index : Nat) (value : Float) (xs : List Float) :
    argmaxFrom best (.number value) index (xs.map .number) =
      Linear.argmaxFrom best value index xs := by
  induction xs generalizing best value index with
  | nil => rfl
  | cons x xs ih =>
    simp only [List.map_cons, argmaxFrom, Linear.argmaxFrom, ih]
    rfl

theorem Documents.argmax_numbers (xs : List Float) :
    argmax (.numbers xs) = Linear.argmax xs := by
  cases xs with
  | nil => rfl
  | cons x xs => exact argmaxFrom_numbers 0 1 x xs

theorem Documents.softmax_numbers (logits : List Float) (temperature : Float) :
    softmax (some (Json.numbers logits)) temperature = .ok (Linear.softmax logits temperature) :=
  congrArg (fun xs => Except.ok (Linear.softmax xs temperature)) (map_toNumber_numbers logits)

theorem Documents.sampleFrom_numbers (draw cumulative : Float) (index : Nat) (xs : List Float) :
    sampleFrom draw index (.number cumulative) (xs.map .number) =
      Linear.sampleFrom draw index cumulative xs := by
  induction xs generalizing cumulative index with
  | nil => rfl
  | cons x xs ih =>
    have sum : add (some (.number cumulative)) (some (.number x)) = .number (cumulative + x) := rfl
    simp only [List.map_cons, sampleFrom, Linear.sampleFrom, sum, ih, Scalar.lt_float,
      toNumber_number]

/-- The index that a draw falls on is the same, and so is the one that it is taken for where
rounding left the sum too small. -/
theorem Documents.sample_numbers {xs : List Float} (some : xs ≠ []) (few : xs.length ≤ 2 ^ 53)
    (draw : Float) :
    (sample? xs draw).map Float.ofNat = Option.some (sample (.numbers xs) draw) := by
  have found := sampleFrom_numbers draw (Scalar.nat 0) 0 xs
  have last : Float.ofNat xs.length - 1 = Float.ofNat (xs.length - 1) :=
    Number.ofNat_sub_one (List.length_pos_iff.mpr some) few
  change sampleFrom draw 0 (.number 0) (xs.map .number) = _ at found
  simp only [sample, sample?, Entries.numbers, found]
  cases Linear.sampleFrom draw 0 (Scalar.nat 0) xs with
  | some i => rfl
  | none => simp [some, count_numbers, last]

theorem Documents.epsilonGreedy_numbers (values : List Float) (epsilon : Float) (s : Source Float) :
    epsilonGreedy (.numbers values) epsilon s = Linear.epsilonGreedy values epsilon s := by
  have greedy := argmax_numbers values
  simp only [epsilonGreedy, Linear.epsilonGreedy, Scalar.lt_float, ← greedy, Entries.numbers,
    count_numbers]
  rfl

/-! Returns. -/

theorem Documents.returnsFrom_numbers (gamma : Float) (rewards : List Float) :
    returnsFrom gamma (rewards.map .number) =
      (Linear.discountedReturns gamma rewards).map .number := by
  induction rewards with
  | nil => rfl
  | cons r rs ih =>
    simp only [List.map_cons, returnsFrom, Linear.discountedReturns, ih]
    cases Linear.discountedReturns gamma rs <;> rfl

theorem Documents.discountedReturns_numbers (gamma : Float) (rewards : List Float) :
    discountedReturns gamma (.numbers rewards) =
      (Linear.discountedReturns gamma rewards).map .number :=
  returnsFrom_numbers gamma rewards

/-! First weights. -/

theorem lengthFor_ofNat {n : Nat} (few : n < lengthLimit) :
    lengthFor (some (.number (Float.ofNat n))) = .ok n := by
  have small : n ≤ 2 ^ 53 := few.le.trans (by decide)
  have whole : Number.toNat? (Float.ofNat n) = some n := Binary64.toNat?_ofNat_le small
  simp only [lengthFor, whole, Option.filter_some, few, decide_true, if_true]
  split
  · next zero => rw [(Number.ofNat_beq small (Nat.zero_le _)).mp zero]
  · rfl

theorem stepsBelow_of_toNat? {x : Float} {n : Nat} (whole : Number.toNat? x = some n) :
    stepsBelow x = n := by
  rw [Number.toNat?] at whole
  rw [stepsBelow]
  generalize Binary64.ofFloat x = pattern at whole ⊢
  cases pattern with
  | notANumber | infinite => cases whole
  | finite negative mantissa exponent =>
    cases negative with
    | true => cases whole
    | false =>
      simp only [Binary64.toNat?, Option.ite_none_right_eq_some, Option.some.injEq] at whole
      simp only [whole.1, if_true, whole.2]

theorem rowFor_ofNat {columns : Nat} (few : columns < lengthLimit) (scale : Float)
    (s : Source Float) :
    rowFor (some (.nat columns)) scale s = .ok (initialRow columns scale s) := by
  have steps : stepsBelow (numberOf (some (.nat columns))) = columns :=
    stepsBelow_of_toNat? (Binary64.toNat?_ofNat_le (few.le.trans (by decide)))
  refine bind_eq_ok.mpr ⟨columns, lengthFor_ofNat few, ?_⟩
  have zero : (Scalar.nat 0 : Float) = 0 := rfl
  simp only [steps, initialRow, Scalar.lt_float, zero, gt_iff_lt, Nat.sub_self, List.replicate_zero,
    List.append_nil]
  split <;> rfl

theorem rowsFor_ofNat {columns : Nat} (few : columns < lengthLimit) (scale : Float) (rows : Nat)
    (s : Source Float) :
    rowsFor (some (.nat columns)) scale rows s = .ok (initialMatrix rows columns scale s) := by
  induction rows generalizing s with
  | zero => rfl
  | succ rows ih =>
    refine bind_eq_ok.mpr ⟨_, rowFor_ofNat few scale s, bind_eq_ok.mpr ⟨_, ih _, ?_⟩⟩
    rfl

/-- First weights for two counts. -/
theorem matrixFor_ofNat {rows columns : Nat} (bound : rows ≤ 2 ^ 53) (few : columns < lengthLimit)
    (scale : Float) (s : Source Float) :
    matrixFor (some (.nat rows)) (some (.nat columns)) scale s =
      .ok (initialMatrix rows columns scale s) := by
  have steps : stepsBelow (numberOf (some (.nat rows))) = rows :=
    stepsBelow_of_toNat? (Binary64.toNat?_ofNat_le bound)
  rw [matrixFor, steps]
  exact rowsFor_ofNat few scale rows s

end Linear

namespace Curve.Documents
open Json

theorem valuesOrNone_numbers (xs : List Float) :
    valuesOrNone (some (numbers xs)) = .ok (xs.map .number) := by
  cases xs <;> rfl

theorem rollingAverage_numbers (xs : List Float) (window : Quantity Float) :
    rollingAverage (some (numbers xs)) window = .ok (Curve.rollingAverage xs window) := by
  refine bind_eq_ok.mpr ⟨_, valuesOrNone_numbers xs, ?_⟩
  simp only [Curve.rollingAverage, List.length_map, ← List.map_drop, ← List.map_take, mean_numbers]
  rfl

theorem areaFrom_numbers (area : Float) (xs : List Float) :
    areaFrom area (xs.map .number) = Curve.areaFrom area xs := by
  induction xs generalizing area with
  | nil => rfl
  | cons x xs ih =>
    cases xs with
    | nil => rfl
    | cons y rest => exact ih _

theorem area_numbers (xs : List Float) : area (some (numbers xs)) = .ok (Curve.area xs) :=
  congrArg Except.ok (areaFrom_numbers 0 xs)

theorem curves_numbers (curves : List (List Float)) :
    Documents.curves (some (.array (curves.map numbers))) =
      .ok (curves.map fun c => c.map .number) := by
  induction curves with
  | nil => rfl
  | cons c curves ih => exact mapM_cons_eq_ok.mpr ⟨_, _, rfl, rfl, ih⟩

theorem episodesToThreshold_numbers (threshold : Float) (curve : List Float) :
    episodesToThreshold (.number threshold) (curve.map .number) =
      Curve.episodesToThreshold threshold curve := by
  simp only [episodesToThreshold, Curve.episodesToThreshold, List.findIdx?_map, List.length_map]
  rfl

theorem efficiency_numbers (curves : List (List Float)) (threshold : Float) :
    efficiency (some (.array (curves.map numbers))) (.number threshold) =
      .ok (Curve.efficiency curves threshold) := by
  refine bind_eq_ok.mpr ⟨_, curves_numbers curves, ?_⟩
  have areas (c : List Float) : areaFrom 0 (c.map .number) = Curve.area c := areaFrom_numbers 0 c
  cases curves with
  | nil => rfl
  | cons c curves =>
    simp only [Curve.efficiency, List.isEmpty_map, List.map_map, Function.comp_def, areas,
      episodesToThreshold_numbers, Scalar.lt_float]
    rfl

end Curve.Documents
end ProgramGym
