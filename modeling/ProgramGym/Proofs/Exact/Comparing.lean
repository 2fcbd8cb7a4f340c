import Mathlib
import ProgramGym.Proofs.Exact.Conversion

/-! Comparisons of binary64 numbers, for which nothing is rounded. Main statements: numbers compare
as the exact numbers that they stand for, those that are no number with nothing, and the greater of
two numbers stands for the greater of these; so a maximum may be taken of either. -/
namespace ProgramGym
open Binary64 Float.Model Float.Model.UnpackedFloat

noncomputable section
namespace Exact

/-! How real and extended numbers compare. -/

theorem compare_coe (x y : ℝ) : compare (x : EReal) y = compare x y := by
  rw [← cmp_eq_compare, ← cmp_eq_compare, EReal.coe_strictMono.cmp_map_eq]

theorem compare_cast (x y : ℚ) : compare (x : ℝ) y = compare x y := by
  rw [← cmp_eq_compare, ← cmp_eq_compare, Rat.cast_strictMono.cmp_map_eq]

theorem compare_neg (x y : ℝ) : compare (-x) (-y) = (compare x y).swap := by
  rcases lt_trichotomy x y with below | rfl | above
  · rw [compare_lt_iff_lt.mpr below, compare_gt_iff_gt.mpr (neg_lt_neg below)]
    rfl
  · rw [compare_eq_iff_eq.mpr rfl, compare_eq_iff_eq.mpr rfl]
    rfl
  · rw [compare_gt_iff_gt.mpr above, compare_lt_iff_lt.mpr (neg_lt_neg above)]
    rfl

/-- How two numbers compare, if they do. -/
def order : Exact → Exact → Option Ordering
  | number x, number y => some (compare x y)
  | _, _ => none

theorem test_number (p : EReal → EReal → Prop) (x y : EReal) :
    test p (number x) (number y) = true ↔ p x y := by
  simp [test]

theorem lt_eq_order (x y : Exact) : Scalar.lt x y = (order x y == some .lt) := by
  cases x with
  | undefined => rfl
  | number x =>
    cases y with
    | undefined => rfl
    | number y =>
      rw [Bool.eq_iff_iff, order, beq_iff_eq, Option.some_inj, compare_lt_iff_lt]
      exact test_number (· < ·) x y

theorem le_eq_order (x y : Exact) : Scalar.le x y = (order x y).any (·.isLE) := by
  cases x with
  | undefined => rfl
  | number x =>
    cases y with
    | undefined => rfl
    | number y =>
      rw [Bool.eq_iff_iff, order, Option.any_some, Ordering.isLE_iff_ne_gt]
      exact (test_number (· ≤ ·) x y).trans (not_lt.symm.trans (not_congr compare_gt_iff_gt.symm))

theorem eq_eq_order (x y : Exact) : Scalar.eq x y = (order x y == some .eq) := by
  cases x with
  | undefined => rfl
  | number x =>
    cases y with
    | undefined => rfl
    | number y =>
      rw [Bool.eq_iff_iff, order, beq_iff_eq, Option.some_inj, compare_eq_iff_eq]
      exact test_number (· = ·) x y

/-! Numbers by what they stand for. -/

def size (m : ℕ) (e : ℤ) : ℝ := (m * 2 ^ e : ℚ)

theorem size_pos {m : ℕ} (pos : 0 < m) (e : ℤ) : 0 < size m e := by
  have some : (0 : ℚ) < m := by exact_mod_cast pos
  have value : (0 : ℚ) < m * 2 ^ e := by positivity
  exact Rat.cast_pos.mpr value

theorem compare_size {m₁ m₂ : ℕ} {e₁ e₂ : ℤ} (first : Canonical m₁ e₁) (second : Canonical m₂ e₂) :
    compare (size m₁ e₁) (size m₂ e₂) = (compare e₁ e₂).then (compare m₁ m₂) := by
  rw [size, size, compare_cast, first.compare_eq second]

/-- A finite number, of either sign. -/
inductive IsReal (x : Float) : ℝ → Prop where
  | zero (s : Sign) (unpacked : x.toModel.unpack = .zero s) : IsReal x 0
  | positive {m : ℕ} {e : ℤ} (canonical : Canonical m e)
      (unpacked : x.toModel.unpack = .finite .positive m e canonical.pos) : IsReal x (size m e)
  | negative {m : ℕ} {e : ℤ} (canonical : Canonical m e)
      (unpacked : x.toModel.unpack = .finite .negative m e canonical.pos) : IsReal x (-size m e)

inductive Stands (x : Float) : EReal → Prop where
  | infinite (unpacked : x.toModel.unpack = .infinity .positive) : Stands x ⊤
  | negInfinite (unpacked : x.toModel.unpack = .infinity .negative) : Stands x ⊥
  | finite {v : ℝ} (real : IsReal x v) : Stands x v

section
variable {x y : Float} {v w : EReal} {a b : ℝ}

theorem IsReal.ofFloat (real : IsReal x a) : ofFloat x = .real a := by
  cases real with
  | zero s unpacked | positive canonical unpacked | negative canonical unpacked =>
    simp [Exact.ofFloat, unpacked, size, Sign.apply]

theorem Stands.ofFloat (stands : Stands x v) : ofFloat x = number v := by
  cases stands with
  | infinite unpacked | negInfinite unpacked => simp [Exact.ofFloat, unpacked]
  | finite real => exact real.ofFloat

theorem exists_stands (defined : x.isNaN = false) : ∃ v, Stands x v := by
  have rounded := rounded_unpack x.toModel.toBits.toBitVec
  change Rounded x.toModel.unpack at rounded
  change x.toModel.unpack.isNaN = false at defined
  cases unpacked : x.toModel.unpack with
  | notANumber =>
    rw [unpacked] at defined
    cases defined
  | infinity s =>
    cases s with
    | positive => exact ⟨⊤, .infinite unpacked⟩
    | negative => exact ⟨⊥, .negInfinite unpacked⟩
  | zero s => exact ⟨_, .finite (.zero s unpacked)⟩
  | finite s m e pos =>
    rw [unpacked] at rounded
    cases s with
    | positive => exact ⟨_, .finite (.positive rounded unpacked)⟩
    | negative => exact ⟨_, .finite (.negative rounded unpacked)⟩

theorem unpack_nan (undefined : x.isNaN = true) : x.toModel.unpack = .notANumber := by
  change x.toModel.unpack.isNaN = true at undefined
  cases unpacked : x.toModel.unpack with
  | notANumber => rfl
  | infinity s | zero s | finite s m e pos =>
    rw [unpacked] at undefined
    cases undefined

theorem ofFloat_nan (undefined : x.isNaN = true) : ofFloat x = .undefined := by
  simp [ofFloat, unpack_nan undefined]

theorem IsReal.compare_eq (first : IsReal x a) (second : IsReal y b) :
    x.toModel.unpack.compare y.toModel.unpack = some (compare a b) := by
  have pos {m : ℕ} {e : ℤ} (canonical : Canonical m e) : 0 < size m e := size_pos canonical.pos e
  have neg {m : ℕ} {e : ℤ} (canonical : Canonical m e) : -size m e < 0 :=
    neg_lt_zero.mpr (pos canonical)
  cases first with
  | zero s unpacked₁ =>
    cases second with
    | zero t unpacked₂ =>
      rw [unpacked₁, unpacked₂, compare_eq_iff_eq.mpr rfl]
      rfl
    | positive canonical₂ unpacked₂ =>
      rw [unpacked₁, unpacked₂, compare_lt_iff_lt.mpr (pos canonical₂)]
      rfl
    | negative canonical₂ unpacked₂ =>
      rw [unpacked₁, unpacked₂, compare_gt_iff_gt.mpr (neg canonical₂)]
      rfl
  | positive canonical₁ unpacked₁ =>
    cases second with
    | zero t unpacked₂ =>
      rw [unpacked₁, unpacked₂, compare_gt_iff_gt.mpr (pos canonical₁)]
      rfl
    | positive canonical₂ unpacked₂ =>
      rw [unpacked₁, unpacked₂, compare_size canonical₁ canonical₂]
      rfl
    | negative canonical₂ unpacked₂ =>
      rw [unpacked₁, unpacked₂,
        compare_gt_iff_gt.mpr ((neg canonical₂).trans (pos canonical₁))]
      rfl
  | negative canonical₁ unpacked₁ =>
    cases second with
    | zero t unpacked₂ =>
      rw [unpacked₁, unpacked₂, compare_lt_iff_lt.mpr (neg canonical₁)]
      rfl
    | positive canonical₂ unpacked₂ =>
      rw [unpacked₁, unpacked₂,
        compare_lt_iff_lt.mpr ((neg canonical₁).trans (pos canonical₂))]
      rfl
    | negative canonical₂ unpacked₂ =>
      rw [unpacked₁, unpacked₂, compare_neg, compare_size canonical₁ canonical₂]
      rfl

theorem Stands.compare_eq (first : Stands x v) (second : Stands y w) :
    x.toModel.unpack.compare y.toModel.unpack = some (compare v w) := by
  cases first with
  | infinite unpacked₁ =>
    cases second with
    | infinite unpacked₂ =>
      rw [unpacked₁, unpacked₂, compare_eq_iff_eq.mpr rfl]
      rfl
    | negInfinite unpacked₂ =>
      rw [unpacked₁, unpacked₂, compare_gt_iff_gt.mpr bot_lt_top]
      rfl
    | finite real =>
      rw [unpacked₁, compare_gt_iff_gt.mpr (EReal.coe_lt_top _)]
      cases real with
      | zero _ unpacked₂ | positive _ unpacked₂ | negative _ unpacked₂ => rw [unpacked₂]; rfl
  | negInfinite unpacked₁ =>
    cases second with
    | infinite unpacked₂ =>
      rw [unpacked₁, unpacked₂, compare_lt_iff_lt.mpr bot_lt_top]
      rfl
    | negInfinite unpacked₂ =>
      rw [unpacked₁, unpacked₂, compare_eq_iff_eq.mpr rfl]
      rfl
    | finite real =>
      rw [unpacked₁, compare_lt_iff_lt.mpr (EReal.bot_lt_coe _)]
      cases real with
      | zero _ unpacked₂ | positive _ unpacked₂ | negative _ unpacked₂ => rw [unpacked₂]; rfl
  | finite real₁ =>
    cases second with
    | infinite unpacked₂ =>
      rw [unpacked₂, compare_lt_iff_lt.mpr (EReal.coe_lt_top _)]
      cases real₁ with
      | zero _ unpacked₁ | positive _ unpacked₁ | negative _ unpacked₁ => rw [unpacked₁]; rfl
    | negInfinite unpacked₂ =>
      rw [unpacked₂, compare_gt_iff_gt.mpr (EReal.bot_lt_coe _)]
      cases real₁ with
      | zero _ unpacked₁ | positive _ unpacked₁ | negative _ unpacked₁ => rw [unpacked₁]; rfl
    | finite real₂ => rw [real₁.compare_eq real₂, compare_coe]

/-- What is no number compares with nothing. -/
theorem order_ofFloat (x y : Float) :
    order (ofFloat x) (ofFloat y) = x.toModel.unpack.compare y.toModel.unpack := by
  cases left : x.isNaN with
  | true => rw [ofFloat_nan left, unpack_nan left]; rfl
  | false =>
    obtain ⟨v, first⟩ := exists_stands left
    cases right : y.isNaN with
    | true =>
      rw [ofFloat_nan right, unpack_nan right, first.ofFloat]
      cases x.toModel.unpack <;> rfl
    | false =>
      obtain ⟨w, second⟩ := exists_stands right
      rw [first.compare_eq second, first.ofFloat, second.ofFloat, order]

theorem lt_ofFloat (x y : Float) : Scalar.lt (ofFloat x) (ofFloat y) = Scalar.lt x y := by
  rw [lt_eq_order, order_ofFloat, Bool.eq_iff_iff, beq_iff_eq, ← lt_iff_compare]
  exact decide_eq_true_iff.symm

theorem le_ofFloat (x y : Float) : Scalar.le (ofFloat x) (ofFloat y) = Scalar.le x y := by
  rw [le_eq_order, order_ofFloat, Bool.eq_iff_iff, ← le_iff_compare]
  exact decide_eq_true_iff.symm

theorem eq_ofFloat (x y : Float) : Scalar.eq (ofFloat x) (ofFloat y) = Scalar.eq x y := by
  rw [eq_eq_order, order_ofFloat, Bool.eq_iff_iff, beq_iff_eq, ← beq_iff_compare]
  exact Iff.rfl

theorem ofFloat_absent : ofFloat Number.absent = .undefined := ofFloat_nan (by decide +kernel)

theorem ofFloat_negInfinity : ofFloat Number.negInfinity = number ⊥ := by
  have pattern : Binary64.ofFloat Number.negInfinity = .infinite true := by decide +kernel
  rw [ofFloat_eq] at pattern
  refine Stands.ofFloat (.negInfinite ?_)
  cases unpacked : Number.negInfinity.toModel.unpack with
  | infinity s =>
    cases s with
    | negative => rfl
    | positive => rw [unpacked] at pattern; cases pattern
  | notANumber | zero s | finite s => rw [unpacked] at pattern; cases pattern

theorem Stands.lt_iff (first : Stands x v) (second : Stands y w) : x < y ↔ v < w := by
  rw [lt_iff_compare, first.compare_eq second, Option.some_inj, compare_lt_iff_lt]

/-- Zeros of both signs stand for one number, so that it does not matter which of them is taken. -/
theorem max_ofFloat (x y : Float) :
    Scalar.max (ofFloat x) (ofFloat y) = ofFloat (Number.max x y) := by
  cases left : x.isNaN with
  | true => rw [Number.max, left, ofFloat_nan left, Bool.true_or, if_pos rfl, ofFloat_absent]; rfl
  | false =>
    obtain ⟨v, first⟩ := exists_stands left
    cases right : y.isNaN with
    | true => rw [Number.max, right, ofFloat_nan right, Bool.or_true, if_pos rfl, ofFloat_absent,
        first.ofFloat]; rfl
    | false =>
      obtain ⟨w, second⟩ := exists_stands right
      have greater : Scalar.max (ofFloat x) (ofFloat y) = number (max v w) := by
        rw [first.ofFloat, second.ofFloat]
        rfl
      rw [greater, Number.max, left, right, Bool.or_false, if_neg Bool.false_ne_true]
      simp only [first.lt_iff second, second.lt_iff first]
      rcases lt_trichotomy v w with below | rfl | above
      · rw [if_pos below, max_eq_right below.le, second.ofFloat]
      · rw [if_neg (lt_irrefl v), if_neg (lt_irrefl v), max_self]
        split
        · rw [first.ofFloat]
        · rw [second.ofFloat]
      · rw [if_neg above.not_gt, if_pos above, max_eq_left above.le, first.ofFloat]

theorem maximum_ofFloat (xs : List Float) :
    Scalar.maximum (xs.map ofFloat) = ofFloat (Scalar.maximum xs) := by
  rw [Scalar.maximum, Scalar.maximum, List.foldl_map]
  have start : (Scalar.lowest : Exact) = ofFloat Scalar.lowest := ofFloat_negInfinity.symm
  rw [start]
  exact List.foldl_hom ofFloat fun x y => max_ofFloat x y

end
end Exact
end
end ProgramGym
