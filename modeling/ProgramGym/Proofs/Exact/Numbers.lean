import Mathlib
import ProgramGym.Scalar

/-! Exact numbers: the extended reals with a value for operations that have none. They follow the
rules of binary64 except that nothing is rounded and that there is one zero, and so a definition
over scalars computes with real numbers as long as none of them is out of reach. Main statements:
on real numbers the operations of scalars are those of the reals. -/
namespace ProgramGym
noncomputable section

inductive Exact where
  | number (x : EReal)
  /-- What compares with nothing. -/
  | undefined

namespace Exact

def real (x : ℝ) : Exact := number x

def unary (f : EReal → Exact) : Exact → Exact
  | number x => f x
  | undefined => undefined

def binary (f : EReal → EReal → Exact) : Exact → Exact → Exact
  | number x, number y => f x y
  | _, _ => undefined

def test (p : EReal → EReal → Prop) : Exact → Exact → Bool
  | number x, number y => open Classical in decide (p x y)
  | _, _ => false

def Infinite (x : EReal) : Prop := x = ⊤ ∨ x = ⊥

open Classical in
/-- Opposite infinities have no sum. -/
instance : Add Exact where
  add := binary fun x y => if Infinite x ∧ y = -x then undefined else number (x + y)

instance : Neg Exact where
  neg := unary fun x => number (-x)

instance : Sub Exact where
  sub x y := x + -y

open Classical in
/-- Zero has no product with an infinity. -/
instance : Mul Exact where
  mul := binary fun x y =>
    if x = 0 ∧ Infinite y ∨ Infinite x ∧ y = 0 then undefined else number (x * y)

open Classical in
/-- Zero counts as positive. -/
def inverse : Exact → Exact := unary fun x => number (if x = 0 then ⊤ else x⁻¹)

instance : Div Exact where
  div x y := x * inverse y

open Classical in
instance : Scalar Exact where
  nat n := real n
  lt := test (· < ·)
  le := test (· ≤ ·)
  eq := test (· = ·)
  max := binary fun x y => number (max x y)
  min := binary fun x y => number (min x y)
  abs := unary fun x => number (max x (-x))
  floor := unary fun x => if Infinite x then number x else real ⌊x.toReal⌋
  exp := unary fun x => number x.exp
  log := unary fun x => if x < 0 then undefined else number x.toENNReal.log
  sqrt := unary fun x =>
    if x < 0 then undefined else if x = ⊤ then number ⊤ else real √x.toReal
  cos := unary fun x => if Infinite x then undefined else real (Real.cos x.toReal)
  pi := real Real.pi
  absent := undefined
  lowest := number ⊥
  toNat? := fun x => if h : ∃ n : ℕ, x = real n then some h.choose else none

variable (x y : ℝ)

theorem finite_coe : ¬ Infinite x := by simp [Infinite]

@[simp] theorem nat_eq (n : ℕ) : (Scalar.nat n : Exact) = real n := rfl

theorem real_inj : real x = real y ↔ x = y := by
  rw [real, real, number.injEq, EReal.coe_eq_coe_iff]

@[simp] theorem real_add : real x + real y = real (x + y) := by
  have defined : ¬ (Infinite x ∧ (y : EReal) = -x) := fun both => finite_coe x both.1
  exact (if_neg defined).trans (congrArg number (EReal.coe_add x y).symm)

@[simp] theorem real_neg : -real x = real (-x) := by
  change number (-x) = real (-x)
  rw [real, EReal.coe_neg]

@[simp] theorem real_sub : real x - real y = real (x - y) := by
  change real x + -real y = _
  rw [real_neg, real_add, sub_eq_add_neg]

@[simp] theorem real_mul : real x * real y = real (x * y) := by
  have defined : ¬ ((x : EReal) = 0 ∧ Infinite y ∨ Infinite x ∧ (y : EReal) = 0) := by
    simp [finite_coe]
  exact (if_neg defined).trans (congrArg number (EReal.coe_mul x y).symm)

variable {x y} in
theorem real_div (nonzero : y ≠ 0) : real x / real y = real (x / y) := by
  have inverted : inverse (real y) = real y⁻¹ := by
    have other : ¬ (y : EReal) = 0 := by exact_mod_cast nonzero
    exact congrArg number ((if_neg other).trans (EReal.coe_inv y).symm)
  change real x * inverse (real y) = _
  rw [inverted, real_mul, div_eq_mul_inv]

@[simp] theorem max_real : Scalar.max (real x) (real y) = real (max x y) :=
  congrArg number (EReal.coe_strictMono.monotone.map_max).symm

@[simp] theorem min_real : Scalar.min (real x) (real y) = real (min x y) :=
  congrArg number (EReal.coe_strictMono.monotone.map_min).symm

@[simp] theorem max_lowest : Scalar.max Scalar.lowest (real x) = real x :=
  congrArg number (max_eq_right bot_le)

@[simp] theorem eq_real : Scalar.eq (real x) (real y) = decide (x = y) :=
  decide_eq_decide.mpr EReal.coe_eq_coe_iff

@[simp] theorem lt_real : Scalar.lt (real x) (real y) = decide (x < y) :=
  decide_eq_decide.mpr EReal.coe_lt_coe_iff

@[simp] theorem abs_real : Scalar.abs (real x) = real |x| := by
  rw [abs_eq_max_neg, ← max_real, ← real_neg]
  rfl

@[simp] theorem exp_real : Scalar.exp (real x) = real (Real.exp x) := by
  refine congrArg number ?_
  rw [EReal.exp_coe, EReal.coe_ennreal_ofReal, max_eq_left (Real.exp_pos x).le]

end Exact
end
end ProgramGym
