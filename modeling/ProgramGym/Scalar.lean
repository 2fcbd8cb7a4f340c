/-! The arithmetic over which rewards, learners and metrics are written. Programs run
over binary64 numbers; a law that speaks of exact arithmetic takes the same definitions
at exact numbers. Comparisons are tests, so a number that compares with nothing is allowed. -/
namespace ProgramGym

class Scalar (α : Type) extends Add α, Sub α, Mul α, Div α, Neg α where
  nat : Nat → α
  lt : α → α → Bool
  le : α → α → Bool
  eq : α → α → Bool
  max : α → α → α
  min : α → α → α
  abs : α → α
  floor : α → α
  exp : α → α
  log : α → α
  sqrt : α → α
  cos : α → α
  pi : α
  /-- Stands where a coordinate or a value is missing. -/
  absent : α
  /-- The maximum of no values. -/
  lowest : α
  toNat? : α → Option Nat

namespace Scalar
variable {α : Type} [Scalar α]

@[specialize] def sum (xs : List α) : α := xs.foldl (· + ·) (nat 0)

@[specialize] def maximum (xs : List α) : α := xs.foldl max lowest

/-- 0 for no values. -/
@[specialize] def mean (xs : List α) : α :=
  if xs.isEmpty then nat 0 else sum xs / nat xs.length

@[specialize] def square (x : α) : α := x * x

/-- Population variance. -/
@[specialize] def variance (xs : List α) : α :=
  if xs.isEmpty then nat 0 else
    let m := mean xs
    xs.foldl (fun s x => s + square (x - m)) (nat 0) / nat xs.length

def ofBool (b : Bool) : α := nat (if b then 1 else 0)

end Scalar
end ProgramGym
