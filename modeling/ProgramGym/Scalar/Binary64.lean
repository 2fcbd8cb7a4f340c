import ProgramGym.Decimal.Binary64
import ProgramGym.Scalar

/-! Binary64 numbers as scalars. A maximum or minimum with an operand that is not a number
is not a number, and the negative zero counts as below the positive one. -/
namespace ProgramGym.Number

def max (x y : Float) : Float :=
  if x.isNaN || y.isNaN then absent
  else if x < y then y
  else if y < x then x
  else if x.toBits == 0 then x else y

def min (x y : Float) : Float :=
  if x.isNaN || y.isNaN then absent
  else if x < y then x
  else if y < x then y
  else if x.toBits == 0 then y else x

/-- The largest whole number that is not above a number. What is whole stays as it is, the
negative zero included, and so does what is not finite. -/
def floor (x : Float) : Float :=
  match Binary64.ofFloat x with
  | .finite negative mantissa exponent =>
    let m := Binary64.magnitude mantissa exponent
    if m.isWhole then x
    else if negative then -Float.ofNat (m.whole + 1)
    else Float.ofNat m.whole
  | _ => x

instance : Scalar Float where
  nat := Float.ofNat
  lt x y := x < y
  le x y := x ≤ y
  eq x y := x == y
  max := max
  min := min
  abs := Float.abs
  floor := floor
  exp := Float.exp
  log := Float.log
  sqrt := Float.sqrt
  cos := Float.cos
  pi := 3.141592653589793
  absent := absent
  lowest := negInfinity
  toNat? := toNat?

/-- To the nearest whole number, a half upward. -/
def roundHalfUp (x : Float) : Float :=
  let f := floor x
  if x - f ≥ 0.5 then f + 1 else f

end ProgramGym.Number
