/-! Binary64 numbers read exactly: a sign and a natural number times a power of two.
Every text, rounding and truncation of a number starts from this view, so none of
them depends on rounded arithmetic. -/
namespace ProgramGym

/-- What a binary64 pattern stands for. Zero is finite with mantissa 0 and keeps its sign. -/
inductive Binary64 where
  | notANumber
  | infinite (negative : Bool)
  | finite (negative : Bool) (mantissa : Nat) (exponent : Int)
  deriving DecidableEq, Repr

namespace Binary64

/-- A nonnegative quotient, the magnitude of a finite number. The denominator is a power of two. -/
structure Magnitude where
  numerator : Nat
  denominator : Nat
  deriving DecidableEq, Repr

/-- The number of fractions that a pattern can hold, 2^52. -/
def fractions : Nat := 0x10000000000000

def ofFloat (x : Float) : Binary64 :=
  let bits := x.toBits.toNat
  let negative := bits / (0x800 * fractions) == 1
  let biased := bits / fractions % 0x800
  let fraction := bits % fractions
  if biased == 2047 then
    if fraction == 0 then .infinite negative else .notANumber
  else if biased == 0 then .finite negative fraction (-1074)
  else .finite negative (fraction + fractions) (Int.ofNat biased - 1075)

def magnitude (mantissa : Nat) (exponent : Int) : Magnitude :=
  match exponent with
  | .ofNat e => ⟨mantissa * Nat.pow 2 e, 1⟩
  | .negSucc e => ⟨mantissa, Nat.pow 2 (e + 1)⟩

/-- Toward zero. -/
def Magnitude.whole (m : Magnitude) : Nat := m.numerator / m.denominator

def Magnitude.isWhole (m : Magnitude) : Bool := m.numerator % m.denominator == 0

/-- The integer part of a finite number, cut toward zero. -/
def truncate? : Binary64 → Option Int
  | .finite negative mantissa exponent =>
    let n := (magnitude mantissa exponent).whole
    some (if negative then -Int.ofNat n else Int.ofNat n)
  | _ => none

def isFinite : Binary64 → Bool
  | .finite .. => true
  | _ => false

/-- Finite without a fraction. Both zeros are whole. -/
def isWhole : Binary64 → Bool
  | .finite _ mantissa exponent => (magnitude mantissa exponent).isWhole
  | _ => false

/-- The natural number that a number is; the negative zero is none. -/
def toNat? : Binary64 → Option Nat
  | .finite false mantissa exponent =>
    let m := magnitude mantissa exponent
    if m.isWhole then some m.whole else none
  | _ => none

end Binary64

namespace Number

def isWhole (x : Float) : Bool := (Binary64.ofFloat x).isWhole

def toNat? (x : Float) : Option Nat := (Binary64.ofFloat x).toNat?

/-- The low 32 bits of the truncated number; 0 when there is none to truncate. -/
def toWord (x : Float) : UInt32 :=
  match (Binary64.ofFloat x).truncate? with
  | some n => UInt32.ofNat (n.emod 0x100000000).toNat
  | none => 0

def absent : Float := 0.0 / 0.0
def infinity : Float := 1.0 / 0.0
def negInfinity : Float := -1.0 / 0.0

end Number
end ProgramGym
