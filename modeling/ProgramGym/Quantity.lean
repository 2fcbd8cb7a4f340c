import ProgramGym.Json.Wording
import ProgramGym.Scalar.Binary64

/-! A value handed in where a count or an index is expected. Counts stay natural numbers,
so laws about indices and counters need no arithmetic on rounded numbers; any other number,
and what is no number at all, is kept as it came. -/
namespace ProgramGym

inductive Quantity (α : Type) where
  | count (n : Nat)
  | other (x : α)
  /-- No number; none stands for a value that was left out. -/
  | foreign (value : Option Json)

namespace Quantity
variable {α : Type} [Scalar α]

def ofScalar (x : α) : Quantity α :=
  match Scalar.toNat? x with
  | some n => .count n
  | none => .other x

def toScalar : Quantity α → α
  | .count n => Scalar.nat n
  | .other x => x
  | .foreign _ => Scalar.absent

def ofJson : Option Json → Quantity Float
  | some (.number x) => .ofScalar x
  | value => .foreign value

/-- A value that may be left out. -/
def ofJsonOr (default : Nat) (value : Option Json) : Quantity Float :=
  if value.isSome then ofJson value else .count default

/-- A value that may be left out or null. -/
def ofJsonUnlessNull (default : Nat) : Option Json → Quantity Float
  | none | some .null => .count default
  | value => ofJson value

/-- Up to here, 2^53, every natural number is a binary64 number. -/
def exactBound : Nat := 0x20000000000000

/-- A numeral as a number. A natural number within the bound is read as the count that it
spells. -/
def ofNumeral (n : Numeral) : Quantity Float :=
  let exact : Option Nat := match n with
    | .finite false d => d.small?
    | _ => none
  match exact with
  | some k => if k ≤ exactBound then .count k else ofScalar n.toFloat
  | none => ofScalar n.toFloat

/-- The index that a number names. A number equal to zero that is no count, the negative
zero, names the first one. -/
def index? : Quantity α → Option Nat
  | .count n => some n
  | .other x => if Scalar.eq x (Scalar.nat 0) then some 0 else none
  | .foreign _ => none

/-- An index below a bound. -/
def indexBelow? (bound : Nat) (q : Quantity α) : Option Nat :=
  match q.index? with
  | some n => if n < bound then some n else none
  | none => none

/-- A whole number of at least one. -/
def positive? : Quantity α → Option Nat
  | .count n => if 1 ≤ n then some n else none
  | .other _ | .foreign _ => none

/-- One more. A count that is not below the bound is increased as the number it is. -/
def next : Quantity α → Quantity α
  | .count n => if n < exactBound then .count (n + 1) else ofScalar (Scalar.nat n + Scalar.nat 1)
  | .other x => ofScalar (x + Scalar.nat 1)
  | .foreign value => .foreign value

/-- A count below the bound is written as it is, any other number as the binary64 number it is. -/
def text : Quantity Float → String
  | .count n => if n < exactBound then toString n else Number.text (Float.ofNat n)
  | .other x => Number.text x
  | .foreign value => Json.wording value

/-- The value that was handed in, unless it was left out. -/
def json? : Quantity Float → Option Json
  | .foreign value => value
  | q => some (.number q.toScalar)

end Quantity
end ProgramGym
