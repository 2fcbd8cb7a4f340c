import ProgramGym.Fault
import ProgramGym.Linear

/-! Vectors and matrices whose entries or sizes are given as JSON. A list, or a text unit by
unit, is a vector of what its entries count as; null has no entries to go through. -/
namespace ProgramGym.Linear
open Json

/-- The entries of a vector. What has no length has none. -/
def vector : Option Json → Except Fault (List Float)
  | none | some .null => .error .wrongKind
  | some j => .ok ((j.elements?.getD []).map toNumber)

/-- The entries of a vector that is only looked at where another one has entries. -/
def partner (other : List Float) (j : Option Json) : Except Fault (List Float) :=
  if other.isEmpty then .ok [] else vector j

/-- No vector has 2^32 entries or more. -/
def lengthLimit : Nat := 0x100000000

/-- The length of a vector made for a size: a number has to be a length, and anything else is
taken for the only entry. -/
def lengthFor : Option Json → Except Fault Nat
  | some (.number x) =>
    if x == 0 then .ok 0
    else match (Number.toNat? x).filter (· < lengthLimit) with
      | some n => .ok n
      | none => .error .badLength
  | _ => .ok 1

/-- How many steps from zero stay below a bound. -/
def stepsBelow (bound : Float) : Nat :=
  match Binary64.ofFloat bound with
  | .finite false mantissa exponent =>
    let m := Binary64.magnitude mantissa exponent
    if m.isWhole then m.whole else m.whole + 1
  | _ => 0

/-- A row made for a size. Draws fill it, and go past its end where the size counts for more. -/
def rowFor (columns : Option Json) (scale : Float) (s : Source Float) :
    Except Fault (List Float × Source Float) := do
  let n ← lengthFor columns
  if scale > 0 then
    let drawn := stepsBelow (numberOf columns)
    let (xs, s) := s.nextNormals drawn
    pure (xs.map (· * scale) ++ List.replicate (n - drawn) 0, s)
  else pure (List.replicate n 0, s)

def rowsFor (columns : Option Json) (scale : Float) : (rows : Nat) → Source Float →
    Except Fault (List (List Float) × Source Float)
  | 0, s => .ok ([], s)
  | rows + 1, s => do
    let (row, s) ← rowFor columns scale s
    let (matrix, s) ← rowsFor columns scale rows s
    pure (row :: matrix, s)

/-- First weights for sizes of any kind. Without rows the columns do not matter. -/
def matrixFor (rows columns : Option Json) (scale : Float) (s : Source Float) :
    Except Fault (List (List Float) × Source Float) :=
  rowsFor columns scale (stepsBelow (numberOf rows)) s

end ProgramGym.Linear
