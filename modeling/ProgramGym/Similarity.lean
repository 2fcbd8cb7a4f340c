import ProgramGym.Scalar
import ProgramGym.Text

/-! How much of an output agrees with the expected one, place by place. -/
namespace ProgramGym.Similarity

/-- Places at which two sequences agree. -/
def agreements : List UInt16 → List UInt16 → Nat
  | a :: as, b :: bs => (if a == b then 1 else 0) + agreements as bs
  | _, _ => 0

/-- Agreeing places of the trimmed texts over the length of the longer one. Equal texts are
worth the whole, and nothing agrees with an empty expected output. -/
def ratio (output expected : Text) : Nat × Nat :=
  let a := output.trim
  let b := expected.trim
  if b.isEmpty then (0, 1)
  else if a == b then (1, 1)
  else (agreements a.units b.units, max a.length b.length)

def positional {α : Type} [Scalar α] (output expected : Text) : α :=
  let (agreeing, total) := ratio output expected
  Scalar.nat agreeing / Scalar.nat total

end ProgramGym.Similarity
