import ProgramGym.Text.Blank
import ProgramGym.Text.Units

/-! Texts as sequences of 16-bit units, in which half of a surrogate pair may stand alone: a
token may be such a half, and two tokens may join to one character. Files, tables, messages
and the console hold characters only and show a lone half as the replacement character.
Main statement: characters written as a text read back. -/
namespace ProgramGym

structure Text where
  units : List UInt16
  deriving DecidableEq, Repr

namespace Text

def ofChars (cs : List Char) : Text := ⟨unitsOfChars cs⟩

def ofString (s : String) : Text := ofChars s.toList

instance : Coe String Text := ⟨ofString⟩

def chars (t : Text) : List Char := ofUnits t.units

def toString (t : Text) : String := String.ofList t.chars

instance : ToString Text := ⟨toString⟩

/-- One character for every unit, so that places in a text are counted in units. -/
def unitChars (t : Text) : List Char := t.units.map ofUnit

def length (t : Text) : Nat := t.units.length

def isEmpty (t : Text) : Bool := t.units.isEmpty

def append (a b : Text) : Text := ⟨a.units ++ b.units⟩

instance : Append Text := ⟨append⟩

/-- The parts with a separator between them. -/
def join (separator : Text) (parts : List Text) : Text :=
  ⟨separator.units.intercalate (parts.map units)⟩

def isBlankUnit (u : UInt16) : Bool := isBlank (ofUnit u)

/-- Without the blanks at both ends. -/
def trim (t : Text) : Text :=
  ⟨((t.units.dropWhile isBlankUnit).reverse.dropWhile isBlankUnit).reverse⟩

/-- The texts of the single units. -/
def singles (t : Text) : List Text := t.units.map fun u => ⟨[u]⟩

/-- The texts of the single characters, lone halves among them. -/
def points (t : Text) : List Text := (pointsOf t.units).map (⟨·⟩)
where
  pointsOf : List UInt16 → List (List UInt16)
    | [] => []
    | [u] => [[u]]
    | u :: v :: rest =>
      if isHighHalf u && isLowHalf v then [u, v] :: pointsOf rest else [u] :: pointsOf (v :: rest)

theorem chars_ofChars (cs : List Char) : (ofChars cs).chars = cs := ofUnits_unitsOfChars cs

theorem toString_ofString (s : String) : (ofString s).toString = s := by
  rw [toString, ofString, chars_ofChars, String.ofList_toList]

theorem unitChars_append (a b : Text) : (a ++ b).unitChars = a.unitChars ++ b.unitChars :=
  List.map_append

/-- Characters of the basic plane are the units that they are written in. -/
theorem unitChars_ofChars {cs : List Char} (narrow : ∀ c ∈ cs, c.toNat < 0x10000) :
    (ofChars cs).unitChars = cs := by
  induction cs with
  | nil => rfl
  | cons c cs ih =>
    obtain ⟨first, rest⟩ := List.forall_mem_cons.mp narrow
    have unit : (unitsOf c).map ofUnit = [c] := by
      simp [unitsOf, first, (ofUnit_ofNat c first).2]
    change (unitsOf c ++ unitsOfChars cs).map ofUnit = c :: cs
    rw [List.map_append, unit]
    exact congrArg (c :: ·) (ih rest)

end Text
end ProgramGym
