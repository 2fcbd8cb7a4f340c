import ProgramGym.Decimal.Numeral
import ProgramGym.Json.Printer

/-! What a value of any kind counts as where a text, a number or a truth value is expected.
None stands for a value that is left out; it has a wording, but is no number. -/
namespace ProgramGym.Json

mutual

/-- A value as text: texts bare, items between commas, no detail of objects. -/
def word : Json → Text
  | .null => "null"
  | .bool b => if b then "true" else "false"
  | .number x => Number.text x
  | .text t => t
  | .array items => Text.join "," (itemWords items)
  | .object _ => "[object Object]"

/-- Missing items leave nothing between the commas. -/
def itemWords : List Json → List Text
  | [] => []
  | .null :: rest => "" :: itemWords rest
  | j :: rest => word j :: itemWords rest

end

def wordOf : Option Json → Text
  | some j => word j
  | none => "undefined"

/-- A value within a message. -/
def wording (j : Option Json) : String := (wordOf j).toString

def plain (j : Json) : String := (word j).toString

/-- Null counts as zero, a truth value as zero or one, and what is neither a number nor one of
these as the numeral that its text is. -/
def toNumber : Json → Float
  | .null => 0
  | .bool b => if b then 1 else 0
  | .number x => x
  | j => ((Numeral.option? j.plain).map Numeral.toFloat).getD Number.absent

def numberOf : Option Json → Float
  | some j => j.toNumber
  | none => Number.absent

/-- Null, false, zero, what is no number and the empty text do not hold. -/
def holds : Json → Bool
  | .null => false
  | .bool b => b
  | .number x => !(x.isNaN || x == 0)
  | .text t => !t.isEmpty
  | .array _ | .object _ => true

def holdsOf (j : Option Json) : Bool := j.any holds

/-- Texts and what is written like them are joined when added to something. -/
def isJoined : Json → Bool
  | .text _ | .array _ | .object _ => true
  | _ => false

/-- The sum of two numbers, or two texts joined. -/
def add (a b : Option Json) : Json :=
  if a.any isJoined || b.any isJoined then .text (wordOf a ++ wordOf b)
  else .number (numberOf a + numberOf b)

/-- The sum from the front, zero for nothing. -/
def total (values : List (Option Json)) : Json :=
  values.foldl (fun sum v => add (some sum) v) (.number 0)

/-- 0 for no values. -/
def mean (values : List (Option Json)) : Float :=
  if values.isEmpty then 0 else (total values).toNumber / Float.ofNat values.length

/-- Two texts compare unit by unit, all else as numbers. -/
def precedes (a b : Json) : Bool :=
  if isJoined a && isJoined b then decide (a.word.units < b.word.units)
  else a.toNumber < b.toNumber

/-- What is no number is not at least anything. -/
def atLeast (a b : Json) : Bool :=
  if isJoined a && isJoined b then !precedes a b else b.toNumber ≤ a.toNumber

/-- Equality of values without parts; an array or an object equals none but itself. -/
def same (a b : Option Json) : Bool :=
  match a, b with
  | none, none | some .null, some .null => true
  | some (.bool a), some (.bool b) => a == b
  | some (.number x), some (.number y) => x == y
  | some (.text a), some (.text b) => a == b
  | _, _ => false

/-- Equality where what is no number equals itself. -/
def alike (a b : Option Json) : Bool :=
  match a, b with
  | some (.number x), some (.number y) => x == y || (x.isNaN && y.isNaN)
  | a, b => same a b

/-- The items of an array, or the units of a text. -/
def elements? : Json → Option (List Json)
  | .array items => some items
  | .text t => some (t.singles.map .text)
  | _ => none

/-- How many elements a value has. What has none has only the length that it gives itself. -/
def count (j : Json) : Float :=
  match j.elements? with
  | some xs => Float.ofNat xs.length
  | none => numberOf (j.get? "length")

/-- The members of a value when it is spread over others: items stand under their indices, and
numbers and truth values have no members. Null has none to be listed. -/
def ownMembers? : Json → Option (Members Json)
  | .null => none
  | .object members => some members
  | j => some ((j.elements?.getD []).zipIdx.map fun (x, i) => (s!"{i}", x))

/-- The members of a value that may be left out, if it has any. -/
def spread (j : Option Json) : Members Json := (j.bind ownMembers?).getD []

/-- A member of an object, if it is given; a null counts as given. -/
def member (name : Text) (j : Json) : Option Json := j.get? name

end ProgramGym.Json
