import ProgramGym.Text

/-! JSON values. The members of an object keep an order that its text shows: names that are
array indices come first, ascending, and the others in order of first appearance. -/
namespace ProgramGym

inductive Json where
  | null
  | bool (b : Bool)
  | number (x : Float)
  | text (t : Text)
  | array (items : List Json)
  | object (members : List (Text × Json))

namespace Json

/-- Members as they stand in an object: pairs in order, each name once. -/
abbrev Members (β : Type) := List (Text × β)

namespace Members
variable {β : Type}

def get? (name : Text) (members : Members β) : Option β := members.lookup name

def contains (name : Text) (members : Members β) : Bool := members.any (·.1 == name)

/-- A name that is there keeps its place and takes the new value. -/
def put (name : Text) (value : β) : Members β → Members β
  | [] => [(name, value)]
  | (n, v) :: rest => if n == name then (n, value) :: rest else (n, v) :: put name value rest

/-- The array index that a name spells: no leading zero, below 2^32 - 1. -/
def index? (name : Text) : Option Nat :=
  let cs := name.unitChars
  if cs.isEmpty || !cs.all Char.isDigit || (cs.head? == some '0' && cs.length != 1) then none
  else
    let n := cs.foldl (fun n c => 10 * n + (c.toNat - '0'.toNat)) 0
    if n < 0xFFFFFFFF then some n else none

/-- Index names first, ascending; the other names stay in order. -/
def sortIndices (members : Members β) : Members β :=
  let indices := members.filter fun m => (index? m.1).isSome
  let others := members.filter fun m => (index? m.1).isNone
  indices.mergeSort (fun a b => (index? a.1).getD 0 ≤ (index? b.1).getD 0) ++ others

/-- Entries in order of appearance as the members of one object. -/
def ofEntries (entries : List (Text × β)) : Members β :=
  sortIndices (entries.foldl (fun members (name, value) => put name value members) [])

/-- The second object's members over the first's. -/
def override (base extra : Members β) : Members β := ofEntries (base ++ extra)

def names (members : Members β) : List Text := members.map (·.1)

/-- A member that may be missing. -/
def optional (name : Text) (value : Option β) : Members β :=
  (value.map fun v => (name, v)).toList

end Members

/-- An object from entries in order of appearance. -/
def ofEntries (entries : List (Text × Json)) : Json := .object (Members.ofEntries entries)

/-- An object of two lists of members, the names all different. -/
def joined (first second : Members Json) : Json := .object (first ++ second)

def strings (xs : List String) : Json := .array (xs.map fun (s : String) => .text s)

def nat (n : Nat) : Json := .number (Float.ofNat n)

def isNull : Json → Bool
  | null => true
  | _ => false

def members? : Json → Option (Members Json)
  | .object members => some members
  | _ => none

def items? : Json → Option (List Json)
  | .array items => some items
  | _ => none

def text? : Json → Option Text
  | .text t => some t
  | _ => none

def string? (j : Json) : Option String := j.text?.map Text.toString

def number? : Json → Option Float
  | .number x => some x
  | _ => none

def bool? : Json → Option Bool
  | .bool b => some b
  | _ => none

/-- A member of an object; other values have none. -/
def get? (name : Text) (j : Json) : Option Json := j.members?.bind (Members.get? name)

mutual

/-- Applies a function to every value within a value, the inner ones first. -/
def mapValues (f : Json → Json) : Json → Json
  | .array items => f (.array (mapItems f items))
  | .object members => f (.object (mapMembers f members))
  | j => f j

def mapItems (f : Json → Json) : List Json → List Json
  | [] => []
  | j :: rest => mapValues f j :: mapItems f rest

def mapMembers (f : Json → Json) : List (Text × Json) → List (Text × Json)
  | [] => []
  | (name, j) :: rest => (name, mapValues f j) :: mapMembers f rest

end

def ofOption {β : Type} (encode : β → Json) : Option β → Json
  | some b => encode b
  | none => .null

end Json
end ProgramGym
