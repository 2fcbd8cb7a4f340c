import ProgramGym.Decimal.Numeral
import ProgramGym.Json.Basic

/-! Reading JSON text strictly. A name that is given twice keeps its first place and its last
value. Escapes name units, so a string may hold half of a surrogate pair. -/
namespace ProgramGym.Json.Reader

def isSpace (c : Char) : Bool := c == ' ' || c == '\t' || c == '\n' || c == '\r'

def skipSpace (cs : List Char) : List Char := cs.dropWhile isSpace

def simpleEscape? (c : Char) : Option Char :=
  if c == '"' || c == '\\' || c == '/' then some c
  else if c == 'b' then some (Char.ofNat 8)
  else if c == 'f' then some (Char.ofNat 12)
  else if c == 'n' then some '\n'
  else if c == 'r' then some '\r'
  else if c == 't' then some '\t'
  else none

/-- The body of a string up to its closing quote, after the units read so far in reverse. -/
def stringBody? : (read : List UInt16) → List Char → Option (Text × List Char)
  | _, [] => none
  | read, '"' :: rest => some (⟨read.reverse⟩, rest)
  | read, '\\' :: 'u' :: a :: b :: c :: d :: rest =>
    match Numeral.wholeInBase? 16 [a, b, c, d] with
    | some n => stringBody? (UInt16.ofNat n :: read) rest
    | none => none
  | read, '\\' :: c :: rest =>
    match simpleEscape? c with
    | some c => stringBody? ((Text.unitsOf c).reverse ++ read) rest
    | none => none
  | _, ['\\'] => none
  | read, c :: rest =>
    if c.toNat < 0x20 then none else stringBody? ((Text.unitsOf c).reverse ++ read) rest

def string? : List Char → Option (Text × List Char)
  | '"' :: rest => stringBody? [] rest
  | _ => none

def word? (word : List Char) (value : Json) (cs : List Char) : Option (Json × List Char) :=
  if word.isPrefixOf cs then some (value, cs.drop word.length) else none

mutual

/-- A value at the start, blanks before it allowed. -/
def value? : (fuel : Nat) → List Char → Option (Json × List Char)
  | 0, _ => none
  | fuel + 1, cs =>
    match skipSpace cs with
    | [] => none
    | c :: rest =>
      if c == '"' then (string? (c :: rest)).map fun (s, rest) => (.text s, rest)
      else if c == '[' then
        match skipSpace rest with
        | ']' :: rest => some (.array [], rest)
        | rest => (items? fuel rest).map fun (xs, rest) => (.array xs, rest)
      else if c == '{' then
        match skipSpace rest with
        | '}' :: rest => some (.object [], rest)
        | rest => (entries? fuel rest).map fun (ms, rest) => (ofEntries ms, rest)
      else if c == 'n' then word? "null".toList .null (c :: rest)
      else if c == 't' then word? "true".toList (.bool true) (c :: rest)
      else if c == 'f' then word? "false".toList (.bool false) (c :: rest)
      else (Numeral.json? (c :: rest)).map fun (x, rest) => (.number x.toFloat, rest)

/-- One or more items up to the closing bracket. -/
def items? : (fuel : Nat) → List Char → Option (List Json × List Char)
  | 0, _ => none
  | fuel + 1, cs =>
    (value? fuel cs).bind fun (x, rest) =>
      match skipSpace rest with
      | ']' :: rest => some ([x], rest)
      | ',' :: rest => (items? fuel rest).map fun (xs, rest) => (x :: xs, rest)
      | _ => none

def entries? : (fuel : Nat) → List Char → Option (List (Text × Json) × List Char)
  | 0, _ => none
  | fuel + 1, cs =>
    (string? (skipSpace cs)).bind fun (name, rest) =>
      match skipSpace rest with
      | ':' :: rest =>
        (value? fuel rest).bind fun (v, rest) =>
          match skipSpace rest with
          | '}' :: rest => some ([(name, v)], rest)
          | ',' :: rest => (entries? fuel rest).map fun (ms, rest) => ((name, v) :: ms, rest)
          | _ => none
      | _ => none

end

end Reader

/-- A text that is one value, blanks around it allowed. The length bounds every nesting and
every list in the text, so the fuel never runs out on a valid one. -/
def parse? (s : String) : Option Json :=
  let cs := s.toList
  match Reader.value? (2 * cs.length + 2) cs with
  | some (j, rest) => if (Reader.skipSpace rest).isEmpty then some j else none
  | none => none

end ProgramGym.Json
