import ProgramGym.Text.Blank

/-! Environment variables, and files that fill in those that are not set. An entry of a file
begins a line: a name, perhaps after the word export, an equals sign or a colon with a blank, and
a value. A value in quotes may go over several lines; any other ends with its line or before a
number sign, which begins a remark. The last entry for a name counts. -/
namespace ProgramGym

abbrev Variables := List (String × String)

namespace Variables

def get? (v : Variables) (name : String) : Option String := v.lookup name

/-- A variable that is set to something. -/
def nonempty? (v : Variables) (name : String) : Option String :=
  (v.get? name).filter (!·.isEmpty)

def isLineEnd (c : Char) : Bool := c == '\n' || c.toNat == 0x2028 || c.toNat == 0x2029

/-- Line feeds for all line ends of a file. -/
def withLineFeeds : List Char → List Char
  | [] => []
  | '\r' :: '\n' :: rest => '\n' :: withLineFeeds rest
  | c :: rest => (if c == '\r' then '\n' else c) :: withLineFeeds rest

def isNameChar (c : Char) : Bool := c.isAlphanum || c == '_' || c == '.' || c == '-'

def skipBlanks (cs : List Char) : List Char := cs.dropWhile Text.isBlank

def endsLine (cs : List Char) : Bool := (cs.head?.map isLineEnd).getD true

/-- What follows a value: blanks, as many as possible, and a remark or the end of a line. -/
def afterValue? (cs : List Char) : (blanks : Nat) → Option (List Char)
  | 0 => remark? cs
  | n + 1 => (remark? (cs.drop (n + 1))).orElse fun () => afterValue? cs n
where
  remark? : List Char → Option (List Char)
    | '#' :: rest => some (rest.dropWhile (!isLineEnd ·))
    | cs => if endsLine cs then some cs else none

def finish? (cs : List Char) : Option (List Char) :=
  afterValue? cs (cs.takeWhile Text.isBlank).length

/-- What can stand after the closing quote, the farthest quote that is reached without passing
a bare one first. A quote after a backslash closes only if no later one does. -/
def afterQuote (quote : Char) : List Char → List (List Char)
  | [] => []
  | '\\' :: c :: rest =>
    if c == quote then afterQuote quote rest ++ [rest] else afterQuote quote (c :: rest)
  | c :: rest => if c == quote then [rest] else afterQuote quote rest

def quotes : List Char := ['\'', '"', Char.ofNat 96]

/-- What follows a quoted value and its entry. -/
def quoted? (cs : List Char) : Option (List Char × List Char) :=
  match skipBlanks cs with
  | c :: rest =>
    if quotes.contains c then
      (afterQuote c rest).findSome? fun after => (finish? after).map (after, ·)
    else none
  | [] => none

/-- A value as it stands in the file, and what follows the entry. -/
def value? (cs : List Char) : Option (List Char × List Char) :=
  let plain := cs.takeWhile fun c => c != '#' && c != '\n'
  match quoted? cs with
  | some (after, rest) => some (cs.take (cs.length - after.length), rest)
  | none => (finish? (cs.drop plain.length)).map (plain, ·)

/-- What follows the mark between a name and its value. -/
def afterMark? (cs : List Char) : Option (List Char) :=
  match skipBlanks cs, cs with
  | '=' :: rest, _ => some rest
  | _, ':' :: c :: rest => if Text.isBlank c then some rest else none
  | _, _ => none

/-- A name with its value, and what follows the entry. -/
def named? (cs : List Char) : Option ((List Char × List Char) × List Char) :=
  let name := cs.takeWhile isNameChar
  if name.isEmpty then none
  else do
    let rest ← afterMark? (cs.drop name.length)
    let (value, rest) ← value? rest
    pure ((name, value), rest)

/-- The word that may stand before a name. -/
def exportWord : List Char := "export".toList

def entry? (cs : List Char) : Option ((List Char × List Char) × List Char) :=
  let cs := skipBlanks cs
  let after := cs.drop exportWord.length
  if exportWord.isPrefixOf cs && (after.head?.map Text.isBlank).getD false then
    (named? (skipBlanks after)).orElse fun () => named? cs
  else named? cs

/-- All entries, looked for at the beginnings of lines. -/
def entries : (fuel : Nat) → (begins : Bool) → List Char → List (List Char × List Char)
  | 0, _, _ => []
  | _ + 1, _, [] => []
  | fuel + 1, begins, cs =>
    match if begins then entry? cs else none with
    | some (entry, rest) =>
      let last := (cs.take (cs.length - rest.length)).getLast?
      entry :: entries fuel (last.any isLineEnd) rest
    | none => entries fuel true ((cs.dropWhile (!isLineEnd ·)).drop 1)

/-- The text up to the last quote that ends a line, and what follows that quote. -/
def untilQuote? (quote : Char) : List Char → Option (List Char × List Char)
  | [] => none
  | c :: rest =>
    match untilQuote? quote rest with
    | some (inner, after) => some (c :: inner, after)
    | none => if c == quote && endsLine rest then some ([], rest) else none

def unquoted (cs : List Char) : List Char :=
  match cs with
  | c :: rest =>
    if quotes.contains c then
      match untilQuote? c rest with
      | some (inner, after) => inner ++ after
      | none => cs
    else cs
  | [] => []

/-- Control characters for a letter after a backslash. -/
def expand (letter control : Char) : List Char → List Char
  | [] => []
  | '\\' :: c :: rest =>
    if c == letter then control :: expand letter control rest
    else '\\' :: expand letter control (c :: rest)
  | c :: rest => c :: expand letter control rest

/-- A value without blanks around it and without its quotes; between double quotes, line feeds
and carriage returns may be written with a backslash. -/
def meaning (value : List Char) : List Char :=
  let value := Text.trimChars value
  let inner := unquoted value
  if value.head? == some '"' then expand 'r' '\r' (expand 'n' '\n' inner) else inner

/-- The variables of a file; what is no entry says nothing. -/
def read (content : String) : Variables :=
  let cs := withLineFeeds content.toList
  ((entries (cs.length + 1) true cs).map fun (name, value) =>
    (String.ofList name, String.ofList (meaning value))).reverse

/-- The variables with those of a file that are not among them. -/
def fill (v file : Variables) : Variables :=
  v ++ file.filter fun (name, _) => (v.get? name).isNone

end Variables
end ProgramGym
