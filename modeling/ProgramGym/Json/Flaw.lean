import ProgramGym.Json.Reader

/-! Why a text is not JSON. The first place from the left at which no value can go on decides.
Places are counted in 16-bit units from zero, lines and columns from one. -/
namespace ProgramGym.Json

inductive Flaw where
  | endOfText
  | unexpected
  | unexpectedNumber
  | unexpectedString
  | noFirstName
  | noName
  | noColon
  | noCommaOrBrace
  | noCommaOrBracket
  | unclosedString
  | controlCharacter
  | badEscape
  | badUnitEscape
  | noDigitAfterMinus
  | noDigitAfterPoint
  | noDigitInExponent
  | textAfterValue
  deriving DecidableEq, Repr

namespace Flaw

/-- What follows a piece that is well formed, or a flaw and what stands from its place on. -/
abbrev Check := Except (Flaw × List Char) (List Char)

def refuse (flaw : Flaw) (cs : List Char) : Check := .error (flaw, cs)

/-- No piece of a value starts here. -/
def refuseToken : List Char → Check
  | [] => refuse endOfText []
  | c :: rest =>
    if Numeral.isDigit c || c == '-' then refuse unexpectedNumber (c :: rest)
    else if c == '"' then refuse unexpectedString (c :: rest)
    else refuse unexpected (c :: rest)

def checkWord : (word : List Char) → List Char → Check
  | [], cs => .ok cs
  | _ :: _, [] => refuse endOfText []
  | w :: word, c :: cs => if c == w then checkWord word cs else refuseToken (c :: cs)

def checkExponent : List Char → Check
  | [] => .ok []
  | c :: rest =>
    if c == 'e' || c == 'E' then
      let (_, rest) := Numeral.sign rest
      match Numeral.spanDigits rest with
      | ([], _) => refuse noDigitInExponent rest
      | (_, rest) => .ok rest
    else .ok (c :: rest)

def checkFraction : List Char → Check
  | '.' :: rest =>
    match Numeral.spanDigits rest with
    | ([], _) => refuse noDigitAfterPoint rest
    | (_, rest) => checkExponent rest
  | rest => checkExponent rest

/-- A zero in front admits no further digit. -/
def checkNumber (cs : List Char) : Check :=
  let cs := match cs with
    | '-' :: rest => rest
    | _ => cs
  match Numeral.spanDigits cs with
  | ([], _) => refuse noDigitAfterMinus cs
  | ('0' :: _ :: _, _) => refuse unexpectedNumber cs.tail
  | (_, rest) => checkFraction rest

/-- The body of a string, with so many hexadecimal digits of a unit escape still to come. Only
characters of a single byte are called bad escapes. -/
def checkString : (digits : Nat) → List Char → Check
  | 0, [] => refuse unclosedString []
  | 0, ['\\'] => refuse endOfText []
  | 0, '"' :: rest => .ok rest
  | 0, '\\' :: 'u' :: rest => checkString 4 rest
  | 0, '\\' :: c :: rest =>
    if (Reader.simpleEscape? c).isSome then checkString 0 rest
    else refuse (if c.toNat < 0x100 then badEscape else unexpected) (c :: rest)
  | 0, c :: rest =>
    if c.toNat < 0x20 then refuse controlCharacter (c :: rest) else checkString 0 rest
  | _ + 1, [] => refuse badUnitEscape []
  | digits + 1, c :: rest =>
    if (Numeral.digitInBase? 16 c).isSome then checkString digits rest
    else refuse badUnitEscape (c :: rest)

mutual

/-- A value at the start, blanks before it allowed. -/
def checkValue : (fuel : Nat) → List Char → Check
  | 0, cs => refuse unexpected cs
  | fuel + 1, cs =>
    match Reader.skipSpace cs with
    | [] => refuse endOfText []
    | c :: rest =>
      if c == '"' then checkString 0 rest
      else if c == '[' then
        match Reader.skipSpace rest with
        | ']' :: rest => .ok rest
        | rest => checkItems fuel rest
      else if c == '{' then
        match Reader.skipSpace rest with
        | '}' :: rest => .ok rest
        | rest => checkEntries fuel noFirstName rest
      else if c == 'n' then checkWord "null".toList (c :: rest)
      else if c == 't' then checkWord "true".toList (c :: rest)
      else if c == 'f' then checkWord "false".toList (c :: rest)
      else if c == '-' || Numeral.isDigit c then checkNumber (c :: rest)
      else refuse unexpected (c :: rest)

/-- One or more items up to the closing bracket. -/
def checkItems : (fuel : Nat) → List Char → Check
  | 0, cs => refuse unexpected cs
  | fuel + 1, cs =>
    (checkValue fuel cs).bind fun rest =>
      match Reader.skipSpace rest with
      | ']' :: rest => .ok rest
      | ',' :: rest => checkItems fuel rest
      | rest => refuse noCommaOrBracket rest

/-- Entries up to the closing brace; the flaw is the one of a missing name. -/
def checkEntries : (fuel : Nat) → (missing : Flaw) → List Char → Check
  | 0, _, cs => refuse unexpected cs
  | fuel + 1, missing, cs =>
    match Reader.skipSpace cs with
    | '"' :: rest =>
      (checkString 0 rest).bind fun rest =>
        match Reader.skipSpace rest with
        | ':' :: rest =>
          (checkValue fuel rest).bind fun rest =>
            match Reader.skipSpace rest with
            | '}' :: rest => .ok rest
            | ',' :: rest => checkEntries fuel noName rest
            | rest => refuse noCommaOrBrace rest
        | rest => refuse noColon rest
    | rest => refuse missing rest

end

/-- The first flaw of a text that is not one value, and what stands from its place on. -/
def first? (cs : List Char) : Option (Flaw × List Char) :=
  match checkValue (2 * cs.length + 2) cs with
  | .error found => some found
  | .ok rest =>
    match Reader.skipSpace rest with
    | [] => none
    | rest => some (textAfterValue, rest)

/-- The flaws that a message places by a count; the others it shows in their surroundings. -/
def wording? : Flaw → Option String
  | endOfText | unexpected => none
  | unexpectedNumber => some "Unexpected number in JSON"
  | unexpectedString => some "Unexpected string in JSON"
  | noFirstName => some "Expected property name or '\x7d' in JSON"
  | noName => some "Expected double-quoted property name in JSON"
  | noColon => some "Expected ':' after property name in JSON"
  | noCommaOrBrace => some "Expected ',' or '\x7d' after property value in JSON"
  | noCommaOrBracket => some "Expected ',' or ']' after array element in JSON"
  | unclosedString => some "Unterminated string in JSON"
  | controlCharacter => some "Bad control character in string literal in JSON"
  | badEscape => some "Bad escaped character in JSON"
  | badUnitEscape => some "Bad Unicode escape in JSON"
  | noDigitAfterMinus => some "No number after minus sign in JSON"
  | noDigitAfterPoint => some "Unterminated fractional number in JSON"
  | noDigitInExponent => some "Exponent part is missing a number in JSON"
  | textAfterValue => some "Unexpected non-whitespace character after JSON"

/-- Line and column after a text; a carriage return and a line feed end one line together. -/
def place : (line column : Nat) → List Char → Nat × Nat
  | line, column, [] => (line, column)
  | line, _, '\r' :: '\n' :: rest => place (line + 1) 1 rest
  | line, column, c :: rest =>
    if c == '\r' || c == '\n' then place (line + 1) 1 rest
    else place line (column + Text.width c) rest

/-- How many units are shown on either side of a place. -/
def surroundings : Nat := 10

/-- A short text as a whole, of a long one the units around a place. -/
def excerpt (units : List UInt16) (position : Nat) : String :=
  let quoted (units : List UInt16) : String := "\"" ++ String.ofList (Text.ofUnits units) ++ "\""
  if units.length ≤ 2 * surroundings then quoted units
  else
    let start := position - surroundings
    let shown := quoted ((units.take (position + surroundings)).drop start)
    (if surroundings ≤ position then "..." else "") ++ shown
      ++ if position + surroundings < units.length then "..." else ""

/-- Texts of values that JSON has no form for. -/
def foreignTexts : List String := ["undefined", "NaN", "Infinity", "[object Object]"]

def unexpectedText (whole : String) (c : Char) (position : Nat) : String :=
  if foreignTexts.contains whole then "\"" ++ whole ++ "\" is not valid JSON"
  else "Unexpected token '" ++ String.ofList [Text.firstUnit c] ++ "', "
    ++ excerpt (Text.unitsOfChars whole.toList) position ++ " is not valid JSON"

def message (whole : String) (flaw : Flaw) (rest : List Char) : String :=
  let before := whole.toList.take (whole.toList.length - rest.length)
  let position := Text.lengthOf before
  match flaw.wording?, rest with
  | some wording, _ =>
    let (line, column) := place 1 1 before
    s!"{wording} at position {position} (line {line} column {column})"
  | none, [] => "Unexpected end of JSON input"
  | none, c :: _ => unexpectedText whole c position

end Flaw

/-- What is wrong with a text that is not JSON; nothing is to be said of one that is. -/
def complaint (s : String) : String :=
  match Flaw.first? s.toList with
  | some (flaw, rest) => flaw.message s rest
  | none => ""

end ProgramGym.Json
