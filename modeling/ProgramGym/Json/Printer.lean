import ProgramGym.Decimal.Notation
import ProgramGym.Json.Basic

/-! Writing JSON: compact on one line, or one item to a line with an indent of two. A number
that is not finite is written null, and half of a surrogate pair on its own as an escape. -/
namespace ProgramGym.Json

def hexDigit (n : Nat) : Char := (Nat.digitChar n)

/-- A character inside quotes. -/
def escapeChar (c : Char) : List Char :=
  if c == '"' then ['\\', '"']
  else if c == '\\' then ['\\', '\\']
  else if c == '\n' then ['\\', 'n']
  else if c == '\r' then ['\\', 'r']
  else if c == '\t' then ['\\', 't']
  else if c.toNat == 8 then ['\\', 'b']
  else if c.toNat == 12 then ['\\', 'f']
  else if c.toNat < 0x20 then ['\\', 'u', '0', '0', hexDigit (c.toNat / 16), hexDigit (c.toNat % 16)]
  else [c]

/-- A unit by its four hexadecimal digits. -/
def escapeUnit (u : UInt16) : List Char :=
  let n := u.toNat
  ['\\', 'u', hexDigit (n / 4096), hexDigit (n / 256 % 16), hexDigit (n / 16 % 16), hexDigit (n % 16)]

def unitChars (u : UInt16) : List Char :=
  if Text.isHighHalf u || Text.isLowHalf u then escapeUnit u else escapeChar (Text.ofUnit u)

/-- Units inside quotes. -/
def escapedChars : List UInt16 → List Char
  | [] => []
  | [u] => unitChars u
  | u :: v :: rest =>
    if Text.isHighHalf u && Text.isLowHalf v then Text.ofPair u v :: escapedChars rest
    else unitChars u ++ escapedChars (v :: rest)

def quoteChars (t : Text) : List Char := '"' :: (escapedChars t.units ++ ['"'])

def numberChars (x : Float) : List Char :=
  if x.isFinite then Number.chars x else "null".toList

mutual

def chars : Json → List Char
  | .null => "null".toList
  | .bool b => if b then "true".toList else "false".toList
  | .number x => numberChars x
  | .text s => quoteChars s
  | .array [] => ['[', ']']
  | .array (x :: xs) => '[' :: (chars x ++ itemChars xs)
  | .object [] => ['{', '}']
  | .object ((n, v) :: ms) => '{' :: (quoteChars n ++ ':' :: (chars v ++ memberChars ms))

/-- The items after the first, up to the closing bracket. -/
def itemChars : List Json → List Char
  | [] => [']']
  | x :: xs => ',' :: (chars x ++ itemChars xs)

def memberChars : List (Text × Json) → List Char
  | [] => ['}']
  | (n, v) :: ms => ',' :: (quoteChars n ++ ':' :: (chars v ++ memberChars ms))

end

def compact (j : Json) : String := String.ofList (chars j)

/-- A text as a JSON string. -/
def quote (t : Text) : String := String.ofList (quoteChars t)

def lineBreak (depth : Nat) : List Char := '\n' :: List.replicate (2 * depth) ' '

mutual

def indentedChars (depth : Nat) : Json → List Char
  | .array [] => ['[', ']']
  | .array (x :: xs) =>
    '[' :: (lineBreak (depth + 1) ++ indentedChars (depth + 1) x ++ indentedItems depth xs)
  | .object [] => ['{', '}']
  | .object ((n, v) :: ms) =>
    '{' :: (lineBreak (depth + 1) ++ quoteChars n ++ ':' :: ' ' :: indentedChars (depth + 1) v
      ++ indentedMembers depth ms)
  | .null => "null".toList
  | .bool b => if b then "true".toList else "false".toList
  | .number x => numberChars x
  | .text s => quoteChars s

def indentedItems (depth : Nat) : List Json → List Char
  | [] => lineBreak depth ++ [']']
  | x :: xs => ',' :: (lineBreak (depth + 1) ++ indentedChars (depth + 1) x ++ indentedItems depth xs)

def indentedMembers (depth : Nat) : List (Text × Json) → List Char
  | [] => lineBreak depth ++ ['}']
  | (n, v) :: ms =>
    ',' :: (lineBreak (depth + 1) ++ quoteChars n ++ ':' :: ' ' :: indentedChars (depth + 1) v
      ++ indentedMembers depth ms)

end

def indented (j : Json) : String := String.ofList (indentedChars 0 j)

end ProgramGym.Json
