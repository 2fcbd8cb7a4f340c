import ProgramGym.Text

/-! Tokens of integer arithmetic: runs of decimal digits and six operator signs. Blanks
separate tokens and mean nothing else. -/
namespace ProgramGym.Calc

inductive Token where
  | number (value : Nat)
  | plus
  | minus
  | times
  | dividedBy
  | opening
  | closing
  deriving DecidableEq, Repr

namespace Token

def sign? (c : Char) : Option Token :=
  if c == '+' then some plus
  else if c == '-' then some minus
  else if c == '*' then some times
  else if c == '/' then some dividedBy
  else if c == '(' then some opening
  else if c == ')' then some closing
  else none

def text : Token → String
  | number value => toString value
  | plus => "+"
  | minus => "-"
  | times => "*"
  | dividedBy => "/"
  | opening => "("
  | closing => ")"

end Token

/-- Why a text is not a program, or a program has no value. -/
inductive Error where
  | unexpectedCharacter (c : Char) (position : Nat)
  | emptyProgram
  | unexpectedToken (position : Nat)
  | unexpectedSign (token : Token)
  | unexpectedEnd
  | missingClosing
  | divisionByZero
  deriving DecidableEq, Repr

def Error.message : Error → String
  | unexpectedCharacter c position => s!"unexpected character '{c}' at {position}"
  | emptyProgram => "empty program"
  | unexpectedToken position => s!"unexpected token at {position}"
  | unexpectedSign token => s!"unexpected '{token.text}'"
  | unexpectedEnd => "unexpected end of program"
  | missingClosing => "missing ')'"
  | divisionByZero => "division by zero"

def isDigit (c : Char) : Bool := '0' ≤ c && c ≤ '9'

def digitValue (c : Char) : Nat := c.toNat - '0'.toNat

/-- Reads on with the digits of the number that is open, if one is. -/
def scan : (position : Nat) → (number : Option Nat) → List Char → Except Error (List Token)
  | _, none, [] => .ok []
  | _, some n, [] => .ok [.number n]
  | position, number, c :: rest =>
    if isDigit c then
      scan (position + 1) (some (10 * number.getD 0 + digitValue c)) rest
    else
      let before := (number.map Token.number).toList
      if Text.isBlank c then
        (scan (position + 1) none rest).map (before ++ ·)
      else match Token.sign? c with
        | some token => (scan (position + 1) none rest).map fun ts => before ++ token :: ts
        | none => .error (.unexpectedCharacter c position)

/-- Places are counted in units. -/
def tokens (source : Text) : Except Error (List Token) := scan 0 none source.unitChars

end ProgramGym.Calc
