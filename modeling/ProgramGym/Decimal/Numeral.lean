import ProgramGym.Decimal.Shortest
import ProgramGym.Text.Blank

/-! Reading numerals: decimal ones with a fraction and an exponent, and the whole numbers
in base sixteen, eight and two that an option value may use. A numeral is read exactly; the
binary64 number nearest to it is a second step. -/
namespace ProgramGym

inductive Numeral where
  | infinite (negative : Bool)
  | finite (negative : Bool) (d : Decimal)
  deriving DecidableEq, Repr

namespace Numeral

/-- The nearest binary64 number. -/
def toFloat : Numeral → Float
  | infinite negative => if negative then Number.negInfinity else Number.infinity
  | finite negative d => d.toFloat negative

def isDigit (c : Char) : Bool := '0' ≤ c && c ≤ '9'

def digitValue (c : Char) : Nat := c.toNat - '0'.toNat

def decimalValue (cs : List Char) : Nat := cs.foldl (fun n c => 10 * n + digitValue c) 0

/-- The digits at the start and what follows them. -/
def spanDigits (cs : List Char) : List Char × List Char := cs.span isDigit

/-- A sign in front, true for minus. -/
def sign (cs : List Char) : Bool × List Char :=
  match cs with
  | '-' :: rest => (true, rest)
  | '+' :: rest => (false, rest)
  | _ => (false, cs)

/-- An exponent part, if a whole one stands at the start; without one the exponent is 0. -/
def exponent (cs : List Char) : Option (Int × List Char) :=
  match cs with
  | c :: rest =>
    if c == 'e' || c == 'E' then
      let (negative, rest) := sign rest
      match spanDigits rest with
      | ([], _) => none
      | (digits, rest) =>
        let n := Int.ofNat (decimalValue digits)
        some (if negative then -n else n, rest)
    else some (0, cs)
  | [] => some (0, [])

/-- The number written by digits before and after the point and an exponent. -/
def ofParts (negative : Bool) (whole fraction : List Char) (exponent : Int) : Numeral :=
  finite negative ⟨decimalValue (whole ++ fraction), exponent - Int.ofNat fraction.length⟩

/-- A numeral of the form that JSON has: no plus sign, no needless leading zero, digits on
both sides of a point. -/
def json? (cs : List Char) : Option (Numeral × List Char) :=
  let (negative, rest) := match cs with
    | '-' :: rest => (true, rest)
    | _ => (false, cs)
  match spanDigits rest with
  | ([], _) => none
  | ('0' :: _ :: _, _) => none
  | (whole, '.' :: rest) =>
    match spanDigits rest with
    | ([], _) => none
    | (fraction, rest) =>
      (exponent rest).map fun (e, rest) => (ofParts negative whole fraction e, rest)
  | (whole, rest) => (exponent rest).map fun (e, rest) => (ofParts negative whole [] e, rest)

def digitInBase? (base : Nat) (c : Char) : Option Nat :=
  let n :=
    if isDigit c then c.toNat - '0'.toNat
    else if 'a' ≤ c && c ≤ 'f' then c.toNat - 'a'.toNat + 10
    else if 'A' ≤ c && c ≤ 'F' then c.toNat - 'A'.toNat + 10
    else base
  if n < base then some n else none

def wholeInBase? (base : Nat) (cs : List Char) : Option Nat :=
  if cs.isEmpty then none
  else cs.foldlM (fun n c => (digitInBase? base c).map (base * n + ·)) 0

/-- A decimal numeral that is the whole text; digits may be missing on one side of the point. -/
def decimal? (cs : List Char) : Option Numeral :=
  let (negative, rest) := sign cs
  if rest == "Infinity".toList then some (infinite negative)
  else
    let (whole, rest) := spanDigits rest
    let (fraction, rest) := match rest with
      | '.' :: rest => spanDigits rest
      | _ => ([], rest)
    if whole.isEmpty && fraction.isEmpty then none
    else match exponent rest with
      | some (e, []) => some (ofParts negative whole fraction e)
      | _ => none

def ofNat (n : Nat) : Numeral := finite false ⟨n, 0⟩

/-- The base that a letter after a zero announces. -/
def baseOf? (c : Char) : Option Nat :=
  if c == 'x' || c == 'X' then some 16
  else if c == 'o' || c == 'O' then some 8
  else if c == 'b' || c == 'B' then some 2
  else none

/-- The numeral that an option value denotes: blanks around it do not count, the empty text
is zero, and a base is announced by 0x, 0o or 0b without a sign. -/
def option? (s : String) : Option Numeral :=
  match Text.trimChars s.toList with
  | [] => some (ofNat 0)
  | '0' :: c :: rest =>
    match baseOf? c with
    | some base => (wholeInBase? base rest).map ofNat
    | none => decimal? ('0' :: c :: rest)
  | cs => decimal? cs

end Numeral
end ProgramGym
