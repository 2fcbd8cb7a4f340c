import ProgramGym.Decimal.Shortest

/-! How numbers are written in messages, reports and JSON. -/
namespace ProgramGym

/-- Where positional notation ends, by the position of the decimal point after the first digit. -/
structure Notation where
  smallest : Int
  largest : Int

namespace Notation

/-- Numbers are written in full from a millionth to below 10^21. -/
def plain : Notation := ⟨-6, 21⟩

def zeros (n : Nat) : List Char := List.replicate n '0'

def exponentChars (e : Int) : List Char :=
  'e' :: (if e < 0 then '-' else '+') :: (toString e.natAbs).toList

/-- Digits with the decimal point after the first `point` of them. -/
def layoutChars (form : Notation) (digits : List Char) (point : Int) : List Char :=
  let count := Int.ofNat digits.length
  if count ≤ point && point ≤ form.largest then digits ++ zeros (point - count).toNat
  else if 0 < point && point ≤ form.largest then
    digits.take point.toNat ++ '.' :: digits.drop point.toNat
  else if form.smallest < point && point ≤ 0 then '0' :: '.' :: zeros (-point).toNat ++ digits
  else match digits with
    | [] => []
    | [d] => d :: exponentChars (point - 1)
    | d :: rest => d :: '.' :: rest ++ exponentChars (point - 1)

def magnitudeChars (form : Notation) (mantissa : Nat) (exponent : Int) : List Char :=
  let d := Decimal.shortest mantissa exponent
  let digits := (toString d.coefficient).toList
  layoutChars form digits (Int.ofNat digits.length + d.exponent)

end Notation

namespace Number

/-- The shortest text that reads back. Both zeros are written 0. -/
def chars (x : Float) : List Char :=
  match Binary64.ofFloat x with
  | .notANumber => "NaN".toList
  | .infinite negative => (if negative then "-Infinity" else "Infinity").toList
  | .finite negative mantissa exponent =>
    let magnitude := Notation.plain.magnitudeChars mantissa exponent
    if mantissa == 0 then ['0'] else if negative then '-' :: magnitude else magnitude

def text (x : Float) : String := String.ofList (chars x)

/-- A number of decimal places. From 10^21 on the shortest text is used, and a negative
number keeps its sign when it rounds to zero. -/
def fixedText (x : Float) (places : Nat) : String :=
  match Binary64.ofFloat x with
  | .finite negative mantissa exponent =>
    let m := Binary64.magnitude mantissa exponent
    if m.numerator ≥ Nat.pow 10 21 * m.denominator then text x else
      let digits := (toString (Decimal.fixed m places)).toList
      let padded := Notation.zeros (places + 1 - digits.length) ++ digits
      let whole := padded.take (padded.length - places)
      let fraction := padded.drop (padded.length - places)
      let body := if places == 0 then whole else whole ++ '.' :: fraction
      String.ofList (if negative && mantissa != 0 then '-' :: body else body)
  | _ => text x

/-- Hundred times the number with one place, and a percent sign. -/
def percent (x : Float) : String := fixedText (x * 100) 1 ++ "%"

end Number
end ProgramGym
