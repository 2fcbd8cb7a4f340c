import ProgramGym.Decimal.Binary64

/-! Decimal approximations of binary64 numbers in exact natural arithmetic: the fewest
digits that read back, and roundings to a number of places or of significant digits. -/
namespace ProgramGym

/-- The number coefficient · 10^exponent. -/
structure Decimal where
  coefficient : Nat
  exponent : Int
  deriving DecidableEq, Repr

namespace Decimal
open Binary64 (Magnitude)

def digitCount (n : Nat) : Nat := (toString n).length

/-- A quotient to the nearest whole number, a half upward. -/
def roundQuotient (numerator denominator : Nat) : Nat :=
  (2 * numerator + denominator) / (2 * denominator)

/-- How many tens a numerator needs to reach the denominator. -/
def tensToReach : (fuel : Nat) → (numerator denominator : Nat) → Nat
  | 0, _, _ => 0
  | fuel + 1, n, d => if d ≤ n then 0 else tensToReach fuel (10 * n) d + 1

/-- The k with 10^(k-1) ≤ m < 10^k, for a magnitude above zero. -/
def order (m : Magnitude) : Int :=
  if m.denominator ≤ m.numerator then digitCount m.whole
  else 1 - Int.ofNat (tensToReach (m.denominator.log2 + 1) m.numerator m.denominator)

/-- A magnitude divided by a power of ten. -/
def scale (m : Magnitude) (power : Int) : Magnitude :=
  match power with
  | .ofNat p => ⟨m.numerator, m.denominator * Nat.pow 10 p⟩
  | .negSucc p => ⟨m.numerator * Nat.pow 10 (p + 1), m.denominator⟩

/-- The reals that round to a binary64 number, in quarters of its last place: the number
itself, the nearest and the farthest of them, and whether the two ends belong to them. -/
structure Interval where
  value : Nat
  low : Nat
  high : Nat
  closed : Bool

def interval (mantissa : Nat) (exponent : Int) : Interval where
  value := 4 * mantissa
  low := 4 * mantissa - (if mantissa == Binary64.fractions && exponent > -1074 then 1 else 2)
  high := 4 * mantissa + 2
  closed := mantissa % 2 == 0

/-- The point of one decimal grid that reads back, if there is one: of two the nearer,
of two as near the even one. The interval is given in units of 1/denominator of the grid. -/
def gridPoint? (low value high : Nat) (closed : Bool) (denominator : Nat) : Option Nat :=
  let below := value / denominator
  let reads (c : Nat) : Bool :=
    if closed then low ≤ c * denominator && c * denominator ≤ high
    else low < c * denominator && c * denominator < high
  match reads below, reads (below + 1) with
  | true, false => some below
  | false, true => some (below + 1)
  | false, false => none
  | true, true =>
    let rest := 2 * (value - below * denominator)
    if rest < denominator then some below
    else if denominator < rest then some (below + 1)
    else some (if below % 2 == 0 then below else below + 1)

def stripZeros : (fuel : Nat) → Decimal → Decimal
  | 0, d => d
  | fuel + 1, d =>
    if d.coefficient != 0 && d.coefficient % 10 == 0 then
      stripZeros fuel ⟨d.coefficient / 10, d.exponent + 1⟩
    else d

/-- Searches the grids of one, two, … digits. -/
def searchGrids (i : Interval) (unit : Magnitude) (order : Int) : (fuel digits : Nat) → Decimal
  | 0, digits => ⟨i.value, Int.ofNat digits⟩
  | fuel + 1, digits =>
    let power := order - Int.ofNat digits
    let grid := scale unit power
    match gridPoint? (i.low * grid.numerator) (i.value * grid.numerator) (i.high * grid.numerator)
        i.closed grid.denominator with
    | some c => stripZeros 17 ⟨c, power⟩
    | none => searchGrids i unit order fuel (digits + 1)

/-- The fewest digits that read back as mantissa · 2^exponent, and of those the nearest.
Seventeen digits always do. -/
def shortest (mantissa : Nat) (exponent : Int) : Decimal :=
  if mantissa == 0 then ⟨0, 0⟩ else
    searchGrids (interval mantissa exponent) (Binary64.magnitude 1 (exponent - 2))
      (order (Binary64.magnitude mantissa exponent)) 17 1

/-- In units of 10^-places, to the nearest, a half upward. -/
def fixed (m : Magnitude) (places : Nat) : Nat :=
  roundQuotient (m.numerator * Nat.pow 10 places) m.denominator

/-- To a number of significant digits, a half upward. -/
def significant (m : Magnitude) (digits : Nat) : Decimal :=
  if m.numerator == 0 then ⟨0, 0⟩ else
    let power := order m - Int.ofNat digits
    let grid := scale m power
    ⟨roundQuotient grid.numerator grid.denominator, power⟩

/-- The binary64 number nearest to a decimal. Exponents far outside the range are settled
without computing the power. -/
def toFloat (d : Decimal) (negative : Bool) : Float :=
  let size := Int.ofNat (digitCount d.coefficient) + d.exponent
  let x : Float :=
    if d.coefficient == 0 || size < -400 then 0
    else if size > 400 then Number.infinity
    else match d.exponent with
      | .ofNat e => Float.ofScientific d.coefficient false e
      | .negSucc e => Float.ofScientific d.coefficient true (e + 1)
  if negative then -x else x

/-- The natural number below 10^16 that a decimal is exactly. -/
def small? (d : Decimal) : Option Nat :=
  if d.coefficient == 0 then some 0
  else
    let size := Int.ofNat (digitCount d.coefficient) + d.exponent
    if size ≤ 0 || 16 < size then none
    else match d.exponent with
      | .ofNat e => some (d.coefficient * Nat.pow 10 e)
      | .negSucc e =>
        let unit := Nat.pow 10 (e + 1)
        if d.coefficient % unit == 0 then some (d.coefficient / unit) else none

end Decimal

/-- Rounded to a number of significant digits; infinities and what is not a number stay. -/
def Number.toSignificant (x : Float) (digits : Nat) : Float :=
  match Binary64.ofFloat x with
  | .finite negative mantissa exponent =>
    (Decimal.significant (Binary64.magnitude mantissa exponent) digits).toFloat negative
  | _ => x

end ProgramGym
