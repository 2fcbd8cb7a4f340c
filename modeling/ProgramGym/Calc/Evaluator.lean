import ProgramGym.Calc.Token

/-! Integer arithmetic evaluated while it is read: sums of products of factors, both grouped
from the left, a minus sign binding tighter than either, and division toward zero. The first
thing that goes wrong from the left is the error. -/
namespace ProgramGym.Calc

/-- A value and the tokens after it, or what went wrong. -/
abbrev Reading := Except Error (Int × List Token)

mutual

def expression : (fuel : Nat) → List Token → Reading
  | 0, _ => .error .unexpectedEnd
  | fuel + 1, ts =>
    match term fuel ts with
    | .ok (v, rest) => expressionRest fuel v rest
    | .error e => .error e

/-- The summands after the first. -/
def expressionRest : (fuel : Nat) → Int → List Token → Reading
  | 0, _, _ => .error .unexpectedEnd
  | fuel + 1, acc, .plus :: ts =>
    match term fuel ts with
    | .ok (v, rest) => expressionRest fuel (acc + v) rest
    | .error e => .error e
  | fuel + 1, acc, .minus :: ts =>
    match term fuel ts with
    | .ok (v, rest) => expressionRest fuel (acc - v) rest
    | .error e => .error e
  | _ + 1, acc, ts => .ok (acc, ts)

def term : (fuel : Nat) → List Token → Reading
  | 0, _ => .error .unexpectedEnd
  | fuel + 1, ts =>
    match factor fuel ts with
    | .ok (v, rest) => termRest fuel v rest
    | .error e => .error e

/-- The factors after the first. -/
def termRest : (fuel : Nat) → Int → List Token → Reading
  | 0, _, _ => .error .unexpectedEnd
  | fuel + 1, acc, .times :: ts =>
    match factor fuel ts with
    | .ok (v, rest) => termRest fuel (acc * v) rest
    | .error e => .error e
  | fuel + 1, acc, .dividedBy :: ts =>
    match factor fuel ts with
    | .ok (v, rest) =>
      if v = 0 then .error .divisionByZero else termRest fuel (acc.tdiv v) rest
    | .error e => .error e
  | _ + 1, acc, ts => .ok (acc, ts)

def factor : (fuel : Nat) → List Token → Reading
  | 0, _ => .error .unexpectedEnd
  | _ + 1, [] => .error .unexpectedEnd
  | _ + 1, .number n :: ts => .ok (Int.ofNat n, ts)
  | fuel + 1, .minus :: ts =>
    match factor fuel ts with
    | .ok (v, rest) => .ok (-v, rest)
    | .error e => .error e
  | fuel + 1, .opening :: ts =>
    match expression fuel ts with
    | .ok (v, .closing :: rest) => .ok (v, rest)
    | .ok _ => .error .missingClosing
    | .error e => .error e
  | _ + 1, t :: _ => .error (.unexpectedSign t)

end

/-- Every level of nesting reads a token and descends three calls, so the fuel suffices. -/
def evaluateTokens (ts : List Token) : Except Error Int :=
  if ts.isEmpty then .error .emptyProgram
  else match expression (4 * ts.length + 4) ts with
    | .ok (v, []) => .ok v
    | .ok (_, rest) => .error (.unexpectedToken (ts.length - rest.length))
    | .error e => .error e

def evaluate (source : Text) : Except Error Int :=
  match tokens source with
  | .ok ts => evaluateTokens ts
  | .error e => .error e

end ProgramGym.Calc
