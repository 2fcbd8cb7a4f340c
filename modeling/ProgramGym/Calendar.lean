/-! Moments of time in milliseconds since 1970, written in universal time. A text that is no
date is read as no moment; such a time cannot be written. -/
namespace ProgramGym

inductive Instant where
  | moment (milliseconds : Int)
  | none
  deriving DecidableEq, Repr

namespace Calendar

structure Date where
  year : Int
  month : Int
  day : Int
  deriving DecidableEq, Repr

/-- Days since 1970 of a day in the proleptic Gregorian calendar. A day past the end of its
month counts on into the next. -/
def daysOf (d : Date) : Int :=
  let y := if d.month ≤ 2 then d.year - 1 else d.year
  let era := y.fdiv 400
  let yearOfEra := y - era * 400
  let shifted := if d.month > 2 then d.month - 3 else d.month + 9
  let dayOfYear := (153 * shifted + 2) / 5 + d.day - 1
  let dayOfEra := yearOfEra * 365 + yearOfEra / 4 - yearOfEra / 100 + dayOfYear
  era * 146097 + dayOfEra - 719468

def dateOf (days : Int) : Date :=
  let z := days + 719468
  let era := z.fdiv 146097
  let dayOfEra := z - era * 146097
  let yearOfEra := (dayOfEra - dayOfEra / 1460 + dayOfEra / 36524 - dayOfEra / 146096) / 365
  let dayOfYear := dayOfEra - (365 * yearOfEra + yearOfEra / 4 - yearOfEra / 100)
  let shifted := (5 * dayOfYear + 2) / 153
  let month := if shifted < 10 then shifted + 3 else shifted - 9
  { year := yearOfEra + era * 400 + (if month ≤ 2 then 1 else 0)
    month
    day := dayOfYear - (153 * shifted + 2) / 5 + 1 }

def dayLength : Int := 86400000

/-- Moments farther than this from 1970 are not represented. -/
def farthest : Int := 8640000000000000

def padded (width n : Nat) : String :=
  let digits := toString n
  String.ofList (List.replicate (width - digits.length) '0') ++ digits

/-- Four digits, or a sign and six outside the years 0 to 9999. -/
def yearText (year : Int) : String :=
  if 0 ≤ year && year ≤ 9999 then padded 4 year.natAbs
  else (if year < 0 then "-" else "+") ++ padded 6 year.natAbs

structure Clock where
  date : Date
  hour : Nat
  minute : Nat
  second : Nat
  millisecond : Nat

def clockOf (milliseconds : Int) : Clock :=
  let days := milliseconds.fdiv dayLength
  let rest := (milliseconds - days * dayLength).toNat
  ⟨dateOf days, rest / 3600000, rest / 60000 % 60, rest / 1000 % 60, rest % 1000⟩

def dateText (d : Date) : String :=
  yearText d.year ++ "-" ++ padded 2 d.month.natAbs ++ "-" ++ padded 2 d.day.natAbs

def timeText (c : Clock) : String :=
  padded 2 c.hour ++ ":" ++ padded 2 c.minute ++ ":" ++ padded 2 c.second

end Calendar

namespace Instant
open Calendar

def ofMilliseconds (n : Int) : Instant := if n.natAbs ≤ farthest.natAbs then .moment n else .none

/-- Date and time to the millisecond, with the letters T and Z. -/
def isoText? : Instant → Option String
  | .moment n =>
    let c := clockOf n
    some (dateText c.date ++ "T" ++ timeText c ++ "." ++ padded 3 c.millisecond ++ "Z")
  | .none => Option.none

/-- Date and time to the second. -/
def plainText : Instant → String
  | .moment n => dateText (clockOf n).date ++ " " ++ timeText (clockOf n)
  | .none => ""

/-- The moment a number of seconds later. -/
def plusSeconds (t : Instant) (seconds : Nat) : Instant :=
  match t with
  | .moment n => ofMilliseconds (n + 1000 * seconds)
  | .none => .none

end Instant
end ProgramGym
