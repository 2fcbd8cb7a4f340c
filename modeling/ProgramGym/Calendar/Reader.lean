import ProgramGym.Calendar
import ProgramGym.Text.Blank

/-! Reading dates. The international form with dashes, a T and an offset is read strictly; a
text of another form is read leniently, as numbers for day and time with month names, half
days, zone names and offsets between them. Without a zone the time is universal. -/
namespace ProgramGym.Calendar

inductive Word where
  | month (n : Int)
  | halfDay (hours : Int)
  | zone (hours : Int)
  | timeMark
  | unknown
  deriving DecidableEq, Repr

inductive Token where
  | number (value : Int) (digits : Nat)
  | symbol (c : Char)
  | word (w : Word) (letters : Nat)
  | blank
  | other
  deriving DecidableEq, Repr

def months : List String :=
  ["jan", "feb", "mar", "apr", "may", "jun", "jul", "aug", "sep", "oct", "nov", "dec"]

def shortWords : List (String × Word) :=
  [("am", .halfDay 0), ("pm", .halfDay 12), ("ut", .zone 0), ("utc", .zone 0), ("z", .zone 0),
   ("gmt", .zone 0), ("est", .zone (-5)), ("edt", .zone (-4)), ("cst", .zone (-6)),
   ("cdt", .zone (-5)), ("mst", .zone (-7)), ("mdt", .zone (-6)), ("pst", .zone (-8)),
   ("pdt", .zone (-7)), ("t", .timeMark)]

/-- Months are known by their first three letters, other words as a whole. -/
def wordOf (letters : List Char) : Word :=
  let lower := letters.map Char.toLower
  match months.findIdx? (·.toList == lower.take 3) with
  | some i => .month (Int.ofNat i + 1)
  | none => (shortWords.lookup (String.ofList lower)).getD .unknown

def isLineEnd (c : Char) : Bool := c == '\n' || c == '\r' || c.toNat == 0x2028 || c.toNat == 0x2029

/-- From the letter A on all that is no blank within a line. -/
def isLetter (c : Char) : Bool := 'A' ≤ c && (isLineEnd c || !Text.isBlank c)

/-- At most nine significant digits count. -/
def numberOf (digits : List Char) : Int :=
  ((digits.dropWhile (· == '0')).take 9).foldl
    (fun n c => 10 * n + Int.ofNat (c.toNat - '0'.toNat)) 0

/-- What follows a remark in parentheses, nested ones included. -/
def afterParentheses : (depth : Nat) → List Char → List Char
  | _, [] => []
  | depth, c :: rest =>
    if c == '(' then afterParentheses (depth + 1) rest
    else if c == ')' then if depth ≤ 1 then rest else afterParentheses (depth - 1) rest
    else afterParentheses depth rest

def tokensWithin : (fuel : Nat) → List Char → List Token
  | 0, _ => []
  | _ + 1, [] => []
  | fuel + 1, c :: rest =>
    if c.isDigit then
      let digits := c :: rest.takeWhile Char.isDigit
      .number (numberOf digits) digits.length :: tokensWithin fuel (rest.dropWhile Char.isDigit)
    else if [':', '-', '+', '.', ')'].contains c then .symbol c :: tokensWithin fuel rest
    else if isLetter c then
      let letters := c :: rest.takeWhile isLetter
      .word (wordOf letters) letters.length :: tokensWithin fuel (rest.dropWhile isLetter)
    else if Text.isBlank c then .blank :: tokensWithin fuel (rest.dropWhile Text.isBlank)
    else if c == '(' then .other :: tokensWithin fuel (afterParentheses 1 rest)
    else .other :: tokensWithin fuel rest

/-- A zero character ends the text. -/
def tokens (s : String) : List Token :=
  let cs := s.toList.takeWhile (·.toNat != 0)
  tokensWithin cs.length cs

/-- The numbers found so far. -/
structure Draft where
  day : List Int := []
  named : Option Int := none
  international : Bool := false
  time : List Int := []
  half : Option Int := none
  zoneSign : Option Int := none
  zoneHour : Option Int := none
  zoneMinute : Option Int := none

namespace Draft

def isMinute (n : Int) : Bool := 0 ≤ n && n < 60

def isDay (n : Int) : Bool := 1 ≤ n && n ≤ 31

def isMonth (n : Int) : Bool := 1 ≤ n && n ≤ 12

def addDay? (d : Draft) (n : Int) : Option Draft :=
  if d.day.length < 3 then some { d with day := d.day ++ [n] } else none

def addTime? (d : Draft) (n : Int) : Option Draft :=
  if d.time.length < 4 then some { d with time := d.time ++ [n] } else none

/-- The last part of the time; the rest of it is zero. -/
def finishTime (d : Draft) (n : Int) : Draft :=
  let time := if d.time.length < 4 then d.time ++ [n] else d.time
  { d with time := time ++ List.replicate (4 - time.length) 0 }

def expectsTime (d : Draft) (n : Int) : Bool :=
  match d.time.length with
  | 1 | 2 => isMinute n
  | 3 => 0 ≤ n && n < 1000
  | _ => false

def expectsZoneMinute (d : Draft) (n : Int) : Bool :=
  d.zoneHour.isSome && d.zoneMinute.isNone && isMinute n

def setZone (d : Draft) (hours : Int) : Draft :=
  { d with
    zoneSign := some (if hours < 0 then -1 else 1)
    zoneHour := some (Int.ofNat hours.natAbs)
    zoneMinute := some 0 }

def isUniversal (d : Draft) : Bool := d.zoneHour == some 0 && d.zoneMinute == some 0

/-- Year, month and day by the order in which numbers can stand. -/
def date? (d : Draft) : Option Date :=
  match d.day with
  | [] => none
  | first :: rest =>
    let second := rest.headD 1
    let third := (rest.drop 1).headD 1
    let date : Date := match d.named with
      | none =>
        if d.international || !isDay first then ⟨first, second, third⟩ else ⟨third, first, second⟩
      | some month =>
        if isDay first then ⟨second, month, first⟩ else ⟨first, month, second⟩
    let year :=
      if d.international then date.year
      else if 0 ≤ date.year && date.year ≤ 49 then date.year + 2000
      else if 50 ≤ date.year && date.year ≤ 99 then date.year + 1900
      else date.year
    if isMonth date.month && isDay date.day then some { date with year } else none

/-- Milliseconds into the day; 24 o'clock is allowed on the hour. -/
def time? (d : Draft) : Option Int :=
  let hour := d.time.headD 0
  let minute := (d.time.drop 1).headD 0
  let second := (d.time.drop 2).headD 0
  let millisecond := (d.time.drop 3).headD 0
  let hour? := match d.half with
    | some offset => if 0 ≤ hour && hour ≤ 12 then some (hour % 12 + offset) else none
    | none => some hour
  hour?.bind fun hour =>
    let regular := 0 ≤ hour && hour < 24 && isMinute minute && isMinute second
      && 0 ≤ millisecond && millisecond < 1000
    let midnight := hour == 24 && minute == 0 && second == 0 && millisecond == 0
    if regular || midnight then some (((hour * 60 + minute) * 60 + second) * 1000 + millisecond)
    else none

/-- The seconds of an offset wrap around at 2^32, and half of that is too much. -/
def offset? (d : Draft) : Option Int :=
  match d.zoneSign with
  | some sign =>
    let seconds := (d.zoneHour.getD 0 * 3600 + d.zoneMinute.getD 0 * 60) % 0x100000000
    if seconds < 0x80000000 then some (sign * seconds * 1000) else none
  | none => some 0

def instant (d : Draft) : Instant :=
  match d.date?, d.time?, d.offset? with
  | some date, some time, some offset =>
    .ofMilliseconds (daysOf date * dayLength + time - offset)
  | _, _, _ => .none

end Draft

/-- A fraction of a second by its digits. -/
def milliseconds (n : Int) (digits : Nat) : Int :=
  if digits == 1 then n * 100
  else if digits == 2 then n * 10
  else n / Int.ofNat (Nat.pow 10 (min digits 9 - 3))

def skip (c : Char) (ts : List Token) : List Token :=
  match ts with
  | .symbol s :: rest => if s == c then rest else ts
  | _ => ts

/-- After the end of a time stand a blank, a sign or the letter Z. -/
def endsTime : List Token → Bool
  | [] | .blank :: _ | .symbol '+' :: _ | .symbol '-' :: _ | .word (.zone _) 1 :: _ => true
  | _ => false

/-- A number among the tokens of the lenient form. -/
def readNumber? (d : Draft) (n : Int) (rest : List Token) : Option (Draft × List Token) :=
  match rest with
  | .symbol ':' :: .symbol ':' :: rest =>
    if d.time.isEmpty then some ({ d with time := [n, 0] }, rest) else none
  | .symbol ':' :: rest => (d.addTime? n).map (·, skip '.' rest)
  | .symbol '.' :: rest =>
    if d.expectsTime n then
      match rest with
      | .number m digits :: rest =>
        (d.addTime? n).map fun d => (d.finishTime (milliseconds m digits), rest)
      | _ => none
    else plain rest
  | rest => plain rest
where
  plain (rest : List Token) : Option (Draft × List Token) :=
    if d.expectsZoneMinute n then some ({ d with zoneMinute := some n }, rest)
    else if d.expectsTime n then
      if endsTime rest then some (d.finishTime n, rest) else none
    else (d.addDay? n).map (·, skip '-' rest)

/-- A sign after a time or a universal zone begins an offset. -/
def readOffset? (d : Draft) (sign : Int) (rest : List Token) : Option (Draft × List Token) :=
  let d := { d with zoneSign := some sign }
  let (n, digits, rest) := match rest with
    | .number n digits :: rest => (n, digits, rest)
    | _ => (0, 0, rest)
  match rest with
  | .symbol ':' :: _ => some ({ d with zoneHour := some n, zoneMinute := none }, rest)
  | _ =>
    if digits == 1 || digits == 2 then
      some ({ d with zoneHour := some n, zoneMinute := some 0 }, rest)
    else if digits == 3 || digits == 4 then
      some ({ d with zoneHour := some (n / 100), zoneMinute := some (n % 100) }, rest)
    else none

def lenient : (fuel : Nat) → (numberRead : Bool) → Draft → List Token → Instant
  | 0, _, d, _ => d.instant
  | _ + 1, _, d, [] => d.instant
  | fuel + 1, numberRead, d, t :: rest =>
    match t with
    | .number n _ =>
      match readNumber? d n rest with
      | some (d, rest) => lenient fuel true d rest
      | none => .none
    | .word w _ =>
      match w with
      | .month n => lenient fuel numberRead { d with named := some n } (skip '-' rest)
      | .halfDay hours =>
        if !d.time.isEmpty then lenient fuel numberRead { d with half := some hours } rest
        else garbage fuel numberRead d rest
      | .zone hours =>
        if numberRead then lenient fuel numberRead (d.setZone hours) rest
        else garbage fuel numberRead d rest
      | _ => garbage fuel numberRead d rest
    | .symbol c =>
      if c == '+' || c == '-' then
        if d.isUniversal || !d.time.isEmpty then
          match readOffset? d (if c == '-' then -1 else 1) rest with
          | some (d, rest) => lenient fuel true d rest
          | none => .none
        else if numberRead then .none
        else lenient fuel numberRead d rest
      else if c == ')' && numberRead then .none
      else lenient fuel numberRead d rest
    | .blank | .other => lenient fuel numberRead d rest
where
  /-- An unknown word is passed over in front of the numbers, apart from them. -/
  garbage (fuel : Nat) (numberRead : Bool) (d : Draft) (rest : List Token) : Instant :=
    if numberRead then .none
    else match rest with
      | .number .. :: _ => .none
      | _ => lenient fuel numberRead d rest

/-- How far the international form goes: to the end, to a fault that no other form mends, or
to a token from which the lenient form has to read on. -/
inductive Strictly where
  | complete (d : Draft)
  | faulty
  | partly (d : Draft) (rest : List Token)

def strictZone (d : Draft) (ts : List Token) : Strictly :=
  match ts with
  | [] => .complete { d with international := true }
  | [.word (.zone 0) 1] => .complete { d.setZone 0 with international := true }
  | .symbol c :: rest =>
    if c == '+' || c == '-' then
      let d := { d with zoneSign := some (if c == '-' then -1 else 1), international := true }
      match rest with
      | [.number n 4] =>
        if n / 100 < 24 && n % 100 < 60 then
          .complete { d with zoneHour := some (n / 100), zoneMinute := some (n % 100) }
        else .faulty
      | [.number h 2, .symbol ':', .number m 2] =>
        if h < 24 && m < 60 then .complete { d with zoneHour := some h, zoneMinute := some m }
        else .faulty
      | _ => .faulty
    else .faulty
  | _ => .faulty

def strictTime (d : Draft) (ts : List Token) : Strictly :=
  match ts with
  | .number h 2 :: .symbol ':' :: .number m 2 :: rest =>
    if 24 < h || 60 ≤ m || (h == 24 && 0 < m) then .faulty else
      let d := { d with time := [h, m] }
      match rest with
      | .symbol ':' :: .number s 2 :: rest =>
        if 60 ≤ s || (h == 24 && 0 < s) then .faulty else
          let d := { d with time := [h, m, s] }
          match rest with
          | .symbol '.' :: .number f digits :: rest =>
            if h == 24 && 0 < f then .faulty
            else strictZone { d with time := [h, m, s, milliseconds f digits] } rest
          | .symbol '.' :: _ => .faulty
          | rest => strictZone d rest
      | .symbol ':' :: _ => .faulty
      | rest => strictZone d rest
  | _ => .faulty

/-- After the date: its end, a time, or another form. A date alone is universal. -/
def strictRest (d : Draft) (ts : List Token) : Strictly :=
  match ts with
  | [] => .complete { d with international := true }
  | .word .timeMark _ :: rest => strictTime d rest
  | ts => .partly d ts

def strictYear (d : Draft) (ts : List Token) : Strictly :=
  match ts with
  | .symbol '-' :: .number month 2 :: rest =>
    if Draft.isMonth month then
      let d := { d with day := d.day ++ [month] }
      match rest with
      | .symbol '-' :: .number day 2 :: after =>
        if Draft.isDay day then strictRest { d with day := d.day ++ [day] } after
        else .partly d (.number day 2 :: after)
      | .symbol '-' :: after => .partly d after
      | rest => strictRest d rest
    else .partly d (.number month 2 :: rest)
  | .symbol '-' :: after => .partly d after
  | ts => strictRest d ts

/-- A year zero has no minus sign; one that has does not count. -/
def strictly (ts : List Token) : Strictly :=
  match ts with
  | .symbol c :: .number year 6 :: rest =>
    if c == '+' then strictYear { day := [year] } rest
    else if c != '-' then .partly {} ts
    else if year != 0 then strictYear { day := [-year] } rest
    else .partly {} (.symbol c :: rest)
  | .number year 4 :: rest => strictYear { day := [year] } rest
  | ts => .partly {} ts

end Calendar

/-- The moment that a text denotes. -/
def Instant.ofText (s : String) : Instant :=
  match Calendar.strictly (Calendar.tokens s) with
  | .complete d => d.instant
  | .faulty => .none
  | .partly d rest => Calendar.lenient rest.length (!d.day.isEmpty) d rest

end ProgramGym
