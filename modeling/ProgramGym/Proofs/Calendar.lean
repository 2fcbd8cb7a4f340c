import Mathlib
import ProgramGym.Calendar.Reader
import ProgramGym.Proofs.Decimal.Reading

/-! Dates and times in the international form. A day is a place within an era of 400 years, and
the years of an era are counted from March, so that the leap day is the last of its year. Main
statement: a moment is read back from the text that it is written as. -/
namespace ProgramGym
namespace Calendar

/-- The day of the year counted from March, from the day of the era. -/
theorem dayOfYear_bounds {doe : Int} (low : 0 ≤ doe) (high : doe ≤ 146096) :
    let yoe := (doe - doe / 1460 + doe / 36524 - doe / 146096) / 365
    0 ≤ yoe ∧ yoe ≤ 399 ∧ 0 ≤ doe - (365 * yoe + yoe / 4 - yoe / 100) ∧
      doe - (365 * yoe + yoe / 4 - yoe / 100) ≤ 365 := by
  intro yoe
  refine ⟨by omega, by omega, ?_, ?_⟩
  · by_contra short
    have centuries : doe / 36524 ≤ yoe / 100 := by omega
    have fewer : doe / 36524 ≤ doe / 1460 := by omega
    have quads : yoe / 4 ≤ doe / 1460 := by omega
    omega
  · by_contra long
    have centuries : yoe / 100 ≤ doe / 36524 := by omega
    omega

/-- A date as it is counted: the era of 400 years, the year of the era from March on, the month
from March on and the day of the month. -/
structure Position where
  era : Int
  year : Int
  month : Int
  day : Int

namespace Position

structure Valid (p : Position) : Prop where
  year_low : 0 ≤ p.year
  year_high : p.year ≤ 399
  month_low : 0 ≤ p.month
  month_high : p.month ≤ 11
  day_low : 1 ≤ p.day
  day_high : p.day ≤ 31

def date (p : Position) : Date :=
  let month := if p.month < 10 then p.month + 3 else p.month - 9
  ⟨p.year + p.era * 400 + (if month ≤ 2 then 1 else 0), month, p.day⟩

/-- The day of an era that it begins with. -/
def dayOfEra (p : Position) : Int :=
  p.year * 365 + p.year / 4 - p.year / 100 + ((153 * p.month + 2) / 5 + p.day - 1)

theorem daysOf_date {p : Position} (valid : p.Valid) :
    daysOf p.date = p.era * 146097 + p.dayOfEra - 719468 := by
  obtain ⟨yearLow, yearHigh, monthLow, monthHigh, _, _⟩ := valid
  have march : (if p.date.month ≤ 2 then p.date.year - 1 else p.date.year) =
      p.year + p.era * 400 := by
    simp only [date]
    split_ifs <;> omega
  have shifted : (if p.date.month > 2 then p.date.month - 3 else p.date.month + 9) = p.month := by
    simp only [date]
    split_ifs <;> omega
  have era : (p.year + p.era * 400).fdiv 400 = p.era := by
    rw [Int.fdiv_eq_ediv_of_nonneg _ (by decide)]
    omega
  have yearOfEra : p.year + p.era * 400 - p.era * 400 = p.year := by omega
  simp only [daysOf, march, shifted, era, yearOfEra]
  rfl

/-- The position of a day. -/
def ofDays (days : Int) : Position :=
  let z := days + 719468
  let era := z.fdiv 146097
  let dayOfEra := z - era * 146097
  let year := (dayOfEra - dayOfEra / 1460 + dayOfEra / 36524 - dayOfEra / 146096) / 365
  let dayOfYear := dayOfEra - (365 * year + year / 4 - year / 100)
  let month := (5 * dayOfYear + 2) / 153
  ⟨era, year, month, dayOfYear - (153 * month + 2) / 5 + 1⟩

theorem date_ofDays (days : Int) : (ofDays days).date = dateOf days := rfl

theorem dayOfEra_ofDays (days : Int) :
    (ofDays days).dayOfEra = days + 719468 - (ofDays days).era * 146097 := by
  simp only [dayOfEra, ofDays]
  omega

theorem valid_ofDays (days : Int) : (ofDays days).Valid := by
  have era := Int.fdiv_eq_ediv_of_nonneg (days + 719468) (show (0 : Int) ≤ 146097 by decide)
  simp only [ofDays, era]
  have bounds := @dayOfYear_bounds (days + 719468 - (days + 719468) / 146097 * 146097)
    (by omega) (by omega)
  generalize days + 719468 - (days + 719468) / 146097 * 146097 = dayOfEra at bounds ⊢
  obtain ⟨yearLow, yearHigh, low, high⟩ := bounds
  constructor
  · exact yearLow
  · exact yearHigh
  all_goals
    dsimp only
    omega

end Position

/-- Days are counted back to the date that they were made of. -/
theorem daysOf_dateOf (days : Int) : daysOf (dateOf days) = days := by
  rw [← Position.date_ofDays, Position.daysOf_date (Position.valid_ofDays days),
    Position.dayOfEra_ofDays]
  omega

/-- A date near enough to 1970 has a year of six digits. -/
theorem dateOf_bounds {days : Int} (near : days.natAbs ≤ 100000000) :
    (dateOf days).year.natAbs < 1000000 ∧
      (1 ≤ (dateOf days).month ∧ (dateOf days).month ≤ 12) ∧
      1 ≤ (dateOf days).day ∧ (dateOf days).day ≤ 31 := by
  obtain ⟨yearLow, yearHigh, monthLow, monthHigh, dayLow, dayHigh⟩ := Position.valid_ofDays days
  have era : (Position.ofDays days).era = (days + 719468) / 146097 :=
    Int.fdiv_eq_ediv_of_nonneg _ (by decide)
  rw [← Position.date_ofDays]
  simp only [Position.date]
  refine ⟨?_, ⟨?_, ?_⟩, dayLow, dayHigh⟩ <;> split_ifs <;> omega

/-- Digits of a width that spell a number. -/
structure Spells (digits : List Char) (width : Nat) (value : Int) : Prop where
  length : digits.length = width
  all : ∀ c ∈ digits, c.isDigit = true
  number : numberOf digits = value

theorem foldl_digits (ds : List Char) (n : Nat) :
    ds.foldl (fun (n : Int) c => 10 * n + Int.ofNat (c.toNat - '0'.toNat)) n =
      Nat.ofDigitChars 10 ds n := by
  induction ds generalizing n with
  | nil => rfl
  | cons d ds ih =>
    rw [Nat.ofDigitChars, List.foldl_cons, List.foldl_cons, ← Nat.ofDigitChars, ← ih]
    rfl

theorem numberOf_toDigits {n : Nat} (short : n < 1000000000) (zeros : Nat) :
    numberOf (List.replicate zeros '0' ++ Nat.toDigits 10 n) = n := by
  have few : (Nat.toDigits 10 n).length ≤ 9 :=
    (Nat.length_toDigits_le_iff (by decide) (by decide)).mpr short
  rw [numberOf, List.dropWhile_append_of_pos (by simp)]
  rcases Nat.eq_zero_or_pos n with rfl | pos
  · decide
  · have lead : (Nat.toDigits 10 n).dropWhile (· == '0') = Nat.toDigits 10 n := by
      cases digits : Nat.toDigits 10 n with
      | nil => rfl
      | cons d ds =>
        have nonzero : d ≠ '0' := by
          rintro rfl
          exact Numeral.head_toDigits pos ds digits
        simp [nonzero]
    rw [lead, List.take_of_length_le few]
    exact (foldl_digits _ 0).trans (congrArg Nat.cast Nat.ofDigitChars_ten_toDigits)

theorem toList_padded (width n : Nat) : (padded width n).toList =
    List.replicate (width - (Nat.toDigits 10 n).length) '0' ++ Nat.toDigits 10 n := by
  simp [padded, ← String.length_toList]

theorem isDigit_of_mem_padded {width n : Nat} {c : Char} (member : c ∈ (padded width n).toList) :
    c.isDigit = true := by
  rw [toList_padded] at member
  rcases List.mem_append.mp member with zero | digit
  · rw [List.eq_of_mem_replicate zero]
    rfl
  · exact Nat.isDigit_of_mem_toDigits (by decide) (by decide) digit

theorem spells_padded {width n : Nat} (pos : 0 < width) (short : width ≤ 9)
    (fits : n < 10 ^ width) : Spells (padded width n).toList width n where
  length := by
    have few : (Nat.toDigits 10 n).length ≤ width :=
      (Nat.length_toDigits_le_iff (by decide) pos).mpr fits
    rw [toList_padded, List.length_append, List.length_replicate]
    omega
  all _ := isDigit_of_mem_padded
  number := by
    rw [toList_padded]
    exact numberOf_toDigits (fits.trans_le (Nat.pow_le_pow_right (n := 10) (by decide) short)) _

section
variable {digits rest : List Char} {width : Nat} {value : Int} (fuel : Nat)

theorem tokensWithin_number (spells : Spells digits width value) (some : 0 < width)
    (ends : ∀ c ∈ rest.head?, c.isDigit = false) :
    tokensWithin (fuel + 1) (digits ++ rest) = .number value width :: tokensWithin fuel rest := by
  obtain ⟨length, all, number⟩ := spells
  cases digits with
  | nil =>
    rw [List.length_nil] at length
    omega
  | cons d ds =>
    have stop : rest.takeWhile Char.isDigit = [] ∧ rest.dropWhile Char.isDigit = rest := by
      cases rest with
      | nil => exact ⟨rfl, rfl⟩
      | cons c rest => simp [ends c rfl]
    have digits : ∀ c ∈ ds, c.isDigit = true := fun c inside =>
      all c (List.mem_cons_of_mem _ inside)
    rw [List.cons_append, tokensWithin, if_pos (all d List.mem_cons_self),
      List.takeWhile_append_of_pos digits, List.dropWhile_append_of_pos digits, stop.1, stop.2,
      List.append_nil]
    dsimp only
    rw [number, length]

theorem tokensWithin_symbol {c : Char} (symbol : [':', '-', '+', '.', ')'].contains c = true) :
    tokensWithin (fuel + 1) (c :: rest) = .symbol c :: tokensWithin fuel rest := by
  have plain : c.isDigit = false := by
    simp only [List.contains_eq_mem, List.mem_cons, List.not_mem_nil, or_false,
      decide_eq_true_eq] at symbol
    rcases symbol with rfl | rfl | rfl | rfl | rfl <;> rfl
  rw [tokensWithin, if_neg (by simp [plain]), if_pos symbol]

theorem tokensWithin_letter {c : Char} (letter : isLetter c = true) (plain : c.isDigit = false)
    (other : [':', '-', '+', '.', ')'].contains c = false)
    (ends : ∀ c ∈ rest.head?, isLetter c = false) :
    tokensWithin (fuel + 1) (c :: rest) = .word (wordOf [c]) 1 :: tokensWithin fuel rest := by
  have stop : rest.takeWhile isLetter = [] ∧ rest.dropWhile isLetter = rest := by
    cases rest with
    | nil => exact ⟨rfl, rfl⟩
    | cons c rest => simp [ends c rfl]
  rw [tokensWithin, if_neg (by simp [plain]), if_neg (by rw [other]; decide), if_pos letter,
    stop.1, stop.2]
  rfl

end

/-- The parts of a date and a time are in their ranges. -/
structure Clock.Valid (c : Clock) : Prop where
  hour : c.hour < 24
  minute : c.minute < 60
  second : c.second < 60
  millisecond : c.millisecond < 1000
  month : 1 ≤ c.date.month ∧ c.date.month ≤ 12
  day : 1 ≤ c.date.day ∧ c.date.day ≤ 31
  year : c.date.year.natAbs < 1000000

/-- The characters behind the year of a date and a time. -/
def behindYear (c : Clock) : List Char :=
  '-' :: ((padded 2 c.date.month.natAbs).toList ++ '-' :: ((padded 2 c.date.day.natAbs).toList ++
    'T' :: ((padded 2 c.hour).toList ++ ':' :: ((padded 2 c.minute).toList ++
      ':' :: ((padded 2 c.second).toList ++ '.' :: ((padded 3 c.millisecond).toList ++ ['Z']))))))

def tokensBehindYear (c : Clock) : List Token :=
  [.symbol '-', .number c.date.month 2, .symbol '-', .number c.date.day 2, .word .timeMark 1,
    .number c.hour 2, .symbol ':', .number c.minute 2, .symbol ':', .number c.second 2, .symbol '.',
    .number c.millisecond 3, .word (.zone 0) 1]

theorem spells_natAbs {width : Nat} {n : Int} (pos : 0 < width) (short : width ≤ 9) (low : 0 ≤ n)
    (fits : n.natAbs < 10 ^ width) : Spells (padded width n.natAbs).toList width n := by
  have spells := spells_padded pos short fits
  rwa [Int.natCast_natAbs, abs_of_nonneg low] at spells

theorem isLetter_of_isDigit {c : Char} (digit : c.isDigit = true) : isLetter c = false := by
  have low : ¬ 'A' ≤ c := by
    simp only [Char.isDigit, Bool.and_eq_true, decide_eq_true_eq, Char.le_def,
      UInt32.le_iff_toNat_le] at digit ⊢
    have letter : ('A' : Char).val.toNat = 65 := rfl
    have nine : ('9' : Char).val.toNat = 57 := rfl
    omega
  simp [isLetter, low]

theorem Spells.no_letter {digits rest : List Char} {width : Nat} {value : Int}
    (spells : Spells digits (width + 1) value) :
    ∀ c ∈ (digits ++ rest).head?, isLetter c = false := by
  cases digits with
  | nil => exact absurd spells.length (by simp)
  | cons d ds =>
    rintro _ ⟨⟩
    exact isLetter_of_isDigit (spells.all d List.mem_cons_self)

theorem tokensWithin_behindYear {c : Clock} (valid : c.Valid) (fuel : Nat) :
    tokensWithin (fuel + 13) (behindYear c) = tokensBehindYear c := by
  obtain ⟨hour, minute, second, millisecond, month, day, _⟩ := valid
  have two {n : Nat} (small : n < 100) := @spells_padded 2 n (by decide) (by decide) small
  have month := @spells_natAbs 2 c.date.month (by decide) (by decide) (by omega) (by omega)
  have day := @spells_natAbs 2 c.date.day (by decide) (by decide) (by omega) (by omega)
  have hour := @two c.hour (by omega)
  have minute := @two c.minute (by omega)
  have second := @two c.second (by omega)
  have millisecond := @spells_padded 3 c.millisecond (by decide) (by decide) millisecond
  have stop : tokensWithin fuel [] = [] := by cases fuel <;> rfl
  unfold behindYear
  rw [tokensWithin_symbol _ (by decide), tokensWithin_number _ month (by decide) (by simp),
    tokensWithin_symbol _ (by decide), tokensWithin_number _ day (by decide) (by simp),
    tokensWithin_letter _ (by decide) (by decide) (by decide) hour.no_letter,
    tokensWithin_number _ hour (by decide) (by simp), tokensWithin_symbol _ (by decide),
    tokensWithin_number _ minute (by decide) (by simp), tokensWithin_symbol _ (by decide),
    tokensWithin_number _ second (by decide) (by simp), tokensWithin_symbol _ (by decide),
    tokensWithin_number _ millisecond (by decide) (by simp),
    tokensWithin_letter _ (by decide) (by decide) (by decide) (by simp), stop]
  rfl

/-- A year of four digits, or a sign and six. -/
theorem strictly_yearText {year : Int} (near : year.natAbs < 1000000) (fuel : Nat)
    {rest : List Char} (ends : ∀ c ∈ rest.head?, c.isDigit = false) :
    ∃ more, fuel ≤ more ∧ strictly (tokensWithin (fuel + 2) ((yearText year).toList ++ rest)) =
      strictYear { day := [year] } (tokensWithin more rest) := by
  unfold yearText
  split
  · next plain =>
    simp only [Bool.and_eq_true, decide_eq_true_eq] at plain
    have spells := @spells_natAbs 4 year (by decide) (by decide) plain.1 (by omega)
    exact ⟨fuel + 1, by omega, by rw [tokensWithin_number _ spells (by decide) ends]; rfl⟩
  · next far =>
    simp only [Bool.and_eq_true, decide_eq_true_eq] at far
    have spells := @spells_padded 6 year.natAbs (by decide) (by decide) near
    have number := tokensWithin_number fuel spells (by decide) ends
    have tokens {c : Char} (sign : [':', '-', '+', '.', ')'].contains c = true) :
        tokensWithin (fuel + 2) (c :: ((padded 6 year.natAbs).toList ++ rest)) =
          .symbol c :: .number year.natAbs 6 :: tokensWithin fuel rest := by
      rw [tokensWithin_symbol _ sign, number]
    refine ⟨fuel, by omega, ?_⟩
    rw [String.toList_append, List.append_assoc]
    rcases lt_or_ge year 0 with before | after
    · -- the year zero is four digits, so a minus never stands before zeros alone
      have signed : -(year.natAbs : Int) = year := by omega
      have nonzero : ((year.natAbs : Int) != 0) = true := by
        simp only [bne_iff_ne]
        omega
      have minus : (if year < 0 then "-" else "+").toList = ['-'] := by
        rw [if_pos before]
        rfl
      rw [minus, List.singleton_append, tokens (by decide)]
      simp only [strictly, nonzero, signed]
      rfl
    · have signed : (year.natAbs : Int) = year := by omega
      have plus : (if year < 0 then "-" else "+").toList = ['+'] := by
        rw [if_neg (by omega)]
        rfl
      rw [plus, List.singleton_append, tokens (by decide)]
      simp only [strictly, signed]
      rfl

/-- What is found in a date and a time of the international form. -/
def Clock.draft (c : Clock) : Draft where
  day := [c.date.year, c.date.month, c.date.day]
  international := true
  time := [c.hour, c.minute, c.second, c.millisecond]
  zoneSign := some 1
  zoneHour := some 0
  zoneMinute := some 0

theorem strictYear_tokens {c : Clock} (valid : c.Valid) :
    strictYear { day := [c.date.year] } (tokensBehindYear c) = .complete c.draft := by
  obtain ⟨hour, minute, second, millisecond, month, day, _⟩ := valid
  have date : Draft.isMonth c.date.month = true ∧ Draft.isDay c.date.day = true := by
    simp [Draft.isMonth, Draft.isDay, month, day]
  have late : ((c.hour : Int) == 24) = false := by
    rw [beq_eq_false_iff_ne]
    omega
  have clock : ¬ (24 < (c.hour : Int)) ∧ ¬ (60 ≤ (c.minute : Int)) ∧ ¬ (60 ≤ (c.second : Int)) := by
    omega
  simp [tokensBehindYear, strictYear, date, strictRest, strictTime, clock, late, strictZone,
    Draft.setZone, milliseconds, Clock.draft]

theorem instant_draft {c : Clock} (valid : c.Valid) :
    c.draft.instant = .ofMilliseconds (daysOf c.date * dayLength
      + (((c.hour * 60 + c.minute) * 60 + c.second) * 1000 + c.millisecond)) := by
  obtain ⟨hour, minute, second, millisecond, month, day, _⟩ := valid
  have date : c.draft.date? = some c.date := by
    simp [Clock.draft, Draft.date?, Draft.isMonth, Draft.isDay, month, day]
  have time : c.draft.time? =
      some (((c.hour * 60 + c.minute) * 60 + c.second) * 1000 + c.millisecond) := by
    simp [Clock.draft, Draft.time?, Draft.isMinute]
    omega
  have offset : c.draft.offset? = some 0 := rfl
  rw [Draft.instant, date, time, offset]
  simp

section
variable (n : Int)

theorem clockOf_rest : (n - n.fdiv dayLength * dayLength).toNat = n % 86400000 := by
  rw [Int.fdiv_eq_ediv_of_nonneg _ (by decide), dayLength]
  omega

theorem valid_clockOf (near : n.natAbs ≤ farthest.natAbs) : (clockOf n).Valid := by
  have rest := clockOf_rest n
  have far : farthest.natAbs = 8640000000000000 := rfl
  have days : (n.fdiv dayLength).natAbs ≤ 100000000 := by
    rw [Int.fdiv_eq_ediv_of_nonneg _ (by decide), dayLength]
    omega
  obtain ⟨year, month, day⟩ := dateOf_bounds days
  refine ⟨?_, ?_, ?_, ?_, month, day, year⟩ <;> simp only [clockOf] <;> omega

theorem milliseconds_clockOf :
    daysOf (clockOf n).date * dayLength + ((((clockOf n).hour * 60 + (clockOf n).minute) * 60
      + (clockOf n).second) * 1000 + (clockOf n).millisecond) = n := by
  have rest := clockOf_rest n
  have days : n.fdiv dayLength * dayLength = n - n % 86400000 := by
    rw [Int.fdiv_eq_ediv_of_nonneg _ (by decide), dayLength]
    omega
  simp only [clockOf, daysOf_dateOf, days] at rest ⊢
  omega

end

theorem toNat_padded {width n : Nat} : ∀ c ∈ (padded width n).toList, c.toNat ≠ 0 := by
  intro c member zero
  have decimal := isDigit_of_mem_padded member
  rw [← Char.ofNat_toNat c, zero] at decimal
  cases decimal

theorem toNat_yearText (year : Int) : ∀ c ∈ (yearText year).toList, c.toNat ≠ 0 := by
  have sign : (if year < 0 then "-" else "+").toList = [if year < 0 then '-' else '+'] := by
    split <;> rfl
  unfold yearText
  split
  · exact toNat_padded
  · rw [String.toList_append, sign, List.singleton_append, List.forall_mem_cons]
    exact ⟨by split <;> decide, toNat_padded⟩

theorem le_length_padded (width n : Nat) : width ≤ (padded width n).toList.length := by
  rw [toList_padded, List.length_append, List.length_replicate]
  omega

theorem le_length_behindYear (c : Clock) : 15 ≤ (behindYear c).length := by
  have two := le_length_padded 2
  have month := two c.date.month.natAbs
  have day := two c.date.day.natAbs
  have hour := two c.hour
  have minute := two c.minute
  simp only [behindYear, List.length_cons, List.length_append]
  omega

/-- No character of a written time ends the text. -/
theorem toNat_behindYear (c : Clock) : ∀ d ∈ behindYear c, d.toNat ≠ 0 := by
  simp only [behindYear, List.forall_mem_cons, List.forall_mem_append]
  exact ⟨by decide, toNat_padded, by decide, toNat_padded, by decide, toNat_padded, by decide,
    toNat_padded, by decide, toNat_padded, by decide, toNat_padded, by decide, by simp⟩

end Calendar

namespace Instant
open Calendar

/-- A moment is read back from the text that it is written as. -/
theorem ofText_isoText? {n : Int} {text : String} (near : n.natAbs ≤ farthest.natAbs)
    (written : isoText? (.moment n) = some text) : ofText text = .moment n := by
  have valid := valid_clockOf n near
  have chars : text.toList = (yearText (clockOf n).date.year).toList ++ behindYear (clockOf n) := by
    rw [← Option.some.inj written]
    simp [behindYear, dateText, timeText]
  have whole : text.toList.takeWhile (·.toNat != 0) = text.toList :=
    List.takeWhile_eq_self_iff.mpr fun d member =>
      bne_iff_ne.mpr ((List.mem_append.mp (chars ▸ member)).elim (toNat_yearText _ d)
        (toNat_behindYear _ d))
  obtain ⟨fuel, length⟩ : ∃ fuel, text.toList.length = fuel + 13 + 2 := by
    have long := le_length_behindYear (clockOf n)
    have whole := congrArg List.length chars
    rw [List.length_append] at whole
    exact ⟨text.toList.length - 15, by omega⟩
  obtain ⟨more, enough, read⟩ := @strictly_yearText _ valid.year (fuel + 13)
    (behindYear (clockOf n)) (by simp [behindYear])
  obtain ⟨more, rfl⟩ : ∃ k, more = k + 13 := ⟨more - 13, by omega⟩
  rw [ofText, tokens, whole, length, chars, read, tokensWithin_behindYear valid,
    strictYear_tokens valid]
  dsimp only
  rw [instant_draft valid, milliseconds_clockOf, ofMilliseconds, if_pos near]

end Instant
end ProgramGym
