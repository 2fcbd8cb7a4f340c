import Mathlib
import ProgramGym.Proofs.Decimal.Conversion
import ProgramGym.Proofs.Decimal.Integers
import ProgramGym.Proofs.Decimal.Reading
import ProgramGym.Proofs.Decimal.Values

/-! Numerals in options. They may have blanks around them, a sign, a point with digits missing on
one side of it, an exponent, or else a base in front. Main statements: a text that is read as a
finite number and is not blank denotes a magnitude with a sign, has a digit, and gives the number
that it rounds to; and a count is read from its own digits. -/
namespace ProgramGym

namespace Text

/-- What is left without the blanks at both ends. -/
theorem exists_trimChars (cs : List Char) : ∃ front back, cs = front ++ trimChars cs ++ back ∧
    (∀ c ∈ front, isBlank c = true) ∧ ∀ c ∈ back, isBlank c = true := by
  have ends : (cs.dropWhile isBlank).rdropWhile isBlank = trimChars cs := rfl
  refine ⟨cs.takeWhile isBlank, (cs.dropWhile isBlank).rtakeWhile isBlank, ?_,
    fun c => List.mem_takeWhile_imp, fun c => List.mem_rtakeWhile_imp⟩
  rw [List.append_assoc, ← ends, List.rdropWhile_append_rtakeWhile,
    List.takeWhile_append_dropWhile]

theorem mem_of_mem_trimChars {cs : List Char} {c : Char} (inside : c ∈ trimChars cs) : c ∈ cs := by
  obtain ⟨front, back, split, _⟩ := exists_trimChars cs
  rw [split]
  simp [inside]

theorem trimChars_eq_nil_iff {cs : List Char} :
    trimChars cs = [] ↔ ∀ c ∈ cs, isBlank c = true := by
  constructor
  · intro empty
    obtain ⟨front, back, split, before, behind⟩ := exists_trimChars cs
    rw [split, empty]
    simpa [or_imp, forall_and] using ⟨before, behind⟩
  · intro blank
    rw [trimChars, List.dropWhile_eq_nil_iff.mpr blank]
    rfl

theorem trimChars_eq_self {cs : List Char} (plain : ∀ c ∈ cs, isBlank c = false) :
    trimChars cs = cs := by
  have stays (cs : List Char) (plain : ∀ c ∈ cs, isBlank c = false) :
      cs.dropWhile isBlank = cs := by
    cases cs with
    | nil => rfl
    | cons c cs => simp [plain c (List.mem_cons_self ..)]
  rw [trimChars, stays cs plain, stays cs.reverse (by simpa using plain), List.reverse_reverse]

end Text

namespace Numeral

/-- A sign, which may be left out. -/
inductive SignOf : List Char → Bool → Prop where
  | none : SignOf [] false
  | plus : SignOf ['+'] false
  | minus : SignOf ['-'] true

/-- A point with the digits behind it, which may be left out. -/
inductive FractionOf : List Char → List Char → Prop where
  | none : FractionOf [] []
  | point {digits : List Char} (all : ∀ d ∈ digits, isDigit d = true) :
      FractionOf ('.' :: digits) digits

/-- A power of ten, which may be left out. -/
inductive PowerOf : List Char → Int → Prop where
  | none : PowerOf [] 0
  | power {c : Char} {front spelled : List Char} {negative : Bool} (letter : c = 'e' ∨ c = 'E')
      (sign : SignOf front negative) (digits : Digits spelled) :
      PowerOf (c :: (front ++ spelled)) (signed negative (decimalValue spelled : Int))

/-- The characters denote a magnitude with a sign. -/
inductive Denotes : List Char → Bool → ℚ → Prop where
  | decimal {front whole point fraction power : List Char} {negative : Bool} {e : Int}
      (sign : SignOf front negative) (digits : ∀ d ∈ whole, isDigit d = true)
      (behind : FractionOf point fraction) (some : whole ++ fraction ≠ [])
      (exponent : PowerOf power e) :
      Denotes (front ++ (whole ++ (point ++ power))) negative
        (decimalValue (whole ++ fraction) * 10 ^ (e - fraction.length))
  | inBase {c : Char} {base : Nat} {digits : List Char} {values : List Nat}
      (announced : baseOf? c = some base) (some : digits ≠ [])
      (spelled : digits.map (digitInBase? base) = values.map Option.some) :
      Denotes ('0' :: c :: digits) false (Nat.ofDigits base values.reverse : Nat)

section
variable {cs rest digits : List Char} {negative : Bool} {e : Int} {n : Numeral} {v : ℚ}

theorem FractionOf.digit_of_mem {point fraction : List Char} (behind : FractionOf point fraction) :
    ∀ d ∈ fraction, d ∈ point ∧ isDigit d = true := by
  cases behind with
  | none => simp
  | point all => exact fun d inside => ⟨List.mem_cons_of_mem _ inside, all d inside⟩

/-- What denotes a magnitude has a decimal digit. -/
theorem Denotes.exists_digit (denotes : Denotes cs negative v) : ∃ c ∈ cs, isDigit c = true := by
  cases denotes with
  | @decimal front whole point fraction power _ e sign digits behind some exponent =>
    obtain ⟨d, inside⟩ := List.exists_mem_of_ne_nil _ some
    rcases List.mem_append.mp inside with inside | inside
    · exact ⟨d, by simp [inside], digits d inside⟩
    · exact ⟨d, by simp [(behind.digit_of_mem d inside).1], (behind.digit_of_mem d inside).2⟩
  | inBase => exact ⟨'0', by simp, by decide⟩

theorem sign_sound (read : sign cs = (negative, rest)) :
    ∃ front, SignOf front negative ∧ cs = front ++ rest := by
  unfold sign at read
  split at read
  · obtain ⟨rfl, rfl⟩ := Prod.mk.inj read
    exact ⟨['-'], .minus, rfl⟩
  · obtain ⟨rfl, rfl⟩ := Prod.mk.inj read
    exact ⟨['+'], .plus, rfl⟩
  · obtain ⟨rfl, rfl⟩ := Prod.mk.inj read
    exact ⟨[], .none, rfl⟩

theorem spanDigits_sound (read : spanDigits cs = (digits, rest)) :
    (∀ d ∈ digits, isDigit d = true) ∧ cs = digits ++ rest := by
  rw [spanDigits, List.span_eq_takeWhile_dropWhile] at read
  obtain ⟨rfl, rfl⟩ := Prod.mk.inj read
  exact ⟨fun d => List.mem_takeWhile_imp, List.takeWhile_append_dropWhile.symm⟩

theorem exponent_sound (read : exponent cs = some (e, rest)) :
    ∃ power, PowerOf power e ∧ cs = power ++ rest := by
  unfold exponent at read
  split at read
  · next c after =>
    split at read
    · next letter =>
      split at read
      next negative unsigned front =>
      obtain ⟨front, sign, rfl⟩ := sign_sound front
      split at read
      · cases read
      · next digits behind some span =>
        obtain ⟨all, rfl⟩ := spanDigits_sound span
        obtain ⟨rfl, rfl⟩ := Prod.mk.inj (Option.some.inj read)
        have letter : c = 'e' ∨ c = 'E' := by simpa using letter
        have spelled : Digits digits := ⟨fun none => some none, all⟩
        exact ⟨_, .power letter sign spelled, by simp⟩
    · obtain ⟨rfl, rfl⟩ := Prod.mk.inj (Option.some.inj read)
      exact ⟨[], .none, rfl⟩
  · obtain ⟨rfl, rfl⟩ := Prod.mk.inj (Option.some.inj read)
    exact ⟨[], .none, rfl⟩

/-- What stands behind the whole digits. -/
theorem fraction_sound {fraction : List Char}
    (read : (match cs with | '.' :: rest => spanDigits rest | _ => ([], cs)) = (fraction, rest)) :
    ∃ point, FractionOf point fraction ∧ cs = point ++ rest := by
  split at read
  · obtain ⟨all, rfl⟩ := spanDigits_sound read
    exact ⟨_, .point all, rfl⟩
  · obtain ⟨rfl, rfl⟩ := Prod.mk.inj read
    exact ⟨[], .none, rfl⟩

theorem decimal?_sound (read : decimal? cs = some n) : (∃ negative, n = .infinite negative) ∨
    ∃ negative d, n = .finite negative d ∧ Denotes cs negative d.value := by
  unfold decimal? at read
  -- sign, digits, fraction and exponent, in the order in which they are read
  split at read
  next negative unsigned front =>
  obtain ⟨front, sign, rfl⟩ := sign_sound front
  split at read
  · cases read
    exact .inl ⟨negative, rfl⟩
  split at read
  next whole after span =>
  obtain ⟨all, rfl⟩ := spanDigits_sound span
  split at read
  next fraction behind point =>
  obtain ⟨point, fractional, rfl⟩ := fraction_sound point
  split at read
  · cases read
  · next some =>
    split at read
    · next e power =>
      obtain ⟨power, exponent, rfl⟩ := exponent_sound power
      cases read
      have some : whole ++ fraction ≠ [] := by simpa [not_and_or] using some
      refine .inr ⟨negative, _, rfl, ?_⟩
      simpa [Decimal.value] using Denotes.decimal sign all fractional some exponent
    · cases read

theorem foldlM_digitInBase? {base m k : Nat}
    (read : cs.foldlM (fun n c => (digitInBase? base c).map (base * n + ·)) m = some k) :
    ∃ values : List Nat, cs.map (digitInBase? base) = values.map Option.some ∧
      k = m * base ^ values.length + Nat.ofDigits base values.reverse := by
  induction cs generalizing m with
  | nil =>
    cases read
    exact ⟨[], rfl, by simp⟩
  | cons c cs ih =>
    rw [List.foldlM_cons, Option.bind_eq_bind, Option.bind_eq_some_iff] at read
    obtain ⟨next, first, read⟩ := read
    obtain ⟨v, digit, rfl⟩ := Option.map_eq_some_iff.mp first
    obtain ⟨values, spelled, rfl⟩ := ih read
    refine ⟨v :: values, by simp [digit, spelled], ?_⟩
    rw [List.reverse_cons, Nat.ofDigits_append, List.length_reverse, Nat.ofDigits_singleton,
      List.length_cons, pow_succ]
    ring

theorem wholeInBase?_sound {base k : Nat} (read : wholeInBase? base cs = some k) : cs ≠ [] ∧
    ∃ values : List Nat, cs.map (digitInBase? base) = values.map Option.some ∧
      k = Nat.ofDigits base values.reverse := by
  unfold wholeInBase? at read
  split at read
  · cases read
  · next some =>
    obtain ⟨values, spelled, value⟩ := foldlM_digitInBase? read
    exact ⟨by simpa using some, values, spelled, by simpa using value⟩

/-- A text that is read is blank, or infinite, or it denotes a magnitude. -/
theorem option?_sound {s : String} (read : option? s = some n) :
    (Text.trimChars s.toList = [] ∧ n = ofNat 0) ∨ (∃ negative, n = .infinite negative) ∨
      ∃ negative d, n = .finite negative d ∧
        Denotes (Text.trimChars s.toList) negative d.value := by
  unfold option? at read
  split at read
  · next empty =>
    cases read
    exact .inl ⟨empty, rfl⟩
  · next c rest chars =>
    rw [chars]
    split at read
    · next base announced =>
      obtain ⟨k, whole, rfl⟩ := Option.map_eq_some_iff.mp read
      obtain ⟨some, values, spelled, rfl⟩ := wholeInBase?_sound whole
      refine .inr (.inr ⟨false, _, rfl, ?_⟩)
      simpa [Decimal.value] using Denotes.inBase announced some spelled
    · exact .inr (decimal?_sound read)
  · exact .inr (decimal?_sound read)

theorem not_blank_of_isDigit {c : Char} (digit : isDigit c = true) : Text.isBlank c = false := by
  have range : 48 ≤ c.toNat ∧ c.toNat ≤ 57 := by
    simp only [isDigit, Bool.and_eq_true, decide_eq_true_eq] at digit
    exact digit
  simp only [Text.isBlank, Bool.or_eq_false_iff, Bool.and_eq_false_iff, decide_eq_false_iff_not,
    beq_eq_false_iff_ne]
  omega

theorem decimal?_digits (spelled : Digits digits) :
    decimal? digits = some (.finite false ⟨decimalValue digits, 0⟩) := by
  obtain ⟨d, others, split⟩ := List.exists_cons_of_ne_nil spelled.some
  have digit : isDigit d = true := spelled.all d (by simp [split])
  have unsigned : sign digits = (false, digits) := by
    have minus : d ≠ '-' := digit_ne digit (by decide)
    have plus : d ≠ '+' := digit_ne digit (by decide)
    simp [split, sign, minus, plus]
  have finite : ¬ (digits == "Infinity".toList) = true := by
    have letter : d ≠ 'I' := digit_ne digit (by decide)
    simp [split, letter]
  have whole : spanDigits digits = (digits, []) := by
    have ends : EndsDigits [] := by simp [EndsDigits]
    simpa using spanDigits_append spelled.all ends
  unfold decimal?
  simp only [unsigned, if_neg finite, whole]
  simp [exponent, ofParts, spelled.some]

/-- The digits of a count are read as the count. -/
theorem option?_toString (k : Nat) : option? (toString k) = some (ofNat k) := by
  have digits := digits_toDigits k
  have plain : ∀ c ∈ Nat.toDigits 10 k, Text.isBlank c = false := fun c inside =>
    not_blank_of_isDigit (digits.all c inside)
  have read : decimal? (Nat.toDigits 10 k) = some (ofNat k) := by
    rw [decimal?_digits digits, decimalValue_toDigits]
    rfl
  unfold option?
  rw [toList_toString, Text.trimChars_eq_self plain]
  -- a zero in front of another character would announce a base
  split
  · next empty => exact absurd empty digits.some
  · next c rest long =>
    rcases Nat.eq_zero_or_pos k with rfl | pos
    · cases long
    · exact absurd long (head_toDigits pos _)
  · exact read

end
end Numeral

/-- A decimal that is exactly a natural number. -/
theorem Decimal.value_of_small? {d : Decimal} {k : Nat} (small : d.small? = some k) :
    d.value = k := by
  obtain ⟨c, e⟩ := d
  simp only [small?, beq_iff_eq] at small
  split at small
  · next zero =>
    cases small
    simp [value, zero]
  split at small
  · cases small
  split at small
  · cases small
    simp [value]
  · next e =>
    rw [Option.ite_none_right_eq_some] at small
    obtain ⟨divides, whole⟩ := small
    rw [← Option.some.inj whole, Nat.cast_div (Nat.dvd_of_mod_eq_zero divides) (by simp)]
    simp [value, div_eq_mul_inv]

theorem Decimal.small?_whole {k : Nat} (small : k < 10 ^ 16) :
    small? ⟨k, 0⟩ = some k := by
  have digits := digitCount_pos k
  have few : digitCount k ≤ 16 := (digitCount_le_iff (by decide)).mpr small
  rcases Nat.eq_zero_or_pos k with rfl | pos
  · rfl
  · have zero : ¬ (k == 0) = true := by simpa using pos.ne'
    have inside : ¬ (Int.ofNat (digitCount k) + 0 ≤ 0 || 16 < Int.ofNat (digitCount k) + 0) =
        true := by
      simp
      omega
    simp only [small?, if_neg zero, if_neg inside]
    exact congrArg some (Nat.mul_one k)

namespace Quantity
open Binary64
variable {x : Float} {n : Nat}

theorem ofFloat_ofNat (whole : Number.toNat? x = some n) :
    ofFloat (Float.ofNat n) = ofFloat x := by
  have count := toNat?_ofNat_toNat? whole
  rw [ofFloat_eq, ofFloat_eq]
  rcases Nat.eq_zero_or_pos n with rfl | pos
  · rw [unpack_of_toNat?_zero count, unpack_of_toNat?_zero whole]
  · obtain ⟨m₁, e₁, canonical₁, unpacked₁, value₁⟩ := unpack_of_toNat? count pos
    obtain ⟨m₂, e₂, canonical₂, unpacked₂, value₂⟩ := unpack_of_toNat? whole pos
    have same := canonical₁.compare_eq canonical₂
    rw [← value₁, ← value₂, compare_eq_iff_eq.mpr rfl, Ordering.then_eq_eq] at same
    obtain ⟨exponent, mantissa⟩ := same
    obtain rfl := Int.compare_eq_eq.mp exponent
    obtain rfl := Nat.compare_eq_eq.mp mantissa
    rw [unpacked₁, unpacked₂]

/-- A number that is taken as a count stays the number it is. -/
theorem ofFloat_ofScalar (x : Float) : ofFloat (ofScalar x).toScalar = ofFloat x := by
  unfold ofScalar
  split
  · next n whole => exact ofFloat_ofNat whole
  · rfl

theorem roundsTo_of_toNat? (whole : Number.toNat? x = some n) :
    RoundsTo false n (ofFloat x) := by
  rw [ofFloat_eq]
  rcases Nat.eq_zero_or_pos n with rfl | pos
  · rw [unpack_of_toNat?_zero whole]
    exact .zero (by rw [Nat.cast_zero]; positivity)
  · obtain ⟨m, e, canonical, unpacked, value⟩ := unpack_of_toNat? whole pos
    rw [unpacked, value]
    exact .finite canonical (nearest_self m e)

theorem exactly_of_toNat? (whole : Number.toNat? x = some n) : Number.Exactly x (n : ℤ) := by
  rw [Number.toNat?] at whole
  cases pattern : ofFloat x with
  | notANumber | infinite =>
    rw [pattern] at whole
    cases whole
  | finite negative m e =>
    rw [pattern] at whole
    cases negative with
    | true => cases whole
    | false => exact ⟨false, m, e, pattern, by exact_mod_cast toNat?_eq_some.mp whole⟩

theorem unpack_zero_of_ofFloat {negative : Bool} {e : Int}
    (pattern : ofFloat x = .finite negative 0 e) : ∃ s, x.toModel.unpack = .zero s := by
  rw [ofFloat_eq] at pattern
  cases unpacked : x.toModel.unpack with
  | notANumber | infinity =>
    rw [unpacked] at pattern
    cases pattern
  | zero s => exact ⟨s, rfl⟩
  | finite s m e pos =>
    rw [unpacked] at pattern
    cases pattern
    exact absurd pos (Nat.lt_irrefl 0)

/-- A number is below a count if the integer that it is exactly is. -/
theorem lt_ofNat {z : ℤ} (small : n ≤ exactBound) (exact : Number.Exactly x z) (below : z < n) :
    x < Float.ofNat n := by
  have bound : Worth (Float.ofNat n) n := worth_of_toNat? (toNat?_ofNat_le small)
  have below : (z : ℚ) < n := by exact_mod_cast below
  obtain ⟨negative, m, e, pattern, value⟩ := exact
  rcases Nat.eq_zero_or_pos m with rfl | pos
  · obtain ⟨s, unpacked⟩ := unpack_zero_of_ofFloat pattern
    have zero : (z : ℚ) = 0 := by
      rw [value]
      cases negative <;> simp [signed]
    exact (Worth.lt_iff (.zero s unpacked) bound).mpr (zero ▸ below)
  · obtain ⟨canonical, s, sign, unpacked⟩ := unpack_of_ofFloat pattern pos
    -- above zero both are worth what they are, below zero the signs decide
    cases s with
    | positive =>
      obtain rfl : negative = false := sign.symm
      rw [value] at below
      exact (Worth.lt_iff (.finite canonical unpacked) bound).mpr below
    | negative =>
      rw [lt_iff_compare, unpacked]
      generalize (n : ℚ) = w at bound
      cases bound with
      | zero _ here | finite _ here =>
        rw [here]
        rfl

/-- A numeral is read as the number it rounds to. -/
theorem roundsTo_ofNumeral (d : Decimal) (negative : Bool) :
    RoundsTo negative d.value (ofFloat (ofNumeral (.finite negative d)).toScalar) := by
  have general : RoundsTo negative d.value
      (ofFloat (ofScalar (Numeral.finite negative d).toFloat : Quantity Float).toScalar) := by
    rw [ofFloat_ofScalar]
    exact Decimal.roundsTo_toFloat d negative
  unfold ofNumeral
  dsimp only
  split
  · next k exact =>
    split
    · next small =>
      cases negative with
      | true => cases exact
      | false =>
        rw [Decimal.value_of_small? exact]
        exact roundsTo_of_toNat? (toNat?_ofNat_le small)
    · exact general
  · exact general

/-- A count within the bound is read as the count that it is. -/
theorem ofNumeral_ofNat (small : n ≤ exactBound) : ofNumeral (.ofNat n) = .count n := by
  have exact : (⟨n, 0⟩ : Decimal).small? = some n :=
    Decimal.small?_whole (small.trans_lt (by decide))
  simp only [ofNumeral, Numeral.ofNat, exact, small, if_true]

theorem toNat?_of_canonical (canonical : Canonical (.count n)) :
    Number.toNat? (Float.ofNat n) = some n := by
  have read : ofScalar (Float.ofNat n) = .count n := canonical
  unfold ofScalar at read
  split at read
  · next whole =>
    cases read
    exact whole
  · cases read

theorem canonical_ofNumeral (n : Numeral) : Canonical (ofNumeral n) := by
  unfold ofNumeral
  dsimp only
  split
  · split
    · next small => exact canonical_count small
    · exact canonical_ofScalar _
  · exact canonical_ofScalar _

end Quantity
end ProgramGym
