import Mathlib
import ProgramGym.Decimal.Notation
import ProgramGym.Decimal.Numeral
import ProgramGym.Proofs.Decimal.Shortest

/-! Written numbers as numerals. Every layout of the digits, in full, with a point or with an
exponent, is a numeral that JSON allows, and what stands behind it does not matter as long as it
does not go on with it. Main statement: the text of a finite number is read as one numeral, and
what that stands for is the decimal that was written. -/
namespace ProgramGym

namespace Numeral

/-- Characters that do not go on with a numeral. -/
def Ends (rest : List Char) : Prop :=
  ∀ c ∈ rest.head?, isDigit c = false ∧ c ≠ '.' ∧ c ≠ 'e' ∧ c ≠ 'E'

def EndsDigits (rest : List Char) : Prop := ∀ c ∈ rest.head?, isDigit c = false

/-- One or more digits. -/
structure Digits (digits : List Char) : Prop where
  some : digits ≠ []
  all : ∀ d ∈ digits, isDigit d = true

/-- Digits in front of a point: no zero stands before another digit. -/
structure Whole (digits : List Char) : Prop extends Digits digits where
  lead : ∀ d rest, digits ≠ '0' :: d :: rest

def signChars (negative : Bool) : List Char := if negative then ['-'] else []

/-- The characters are a numeral, whatever follows. -/
def ReadsAs (cs : List Char) (n : Numeral) : Prop :=
  ∀ rest, Ends rest → json? (cs ++ rest) = some (n, rest)

/-- The characters are one numeral. -/
def Reads (cs : List Char) : Prop :=
  ∃ n, ∀ rest, Ends rest → json? (cs ++ rest) = some (n, rest)

theorem Ends.digits {rest : List Char} (ends : Ends rest) : EndsDigits rest :=
  fun c first => (ends c first).1

section
variable {whole fraction rest tail : List Char} {negative : Bool} {e : Int}

theorem endsDigits_cons {c : Char} (digit : isDigit c = false) : EndsDigits (c :: rest) := by
  rintro _ ⟨⟩
  exact digit

theorem spanDigits_append (digits : ∀ d ∈ whole, isDigit d = true) (ends : EndsDigits rest) :
    spanDigits (whole ++ rest) = (whole, rest) := by
  rw [spanDigits, List.span_eq_takeWhile_dropWhile, List.takeWhile_append_of_pos digits,
    List.dropWhile_append_of_pos digits]
  cases rest with
  | nil => simp
  | cons c rest =>
    have other : isDigit c = false := ends c rfl
    simp [other]

theorem exponent_ends (ends : Ends rest) : exponent rest = some (0, rest) := by
  cases rest with
  | nil => rfl
  | cons c rest =>
    obtain ⟨_, _, lower, upper⟩ := ends c rfl
    simp [exponent, lower, upper]

theorem digit_ne {c d : Char} (digit : isDigit c = true) (other : isDigit d = false) : c ≠ d := by
  rintro rfl
  cases digit.symm.trans other

/-- The sign in front is read apart from what follows it. -/
theorem json?_sign (negative : Bool) (digits : Digits whole) (rest : List Char) :
    (match signChars negative ++ (whole ++ rest) with
      | '-' :: rest => (true, rest)
      | _ => (false, signChars negative ++ (whole ++ rest))) = (negative, whole ++ rest) := by
  obtain ⟨d, ds, rfl⟩ := List.exists_cons_of_ne_nil digits.some
  have unsigned : d ≠ '-' := digit_ne (digits.all d (List.mem_cons_self ..)) (by decide)
  cases negative <;> simp [signChars, unsigned]

/-- Digits without a point, up to an exponent or the end. -/
theorem json?_whole (digits : Whole whole) (ends : EndsDigits rest) (point : rest.head? ≠ some '.')
    (read : exponent rest = some (e, tail)) :
    json? (signChars negative ++ (whole ++ rest)) = some (ofParts negative whole [] e, tail) := by
  unfold json?
  split
  next front =>
  obtain ⟨rfl, rfl⟩ := Prod.mk.inj (front.symm.trans (json?_sign negative digits.toDigits _))
  rw [spanDigits_append digits.all ends]
  split
  · next same => exact absurd (Prod.mk.inj same).1 digits.some
  · next same => exact absurd (Prod.mk.inj same).1 (digits.lead _ _)
  · next same =>
    rw [(Prod.mk.inj same).2] at point
    exact absurd rfl point
  · next same =>
    obtain ⟨rfl, rfl⟩ := Prod.mk.inj same
    rw [read]
    rfl

theorem json?_point (digits : Whole whole) (more : Digits fraction) (ends : EndsDigits rest)
    (read : exponent rest = some (e, tail)) :
    json? (signChars negative ++ (whole ++ '.' :: (fraction ++ rest))) =
      some (ofParts negative whole fraction e, tail) := by
  unfold json?
  split
  next front =>
  obtain ⟨rfl, rfl⟩ := Prod.mk.inj (front.symm.trans (json?_sign negative digits.toDigits _))
  rw [spanDigits_append digits.all (endsDigits_cons (by decide))]
  split
  · next same => exact absurd (Prod.mk.inj same).1 digits.some
  · next same => exact absurd (Prod.mk.inj same).1 (digits.lead _ _)
  · next same =>
    obtain ⟨rfl, behind⟩ := Prod.mk.inj same
    obtain ⟨_, rfl⟩ := List.cons.inj behind
    rw [spanDigits_append more.all ends]
    split
    · next same => exact absurd (Prod.mk.inj same).1 more.some
    · next same =>
      obtain ⟨rfl, rfl⟩ := Prod.mk.inj same
      rw [read]
      rfl
  · next other same =>
    obtain ⟨rfl, rfl⟩ := Prod.mk.inj same
    exact absurd rfl (other _)

theorem isDigit_of_mem_toDigits {n : Nat} {c : Char} (digit : c ∈ Nat.toDigits 10 n) :
    isDigit c = true := by
  have decimal : c.isDigit = true := Nat.isDigit_of_mem_toDigits (by decide) (by decide) digit
  simpa [isDigit, Char.isDigit, Char.le_def] using decimal

theorem digits_toDigits (n : Nat) : Digits (Nat.toDigits 10 n) :=
  ⟨Nat.toDigits_ne_nil, fun _ => isDigit_of_mem_toDigits⟩

theorem toList_toString (n : Nat) : (toString n).toList = Nat.toDigits 10 n := by
  rw [Nat.toString_eq_ofList_toDigits, String.toList_ofList]

theorem sign_front (negative : Bool) (cs : List Char) :
    sign ((if negative then '-' else '+') :: cs) = (negative, cs) := by
  cases negative <;> rfl

theorem foldl_digitValue (ds : List Char) (n : Nat) :
    ds.foldl (fun n c => 10 * n + digitValue c) n = n * 10 ^ ds.length + decimalValue ds := by
  induction ds generalizing n with
  | nil => simp [decimalValue]
  | cons d ds ih =>
    rw [decimalValue, List.foldl_cons, List.foldl_cons, ih, ih (10 * 0 + digitValue d),
      List.length_cons, pow_succ]
    ring

theorem decimalValue_append (first second : List Char) :
    decimalValue (first ++ second) =
      decimalValue first * 10 ^ second.length + decimalValue second := by
  rw [decimalValue, List.foldl_append]
  exact foldl_digitValue second (decimalValue first)

theorem decimalValue_zeros (n : Nat) : decimalValue (Notation.zeros n) = 0 := by
  induction n with
  | zero => rfl
  | succ n ih =>
    rw [Notation.zeros, List.replicate_succ, ← List.singleton_append, decimalValue_append]
    change decimalValue ['0'] * _ + decimalValue (Notation.zeros n) = 0
    rw [ih]
    simp [decimalValue, digitValue]

theorem decimalValue_toDigits (n : Nat) : decimalValue (Nat.toDigits 10 n) = n := by
  have ofDigits (ds : List Char) (n : Nat) :
      ds.foldl (fun n c => 10 * n + digitValue c) n = Nat.ofDigitChars 10 ds n := by
    induction ds generalizing n with
    | nil => rfl
    | cons d ds ih =>
      rw [Nat.ofDigitChars, List.foldl_cons, List.foldl_cons, ← Nat.ofDigitChars, ← ih]
      rfl
  rw [decimalValue, ofDigits, Nat.ofDigitChars_ten_toDigits]

/-- An exponent as it is written. -/
theorem exponent_chars (power : Int) (ends : EndsDigits rest) :
    exponent (Notation.exponentChars power ++ rest) = some (power, rest) := by
  have digits := digits_toDigits power.natAbs
  have front := sign_front (decide (power < 0)) (Nat.toDigits 10 power.natAbs ++ rest)
  simp only [decide_eq_true_eq] at front
  rw [Notation.exponentChars, toList_toString, List.cons_append, List.cons_append, exponent,
    if_pos (by decide), front]
  dsimp only
  rw [spanDigits_append digits.all ends]
  split
  · next same => exact absurd (Prod.mk.inj same).1 digits.some
  · next same =>
    obtain ⟨rfl, rfl⟩ := Prod.mk.inj same
    have signed : (if power < 0 then -Int.ofNat power.natAbs else Int.ofNat power.natAbs) = power := by
      simp only [Int.ofNat_eq_natCast]
      split <;> omega
    simp only [decimalValue_toDigits, decide_eq_true_eq, signed]

/-- A count above zero starts with another digit than zero. -/
theorem head_toDigits {n : Nat} (pos : 0 < n) (ds : List Char) : Nat.toDigits 10 n ≠ '0' :: ds := by
  induction n using Nat.strongRecOn generalizing ds with
  | ind n ih =>
    rw [Nat.toDigits_eq_if (by decide)]
    split
    · next single =>
      intro zero
      have digit : Nat.digitChar n = '0' := (List.cons.inj zero).1
      rw [Nat.digitChar_eq_zero] at digit
      omega
    · next more =>
      have above : 0 < n / 10 := by omega
      obtain ⟨d, front, spelled⟩ := List.exists_cons_of_ne_nil (digits_toDigits (n / 10)).some
      intro zero
      rw [spelled, List.cons_append] at zero
      exact ih (n / 10) (by omega) above front (by rw [spelled, (List.cons.inj zero).1])

theorem digits_append {first second : List Char} (digits : Digits first)
    (more : ∀ d ∈ second, isDigit d = true) : Digits (first ++ second) where
  some := by simp [digits.some]
  all d inside := (List.mem_append.mp inside).elim (digits.all d) (more d)

theorem isDigit_zeros {n : Nat} {d : Char} (inside : d ∈ Notation.zeros n) : isDigit d = true := by
  rw [List.eq_of_mem_replicate inside]
  decide

theorem whole_single {d : Char} (digit : isDigit d = true) : Whole [d] where
  some := by simp
  all c inside := by rwa [List.mem_singleton.mp inside]
  lead _ _ := by simp

/-- The characters behind the digits of a numeral: a given exponent, or none where it is zero. -/
def Raises (cs : List Char) (e : Int) : Prop :=
  ∀ rest, Ends rest → EndsDigits (cs ++ rest) ∧ (cs ++ rest).head? ≠ some '.' ∧
    exponent (cs ++ rest) = some (e, rest)

theorem raises_nil : Raises [] 0 := fun _ ends =>
  ⟨ends.digits, fun point => (ends '.' point).2.1 rfl, exponent_ends ends⟩

theorem raises_exponentChars (power : Int) : Raises (Notation.exponentChars power) power :=
  fun _ ends => ⟨endsDigits_cons (by decide), by simp [Notation.exponentChars],
    exponent_chars power ends.digits⟩

theorem readsAs_whole (digits : Whole whole) (power : Raises tail e) (negative : Bool) :
    ReadsAs (signChars negative ++ (whole ++ tail)) (ofParts negative whole [] e) := by
  intro rest ends
  obtain ⟨stops, point, exponent⟩ := power rest ends
  rw [List.append_assoc, List.append_assoc]
  exact json?_whole digits stops point exponent

theorem readsAs_point (digits : Whole whole) (more : Digits fraction) (power : Raises tail e)
    (negative : Bool) : ReadsAs (signChars negative ++ (whole ++ '.' :: (fraction ++ tail)))
      (ofParts negative whole fraction e) := by
  intro rest ends
  obtain ⟨stops, _, exponent⟩ := power rest ends
  rw [List.append_assoc, List.append_assoc, List.cons_append, List.append_assoc]
  exact json?_point digits more stops exponent

theorem digits_of_subset {part : List Char} (digits : Digits whole) (some : part ≠ [])
    (inside : ∀ d ∈ part, d ∈ whole) : Digits part :=
  ⟨some, fun d member => digits.all d (inside d member)⟩

/-- The numeral stands for the digits, moved by a power of ten. -/
def Shifts (n : Numeral) (negative : Bool) (digits : List Char) (power : Int) : Prop :=
  ∃ d : Decimal, n = .finite negative d ∧ d.value = decimalValue digits * 10 ^ power

theorem shifts_ofParts (zeros : List Char) {digits : List Char} {power : Int} (none : decimalValue zeros = 0)
    (parts : whole ++ fraction = zeros ++ digits) (place : e - fraction.length = power) :
    Shifts (ofParts negative whole fraction e) negative digits power := by
  refine ⟨_, rfl, ?_⟩
  rw [Decimal.value, parts, decimalValue_append, none, Nat.zero_mul, Nat.zero_add,
    Int.ofNat_eq_natCast, place]

theorem shifts_padded {digits : List Char} {n : Nat} :
    Shifts (ofParts negative (digits ++ Notation.zeros n) [] 0) negative digits n := by
  refine ⟨_, rfl, ?_⟩
  rw [Decimal.value, List.append_nil, decimalValue_append, decimalValue_zeros,
    Notation.zeros, List.length_replicate]
  simp

/-- Every layout of digits is one numeral, and its point says how far the digits are moved. -/
theorem readsAs_layout (form : Notation) (digits : Digits whole) (lead : ∀ ds, whole ≠ '0' :: ds)
    (point : Int) (negative : Bool) :
    ∃ n, ReadsAs (signChars negative ++ form.layoutChars whole point) n ∧
      Shifts n negative whole (point - whole.length) := by
  obtain ⟨first, others, rfl⟩ := List.exists_cons_of_ne_nil digits.some
  have nonzero : first ≠ '0' := fun zero => lead others (by rw [zero])
  have start (more : List Char) (inside : ∀ d ∈ more, d ∈ others) : Whole (first :: more) := by
    refine ⟨digits_of_subset digits (by simp) fun d member => ?_, by simp [nonzero]⟩
    exact (List.mem_cons.mp member).elim (fun same => same ▸ List.mem_cons_self)
      fun member => List.mem_cons_of_mem _ (inside d member)
  have among {part : List Char} (some : part ≠ []) (inside : ∀ d ∈ part, d ∈ others) :
      Digits part :=
    digits_of_subset digits some fun d member => List.mem_cons_of_mem _ (inside d member)
  -- a whole number, a point among the digits, one before them, or an exponent
  unfold Notation.layoutChars
  dsimp only
  split
  · next full =>
    simp only [Bool.and_eq_true, decide_eq_true_eq, Int.ofNat_eq_natCast] at full
    have padded (n : Nat) : Whole (first :: others ++ Notation.zeros n) :=
      ⟨digits_append digits fun _ => isDigit_zeros, by simp [nonzero]⟩
    obtain ⟨n, count⟩ : ∃ n : Nat, n = (point - Int.ofNat (first :: others).length).toNat := ⟨_, rfl⟩
    have place : point - ((first :: others).length : Int) = n := by
      rw [count, Int.ofNat_eq_natCast]
      omega
    rw [← count, place]
    exact ⟨_, by simpa using readsAs_whole (padded n) raises_nil negative, shifts_padded⟩
  split
  · next short inside =>
    simp only [Bool.and_eq_true, decide_eq_true_eq, Int.ofNat_eq_natCast,
      List.length_cons] at short inside
    obtain ⟨k, place⟩ : ∃ k, point.toNat = k + 1 := ⟨point.toNat - 1, by omega⟩
    have integer := start (others.take k) fun _ => List.mem_of_mem_take
    have fraction : Digits (others.drop k) := by
      refine among ?_ fun _ => List.mem_of_mem_drop
      simp only [ne_eq, List.drop_eq_nil_iff]
      omega
    rw [place]
    refine ⟨_, by simpa using readsAs_point integer fraction raises_nil negative, ?_⟩
    refine shifts_ofParts [] rfl (by simp) ?_
    simp only [List.length_drop, List.length_cons]
    omega
  split
  · next _ before =>
    simp only [Bool.and_eq_true, decide_eq_true_eq] at before
    have zero : Whole ['0'] := whole_single (by decide)
    have fraction : Digits (Notation.zeros (-point).toNat ++ first :: others) :=
      ⟨by simp, fun d member => (List.mem_append.mp member).elim isDigit_zeros (digits.all d)⟩
    refine ⟨_, by simpa using readsAs_point zero fraction raises_nil negative, ?_⟩
    refine shifts_ofParts ('0' :: Notation.zeros (-point).toNat) ?_ (by simp) ?_
    · exact decimalValue_zeros ((-point).toNat + 1)
    · simp only [List.length_append, Notation.zeros, List.length_replicate, List.length_cons]
      omega
  have single := start [] (by simp)
  have power := raises_exponentChars (point - 1)
  split
  · next empty => cases empty
  · next d same =>
    cases same
    refine ⟨_, by simpa using readsAs_whole single power negative, ?_⟩
    refine shifts_ofParts [] rfl (by simp) ?_
    simp
  · next d rest more same =>
    cases same
    have fraction : Digits others := among more fun _ => id
    refine ⟨_, by simpa using readsAs_point single fraction power negative, ?_⟩
    refine shifts_ofParts [] rfl (by simp) ?_
    simp only [List.length_cons]
    omega

end
end Numeral

namespace Decimal
open Binary64 (Magnitude)

/-- A grid point that reads back as a number above zero is above zero. -/
theorem gridPoint?_pos {low value high denominator c : Nat} {closed : Bool} (pos : 0 < low)
    (found : gridPoint? low value high closed denominator = some c) : 0 < c := by
  refine Nat.pos_of_ne_zero fun zero => ?_
  have inside := within_of_gridPoint? found
  rw [zero, Nat.zero_mul, within] at inside
  cases closed
  · simp at inside
  · simp at inside
    omega

theorem scale_pos {unit : Magnitude} (pos : 0 < unit.numerator) (power : Int) :
    0 < (scale unit power).numerator := by
  cases power with
  | ofNat p => exact pos
  | negSucc p => exact Nat.mul_pos pos (Nat.pow_pos (by decide))

theorem stripZeros_pos {d : Decimal} (pos : 0 < d.coefficient) (fuel : Nat) :
    0 < (stripZeros fuel d).coefficient := by
  induction fuel generalizing d with
  | zero => exact pos
  | succ fuel ih =>
    rw [stripZeros]
    split
    · next tens =>
      simp only [Bool.and_eq_true, bne_iff_ne, beq_iff_eq] at tens
      exact ih (Nat.div_pos (by omega) (by decide))
    · exact pos

theorem searchGrids_pos {i : Interval} {unit : Magnitude} (low : 0 < i.low) (value : 0 < i.value)
    (numerator : 0 < unit.numerator) (order : Int) (fuel digits : Nat) :
    0 < (searchGrids i unit order fuel digits).coefficient := by
  induction fuel generalizing digits with
  | zero => exact value
  | succ fuel ih =>
    rw [searchGrids]
    split
    · next c found =>
      exact stripZeros_pos (gridPoint?_pos (Nat.mul_pos low (scale_pos numerator _)) found) 17
    · exact ih _

theorem magnitude_pos {mantissa : Nat} (pos : 0 < mantissa) (exponent : Int) :
    0 < (Binary64.magnitude mantissa exponent).numerator := by
  cases exponent with
  | ofNat e => exact Nat.mul_pos pos (Nat.pow_pos (by decide))
  | negSucc e => exact pos

theorem shortest_pos {mantissa : Nat} (pos : 0 < mantissa) (exponent : Int) :
    0 < (shortest mantissa exponent).coefficient := by
  rw [shortest, if_neg (by simpa using pos.ne')]
  refine searchGrids_pos ?_ ?_ (magnitude_pos (by decide) _) _ _ _
  · simp only [interval]
    split <;> omega
  · simp only [interval]
    omega

end Decimal

theorem Binary64.isFinite_ofFloat (x : Float) : (ofFloat x).isFinite = x.isFinite := by
  change _ = x.toModel.unpack.isFinite
  rw [ofFloat_eq]
  cases x.toModel.unpack <;> rfl

/-- The text of a finite number stands for its shortest decimal. -/
theorem Number.readsAs_chars {x : Float} {negative : Bool} {mantissa : Nat} {exponent : Int}
    (pattern : Binary64.ofFloat x = .finite negative mantissa exponent) :
    ∃ (sign : Bool) (d : Decimal), Numeral.ReadsAs (Number.chars x) (.finite sign d) ∧
      (mantissa = 0 ∧ d.coefficient = 0 ∧ sign = false ∨
        0 < mantissa ∧ d.value = (Decimal.shortest mantissa exponent).value ∧ sign = negative) := by
  unfold Number.chars
  rw [pattern]
  dsimp only
  rcases Nat.eq_zero_or_pos mantissa with rfl | pos
  · refine ⟨false, _, Numeral.readsAs_whole (Numeral.whole_single (by decide)) Numeral.raises_nil
      false, .inl ⟨rfl, ?_, rfl⟩⟩
    decide
  · have coefficient := Decimal.shortest_pos pos exponent
    rw [if_neg (by simpa using pos.ne')]
    simp only [Notation.magnitudeChars, Numeral.toList_toString]
    generalize Decimal.shortest mantissa exponent = d at coefficient ⊢
    obtain ⟨n, reads, d', rfl, shifted⟩ := Numeral.readsAs_layout .plain
      (Numeral.digits_toDigits d.coefficient) (Numeral.head_toDigits coefficient)
      (Int.ofNat (Nat.toDigits 10 d.coefficient).length + d.exponent) negative
    rw [Numeral.decimalValue_toDigits] at shifted
    refine ⟨negative, d', ?_, .inr ⟨pos, ?_, rfl⟩⟩
    · cases negative with
      | true => exact reads
      | false => exact reads
    · rw [shifted, Decimal.value]
      congr 2
      rw [Int.ofNat_eq_natCast]
      omega

/-- The text of a finite number is one numeral. -/
theorem Number.reads_chars {x : Float} (finite : x.isFinite = true) :
    Numeral.Reads (Number.chars x) := by
  rw [← Binary64.isFinite_ofFloat] at finite
  cases pattern : Binary64.ofFloat x with
  | notANumber | infinite negative => simp [pattern, Binary64.isFinite] at finite
  | finite negative mantissa exponent =>
    obtain ⟨sign, d, reads, _⟩ := Number.readsAs_chars pattern
    exact ⟨_, reads⟩

end ProgramGym
