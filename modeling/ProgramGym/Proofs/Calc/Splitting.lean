import Mathlib.Data.List.TakeWhile
import Mathlib.Data.Nat.Digits.Defs
import ProgramGym.Calc.Token

/-! How a program text falls into tokens: blanks that mean nothing, the six signs, and runs of
digits that no digit follows. The scanner holds the number that is open, the relation takes a
run as a whole. Main statement: the scanner answers exactly the tokens of a splitting. -/
namespace ProgramGym.Calc

/-- The signs with the characters they are written by. -/
inductive Token.Sign : Token → Char → Prop where
  | plus : Sign .plus '+'
  | minus : Sign .minus '-'
  | times : Sign .times '*'
  | dividedBy : Sign .dividedBy '/'
  | opening : Sign .opening '('
  | closing : Sign .closing ')'

/-- The number that a run of decimal digits spells. -/
def spelled (ds : List Char) : Nat := Nat.ofDigits 10 (ds.map digitValue).reverse

/-- The characters start with no digit that would go on with a run. -/
def EndsRun (cs : List Char) : Prop := ∀ c ∈ cs.head?, isDigit c = false

inductive Splits : List Char → List Token → Prop where
  | nil : Splits [] []
  | blank {c : Char} {cs : List Char} {ts : List Token} :
      Text.isBlank c = true → Splits cs ts → Splits (c :: cs) ts
  | sign {c : Char} {t : Token} {cs : List Char} {ts : List Token} :
      t.Sign c → Splits cs ts → Splits (c :: cs) (t :: ts)
  | run {ds cs : List Char} {ts : List Token} :
      ds ≠ [] → (∀ d ∈ ds, isDigit d = true) → EndsRun cs → Splits cs ts →
      Splits (ds ++ cs) (.number (spelled ds) :: ts)

theorem isDigit_iff {c : Char} : isDigit c = true ↔ 48 ≤ c.toNat ∧ c.toNat ≤ 57 := by
  simp only [isDigit, Bool.and_eq_true, decide_eq_true_eq]
  exact Iff.rfl

theorem isDigit_of_isBlank {c : Char} (blank : Text.isBlank c = true) : isDigit c = false := by
  rw [← Bool.not_eq_true, isDigit_iff]
  simp only [Text.isBlank, Bool.or_eq_true, Bool.and_eq_true, decide_eq_true_eq,
    beq_iff_eq] at blank
  omega

theorem Token.sign?_eq_some_iff {c : Char} {t : Token} : Token.sign? c = some t ↔ t.Sign c := by
  constructor
  · intro found
    simp only [Token.sign?, beq_iff_eq] at found
    split_ifs at found with h h h h h h <;> cases found <;> subst h <;> constructor
  · intro sign
    cases sign <;> decide

theorem Token.Sign.not_digit {c : Char} {t : Token} (sign : t.Sign c) : isDigit c = false := by
  cases sign <;> decide

theorem Token.Sign.not_blank {c : Char} {t : Token} (sign : t.Sign c) :
    Text.isBlank c = false := by
  cases sign <;> decide

theorem spelled_append (ds : List Char) (d : Char) :
    spelled (ds ++ [d]) = 10 * spelled ds + digitValue d := by
  simp [spelled, Nat.ofDigits_cons, Nat.add_comm]

/-! The scanner by what stands at the start. -/

section
variable {c : Char} {cs ds : List Char} {t : Token} (position : Nat)

theorem scan_blank (blank : Text.isBlank c = true) :
    scan position none (c :: cs) = scan (position + 1) none cs := by
  rw [scan, if_neg (by simp [isDigit_of_isBlank blank]), if_pos blank]
  cases scan (position + 1) none cs <;> rfl

theorem scan_sign (sign : t.Sign c) :
    scan position none (c :: cs) = (scan (position + 1) none cs).map (t :: ·) := by
  rw [scan, if_neg (by simp [sign.not_digit]), if_neg (by simp [sign.not_blank]),
    Token.sign?_eq_some_iff.mpr sign]
  rfl

theorem scan_other (digit : isDigit c = false) (blank : Text.isBlank c = false)
    (sign : Token.sign? c = none) :
    scan position none (c :: cs) = .error (.unexpectedCharacter c position) := by
  rw [scan, if_neg (by simp [digit]), if_neg (by simp [blank]), sign]

/-- An open number ends where no digit stands. -/
theorem scan_some (n : Nat) (ends : EndsRun cs) :
    scan position (some n) cs = (scan position none cs).map (.number n :: ·) := by
  cases cs with
  | nil => rfl
  | cons c cs =>
    have digit : ¬ isDigit c = true := by simpa [EndsRun] using ends
    simp only [scan, if_neg digit]
    split
    · cases scan (position + 1) none cs <;> rfl
    · split
      · cases scan (position + 1) none cs <;> rfl
      · rfl

/-- An open number takes the digits that follow. -/
theorem scan_digits (read cs : List Char) (digits : ∀ d ∈ ds, isDigit d = true) :
    scan position (some (spelled read)) (ds ++ cs) =
      scan (position + ds.length) (some (spelled (read ++ ds))) cs := by
  induction ds generalizing position read with
  | nil => simp
  | cons d ds ih =>
    have rest := ih (position + 1) (read ++ [d]) fun x hx => digits x (List.mem_cons_of_mem _ hx)
    rw [List.cons_append, scan, if_pos (digits d List.mem_cons_self), Option.getD_some,
      ← spelled_append, rest, List.append_assoc, List.singleton_append, List.length_cons,
      Nat.add_assoc, Nat.add_comm 1]

theorem scan_run (nonempty : ds ≠ []) (digits : ∀ d ∈ ds, isDigit d = true)
    (ends : EndsRun cs) :
    scan position none (ds ++ cs) =
      (scan (position + ds.length) none cs).map (.number (spelled ds) :: ·) := by
  obtain ⟨d, ds, rfl⟩ := List.exists_cons_of_ne_nil nonempty
  have first : 10 * (none : Option Nat).getD 0 + digitValue d = spelled [d] := by
    simp [spelled]
  have rest := scan_digits (position + 1) [d] cs fun x hx =>
    digits x (List.mem_cons_of_mem _ hx)
  rw [List.cons_append, scan, if_pos (digits d List.mem_cons_self), first, rest,
    scan_some _ _ ends, List.singleton_append, List.length_cons, Nat.add_assoc, Nat.add_comm 1]

end

theorem map_cons_eq_ok {t : Token} {r : Except Error (List Token)} {ts : List Token}
    (h : r.map (t :: ·) = .ok ts) : ∃ us, r = .ok us ∧ ts = t :: us := by
  cases r with
  | error e => cases h
  | ok us => exact ⟨us, rfl, (Except.ok.inj h).symm⟩

theorem scan_of_splits {cs : List Char} {ts : List Token} (splits : Splits cs ts) :
    ∀ position, scan position none cs = .ok ts := by
  induction splits with
  | nil => intro position; rfl
  | blank blank _ ih => intro position; rw [scan_blank position blank, ih]
  | sign sign _ ih => intro position; rw [scan_sign position sign, ih]; rfl
  | run nonempty digits ends _ ih =>
    intro position
    rw [scan_run position nonempty digits ends, ih]
    rfl

theorem endsRun_dropWhile (cs : List Char) : EndsRun (cs.dropWhile isDigit) := by
  intro c first
  have stopped := List.head?_dropWhile_not isDigit cs
  rw [Option.mem_def.mp first] at stopped
  exact stopped

/-- On the length of the text: a run is taken off as a whole. -/
theorem splits_of_scan (cs : List Char) (position : Nat) (ts : List Token)
    (scanned : scan position none cs = .ok ts) : Splits cs ts := by
  match cs with
  | [] =>
    cases scanned
    exact .nil
  | c :: cs =>
    cases digit : isDigit c with
    | true =>
      have split : c :: cs = (c :: cs.takeWhile isDigit) ++ cs.dropWhile isDigit := by
        rw [List.cons_append, List.takeWhile_append_dropWhile]
      have digits : ∀ d ∈ c :: cs.takeWhile isDigit, isDigit d = true := by
        intro d hd
        rcases List.mem_cons.mp hd with rfl | hd
        · exact digit
        · exact List.mem_takeWhile_imp hd
      have ends := endsRun_dropWhile cs
      have shorter := (List.dropWhile_sublist isDigit (l := cs)).length_le
      rw [split, scan_run position (by simp) digits ends] at scanned
      obtain ⟨us, tail, rfl⟩ := map_cons_eq_ok scanned
      rw [split]
      exact .run (by simp) digits ends (splits_of_scan _ _ us tail)
    | false =>
      cases blank : Text.isBlank c with
      | true =>
        rw [scan_blank position blank] at scanned
        exact .blank blank (splits_of_scan cs _ ts scanned)
      | false =>
        cases sign : Token.sign? c with
        | some t =>
          have sign := Token.sign?_eq_some_iff.mp sign
          rw [scan_sign position sign] at scanned
          obtain ⟨us, tail, rfl⟩ := map_cons_eq_ok scanned
          exact .sign sign (splits_of_scan cs _ us tail)
        | none =>
          rw [scan_other position digit blank sign] at scanned
          cases scanned
termination_by cs.length

/-- The scanner answers exactly the tokens into which the units of a text split. -/
theorem tokens_eq_ok_iff {source : Text} {ts : List Token} :
    tokens source = .ok ts ↔ Splits source.unitChars ts :=
  ⟨splits_of_scan _ 0 ts, fun splits => scan_of_splits splits 0⟩

/-- A text splits in one way at most. -/
theorem Splits.unique {cs : List Char} {ts us : List Token} (first : Splits cs ts)
    (second : Splits cs us) : ts = us :=
  Except.ok.inj ((scan_of_splits first 0).symm.trans (scan_of_splits second 0))

end ProgramGym.Calc
