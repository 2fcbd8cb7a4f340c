import Mathlib
import ProgramGym.Interpreter
import ProgramGym.Proofs.Calc.Evaluation
import ProgramGym.Proofs.Decimal.Reading

/-! Programs made of printed values and of other programs. An integer is printed as a numeral, which
splits into one number and the sign before it; parentheses split off a program whatever it is.
Main statement: what an arithmetic program prints is a numeral and a program that prints itself, and
parentheses around the program do not change what it prints. -/
namespace ProgramGym

namespace Calc
open Numeral (Whole signChars)

/-- An integer in decimal digits: no zero in front of another digit and no sign before a zero. -/
structure Written (text : Text) (negative : Bool) (digits : List Char) : Prop where
  eq : text = Text.ofChars (signChars negative ++ digits)
  whole : Whole digits
  nonzero : negative = true → digits ≠ ['0']

section
variable {cs ds : List Char} {ts us : List Token}

/-- Texts split side by side unless a run of digits would go on from one into the other. -/
theorem Splits.append (first : Splits cs ts) (second : Splits ds us) (ends : EndsRun ds) :
    Splits (cs ++ ds) (ts ++ us) := by
  induction first with
  | nil => exact second
  | blank blank _ ih => exact .blank blank ih
  | sign sign _ ih => exact .sign sign ih
  | @run _ cs _ nonempty digits stops _ ih =>
    rw [List.append_assoc]
    refine .run nonempty digits ?_ ih
    cases cs with
    | nil => exact ends
    | cons c cs => exact stops

theorem splits_digits {digits : List Char} (some : digits ≠ [])
    (all : ∀ d ∈ digits, isDigit d = true) : Splits digits [.number (spelled digits)] := by
  have run : Splits (digits ++ []) _ := .run some all (by simp [EndsRun]) .nil
  rwa [List.append_nil] at run

theorem splits_group (splits : Splits cs ts) :
    Splits ('(' :: cs ++ [')']) (.opening :: ts ++ [.closing]) :=
  (Splits.sign .opening splits).append (.sign .closing .nil) (by simp [EndsRun, isDigit])

end

theorem spelled_toDigits (n : Nat) : spelled (Nat.toDigits 10 n) = n := by
  induction n using Nat.strongRecOn with
  | ind n ih =>
    have digit (d : Nat) (single : d < 10) : digitValue d.digitChar = d := by
      interval_cases d <;> rfl
    rw [Nat.toDigits_eq_if (by decide)]
    split
    · next single => simp [spelled, digit n single]
    · next more =>
      rw [spelled_append, ih (n / 10) (by omega), digit _ (by omega)]
      omega

theorem whole_toDigits (n : Nat) : Whole (Nat.toDigits 10 n) where
  toDigits := Numeral.digits_toDigits n
  lead d rest zero := by
    rcases Nat.eq_zero_or_pos n with rfl | pos
    · cases zero
    · exact Numeral.head_toDigits pos _ zero

theorem toList_toString (v : Int) :
    (toString v).toList = signChars (decide (v < 0)) ++ Nat.toDigits 10 v.natAbs := by
  cases v with
  | ofNat n => exact Numeral.toList_toString n
  | negSucc n =>
    change ("-" ++ toString (n + 1)).toList = _
    rw [String.toList_append, Numeral.toList_toString, decide_eq_true (Int.negSucc_lt_zero n)]
    rfl

theorem written_toString (v : Int) :
    Written (toString v) (decide (v < 0)) (Nat.toDigits 10 v.natAbs) where
  eq := congrArg Text.ofChars (toList_toString v)
  whole := whole_toDigits v.natAbs
  nonzero negative zero := by
    have pos : 0 < v.natAbs := by
      have below : v < 0 := of_decide_eq_true negative
      omega
    exact Numeral.head_toDigits pos [] zero

theorem Written.unitChars {text : Text} {negative : Bool} {digits : List Char}
    (written : Written text negative digits) : text.unitChars = signChars negative ++ digits := by
  rw [written.eq, Text.unitChars_ofChars]
  intro c inside
  rcases List.mem_append.mp inside with sign | digit
  · cases negative with
    | false => cases sign
    | true =>
      rw [List.mem_singleton.mp sign]
      decide
  · have := isDigit_iff.mp (written.whole.all c digit)
    omega

/-- An expression of nothing but a factor. -/
def Factor.alone (f : Factor) : Expression := .sum (.product f .none) .none

theorem Factor.tokens_alone (f : Factor) : f.alone.tokens = f.tokens := by
  simp [alone, Expression.tokens, Term.tokens, Factors.tokens, Summands.tokens]

theorem Factor.value?_alone (f : Factor) : f.alone.value? = f.value? := by
  simp [alone, Expression.value?, Term.value?, Factors.value?, Summands.value?]

theorem evaluate_of_factor {source : Text} {f : Factor} {v : Int}
    (splits : Splits source.unitChars f.tokens) (value : f.value? = some v) :
    evaluate source = .ok v :=
  evaluate_eq_ok_iff.mpr ⟨_, tokens_eq_ok_iff.mpr splits, evaluateTokens_eq_ok_iff.mpr
    ⟨f.alone, f.tokens_alone, f.value?_alone.trans value⟩⟩

/-- A printed integer is a program for that integer. -/
theorem evaluate_toString (v : Int) : evaluate (toString v) = .ok v := by
  have written := written_toString v
  have units := written.unitChars
  have digits := splits_digits written.whole.some written.whole.all
  rw [spelled_toDigits] at digits
  cases sign : decide (v < 0) with
  | false =>
    have above : ¬ v < 0 := of_decide_eq_false sign
    have value : (v.natAbs : Int) = v := by omega
    refine evaluate_of_factor (f := .number v.natAbs) ?_ (congrArg some value)
    rw [units, sign]
    exact digits
  | true =>
    have below : v < 0 := of_decide_eq_true sign
    have value : -(v.natAbs : Int) = v := by omega
    refine evaluate_of_factor (f := .negative (.number v.natAbs)) ?_ (congrArg some value)
    rw [units, sign]
    exact .sign .minus digits

/-- Parentheses around a program keep its value. -/
theorem evaluate_group {source : Text} {v : Int} (evaluated : evaluate source = .ok v) :
    evaluate ("(" ++ source ++ ")") = .ok v := by
  obtain ⟨ts, split, derived⟩ := evaluate_eq_ok_iff.mp evaluated
  obtain ⟨e, rfl, value⟩ := evaluateTokens_eq_ok_iff.mp derived
  refine evaluate_of_factor (f := .group e) ?_ value
  rw [Text.unitChars_append, Text.unitChars_append]
  exact splits_group (tokens_eq_ok_iff.mp split)

end Calc

namespace Interpreter
open Calc

theorem runCalc_of_evaluate {program : Text} {v : Int} (evaluated : evaluate program = .ok v) :
    runCalc program = { success := true, output := some (toString v), error := none } := by
  rw [runCalc, evaluated]

theorem evaluate_of_runCalc {program : Text} (succeeds : (runCalc program).success = true) :
    ∃ v, evaluate program = .ok v := by
  unfold runCalc at succeeds
  cases evaluated : evaluate program with
  | ok v => exact ⟨v, rfl⟩
  | error e =>
    rw [evaluated] at succeeds
    cases succeeds

/-- What an arithmetic program prints, when it runs, is a numeral: digits with no zero in front of
another one, and a minus sign before them only if they are not a zero. As a program the numeral has
the value of the program and prints itself, and the program in parentheses prints it as well. -/
theorem calc_output_runs {program output : Text} (succeeds : (runCalc program).success = true)
    (printed : (runCalc program).output = some output) :
    (∃ negative digits, Written output negative digits) ∧
    (∃ v, evaluate program = .ok v ∧ evaluate output = .ok v) ∧
    runCalc output = { success := true, output := some output, error := none } ∧
    runCalc ("(" ++ program ++ ")") =
      { success := true, output := some output, error := none } := by
  obtain ⟨v, evaluated⟩ := evaluate_of_runCalc succeeds
  rw [runCalc_of_evaluate evaluated] at printed
  cases printed
  exact ⟨⟨_, _, written_toString v⟩, ⟨v, evaluated, evaluate_toString v⟩,
    runCalc_of_evaluate (evaluate_toString v), runCalc_of_evaluate (evaluate_group evaluated)⟩

/-- Minus seven over two, which prints as minus three. -/
theorem calc_output_runs_negative :
    (runCalc "-7 / 2").success = true ∧ (runCalc "-7 / 2").output = some "-3" ∧
    (∃ negative digits, Written "-3" negative digits) ∧
    runCalc "-3" = { success := true, output := some "-3", error := none } ∧
    runCalc ("(" ++ ("-7 / 2" : Text) ++ ")") =
      { success := true, output := some "-3", error := none } := by
  have succeeds : (runCalc "-7 / 2").success = true := by decide +kernel
  have printed : (runCalc "-7 / 2").output = some "-3" := by decide +kernel
  obtain ⟨written, _, again, grouped⟩ := calc_output_runs succeeds printed
  exact ⟨succeeds, printed, written, again, grouped⟩

end Interpreter
end ProgramGym
