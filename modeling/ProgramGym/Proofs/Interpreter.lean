import ProgramGym.Interpreter
import ProgramGym.Proofs.Calc.Splitting

/-! Which programs count as empty. The blanks that are trimmed are the blanks that separate tokens,
so a text without tokens is one that nothing is left of. Main statement: in every language a program
is reported as empty exactly if it is blank. -/
namespace ProgramGym
namespace Text

theorem trim_isEmpty_iff (t : Text) :
    t.trim.isEmpty = true ↔ ∀ u ∈ t.units, isBlankUnit u = true := by
  simp only [trim, isEmpty, List.isEmpty_reverse, List.isEmpty_iff, List.dropWhile_eq_nil_iff,
    List.mem_reverse]
  constructor
  · intro rest u inside
    rw [← List.takeWhile_append_dropWhile (p := isBlankUnit) (l := t.units)] at inside
    rcases List.mem_append.mp inside with taken | left
    · exact List.mem_takeWhile_imp taken
    · exact rest u left
  · intro blank u left
    exact blank u ((List.dropWhile_sublist _).mem left)

end Text

namespace Calc

theorem splits_nil_iff {cs : List Char} : Splits cs [] ↔ ∀ c ∈ cs, Text.isBlank c = true := by
  constructor
  · intro splits
    generalize tokens : ([] : List Token) = ts at splits
    induction splits with
    | nil => simp
    | blank blank _ ih => simpa [blank] using ih tokens
    | sign _ _ _ => cases tokens
    | run _ _ _ _ _ => cases tokens
  · intro blank
    induction cs with
    | nil => exact .nil
    | cons c cs ih =>
      exact .blank (blank c List.mem_cons_self) (ih fun d inside => blank d (.tail _ inside))

theorem tokens_eq_nil_iff {source : Text} :
    tokens source = .ok [] ↔ source.trim.isEmpty = true := by
  rw [tokens_eq_ok_iff, splits_nil_iff, Text.trim_isEmpty_iff]
  simp only [Text.unitChars, List.mem_map, forall_exists_index, and_imp, forall_apply_eq_imp_iff₂]
  rfl

theorem scan_error (cs : List Char) (position : Nat) (number : Option Nat) {e : Error}
    (failed : scan position number cs = .error e) :
    ∃ c place, e = .unexpectedCharacter c place := by
  induction cs generalizing position number with
  | nil => cases number <;> cases failed
  | cons c cs ih =>
    have rest {f : List Token → List Token}
        (failed : (scan (position + 1) none cs).map f = .error e) :
        ∃ c place, e = .unexpectedCharacter c place := by
      cases scanned : scan (position + 1) none cs with
      | ok ts =>
        rw [scanned] at failed
        cases failed
      | error other =>
        rw [scanned] at failed
        cases failed
        exact ih _ _ scanned
    rw [scan] at failed
    split at failed
    · exact ih _ _ failed
    · dsimp only at failed
      split at failed
      · exact rest failed
      · split at failed
        · exact rest failed
        · cases failed
          exact ⟨c, position, rfl⟩

/-- Only a program without tokens is empty; one that ends too early is not. -/
theorem reading_ne_empty (fuel : Nat) :
    (∀ ts, expression fuel ts ≠ .error .emptyProgram) ∧
    (∀ v ts, expressionRest fuel v ts ≠ .error .emptyProgram) ∧
    (∀ ts, term fuel ts ≠ .error .emptyProgram) ∧
    (∀ v ts, termRest fuel v ts ≠ .error .emptyProgram) ∧
    ∀ ts, factor fuel ts ≠ .error .emptyProgram := by
  induction fuel with
  | zero => simp [expression, expressionRest, term, termRest, factor]
  | succ fuel ih =>
    obtain ⟨ofExpression, ofExpressionRest, ofTerm, ofTermRest, ofFactor⟩ := ih
    refine ⟨fun ts => ?_, fun v ts => ?_, fun ts => ?_, fun v ts => ?_, fun ts => ?_⟩
    · unfold expression
      grind
    · unfold expressionRest
      grind
    · unfold term
      grind
    · unfold termRest
      grind
    · unfold factor
      grind

theorem evaluate_eq_empty_iff {source : Text} :
    evaluate source = .error .emptyProgram ↔ source.trim.isEmpty = true := by
  rw [← tokens_eq_nil_iff]
  unfold evaluate
  cases scanned : tokens source with
  | error e =>
    obtain ⟨c, place, rfl⟩ := scan_error _ _ _ scanned
    simp
  | ok ts =>
    have never := (reading_ne_empty (4 * ts.length + 4)).1 ts
    cases ts with
    | nil => simp [evaluateTokens]
    | cons t ts =>
      simp only [evaluateTokens, List.isEmpty_cons, Bool.false_eq_true, if_false, Except.ok.injEq,
        reduceCtorEq, iff_false]
      split
      · simp
      · simp
      · next failed =>
        intro same
        cases same
        exact never failed

theorem append_ne {first rest other : String} {c d : Char} {cs ds : List Char}
    (begins : first.toList = c :: cs) (others : other.toList = d :: ds) (differ : c ≠ d) :
    first ++ rest ≠ other := by
  rintro rfl
  rw [String.toList_append, begins, List.cons_append] at others
  exact differ (List.cons.inj others).1

/-- No other error reads like that of an empty program. -/
theorem message_eq_empty_iff {e : Error} : e.message = "empty program" ↔ e = .emptyProgram := by
  refine ⟨fun same => ?_, fun same => same ▸ rfl⟩
  cases e with
  | emptyProgram => rfl
  | unexpectedEnd | missingClosing | divisionByZero => exact absurd same (by decide)
  | unexpectedCharacter c position =>
    change ("unexpected character '" ++ toString c ++ "' at " ++ toString position) = _ at same
    rw [String.append_assoc, String.append_assoc] at same
    exact absurd same (append_ne rfl rfl (by decide))
  | unexpectedToken position =>
    change ("unexpected token at " ++ toString position) = _ at same
    exact absurd same (append_ne rfl rfl (by decide))
  | unexpectedSign token =>
    change ("unexpected '" ++ toString token.text ++ "'") = _ at same
    rw [String.append_assoc] at same
    exact absurd same (append_ne rfl rfl (by decide))

end Calc

namespace Interpreter

/-- In every language a program is reported as empty exactly if nothing but blanks is in it. -/
theorem reports_empty_iff {name : String} {verdict : Text → Verdict}
    (language : (name, verdict) ∈ languages) (program : Text) :
    (verdict program).error = some "empty program" ↔ program.trim.isEmpty = true := by
  simp only [languages, List.mem_cons, Prod.mk.injEq, List.not_mem_nil, or_false] at language
  rcases language with ⟨_, rfl⟩ | ⟨_, rfl⟩
  · cases empty : program.trim.isEmpty <;> simp [runEcho, empty]
  · unfold runCalc
    rw [← Calc.evaluate_eq_empty_iff]
    cases Calc.evaluate program with
    | ok value => simp
    | error e => simp [Calc.message_eq_empty_iff]

theorem ofLanguage_eq_ok {α : Type} [Scalar α] {language : Text} {i : Interpreter α}
    (known : ofLanguage language = .ok i) :
    ∃ verdict, (language.toString, verdict) ∈ languages ∧
      i = ofFunction language.toString verdict := by
  unfold ofLanguage at known
  split at known
  · next verdict found =>
    cases known
    obtain ⟨before, after, same, _⟩ := List.lookup_eq_some_iff.mp found
    exact ⟨verdict, by simp [same], rfl⟩
  · cases known

end Interpreter
end ProgramGym
