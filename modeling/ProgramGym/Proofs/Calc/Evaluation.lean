import ProgramGym.Calc.Evaluator
import ProgramGym.Proofs.Calc.Grammar
import ProgramGym.Proofs.Calc.Splitting

/-! Evaluation while reading against derivations and their values. Every answer of a reading has
a derivation, whatever the fuel; and a derivation that has a value is read with fuel four times
the tokens it spells, since a token is spent on every three calls that descend. Main statement:
a text evaluates to a number exactly if it splits into tokens of a derivation of that value. -/
namespace ProgramGym.Calc

/-! What is read is derived, by the fuel. -/

mutual

theorem expression_sound {ts rest : List Token} {v : Int} (fuel : Nat)
    (read : expression fuel ts = .ok (v, rest)) :
    ∃ e : Expression, ts = e.tokens ++ rest ∧ e.value? = some v := by
  match fuel with
  | 0 => simp [expression] at read
  | fuel + 1 =>
    simp only [expression] at read
    split at read
    · next x middle head =>
      obtain ⟨first, rfl, value⟩ := term_sound fuel head
      obtain ⟨others, rfl, total⟩ := expressionRest_sound fuel read
      exact ⟨.sum first others, by simp [Expression.tokens],
        by simp [Expression.value?, value, total]⟩
    · cases read

theorem expressionRest_sound {ts rest : List Token} {before v : Int} (fuel : Nat)
    (read : expressionRest fuel before ts = .ok (v, rest)) :
    ∃ s : Summands, ts = s.tokens ++ rest ∧ s.value? before = some v := by
  match fuel, ts with
  | 0, _ => simp [expressionRest] at read
  | fuel + 1, .plus :: ts =>
    simp only [expressionRest] at read
    split at read
    · next x middle head =>
      obtain ⟨next, rfl, value⟩ := term_sound fuel head
      obtain ⟨others, rfl, total⟩ := expressionRest_sound fuel read
      exact ⟨.plus next others, by simp [Summands.tokens],
        by simp [Summands.value?, value, total]⟩
    · cases read
  | fuel + 1, .minus :: ts =>
    simp only [expressionRest] at read
    split at read
    · next x middle head =>
      obtain ⟨next, rfl, value⟩ := term_sound fuel head
      obtain ⟨others, rfl, total⟩ := expressionRest_sound fuel read
      exact ⟨.minus next others, by simp [Summands.tokens],
        by simp [Summands.value?, value, total]⟩
    · cases read
  | fuel + 1, [] | fuel + 1, .number _ :: _ | fuel + 1, .times :: _ | fuel + 1, .dividedBy :: _
  | fuel + 1, .opening :: _ | fuel + 1, .closing :: _ =>
    simp only [expressionRest, Except.ok.injEq, Prod.mk.injEq] at read
    obtain ⟨rfl, rfl⟩ := read
    exact ⟨.none, rfl, rfl⟩

theorem term_sound {ts rest : List Token} {v : Int} (fuel : Nat)
    (read : term fuel ts = .ok (v, rest)) :
    ∃ t : Term, ts = t.tokens ++ rest ∧ t.value? = some v := by
  match fuel with
  | 0 => simp [term] at read
  | fuel + 1 =>
    simp only [term] at read
    split at read
    · next x middle head =>
      obtain ⟨first, rfl, value⟩ := factor_sound fuel head
      obtain ⟨others, rfl, total⟩ := termRest_sound fuel read
      exact ⟨.product first others, by simp [Term.tokens],
        by simp [Term.value?, value, total]⟩
    · cases read

theorem termRest_sound {ts rest : List Token} {before v : Int} (fuel : Nat)
    (read : termRest fuel before ts = .ok (v, rest)) :
    ∃ f : Factors, ts = f.tokens ++ rest ∧ f.value? before = some v := by
  match fuel, ts with
  | 0, _ => simp [termRest] at read
  | fuel + 1, .times :: ts =>
    simp only [termRest] at read
    split at read
    · next x middle head =>
      obtain ⟨next, rfl, value⟩ := factor_sound fuel head
      obtain ⟨others, rfl, total⟩ := termRest_sound fuel read
      exact ⟨.times next others, by simp [Factors.tokens],
        by simp [Factors.value?, value, total]⟩
    · cases read
  | fuel + 1, .dividedBy :: ts =>
    simp only [termRest] at read
    split at read
    · next x middle head =>
      obtain ⟨next, rfl, value⟩ := factor_sound fuel head
      split at read
      · cases read
      · next nonzero =>
        obtain ⟨others, rfl, total⟩ := termRest_sound fuel read
        exact ⟨.dividedBy next others, by simp [Factors.tokens],
          by simp [Factors.value?, value, nonzero, total]⟩
    · cases read
  | fuel + 1, [] | fuel + 1, .number _ :: _ | fuel + 1, .plus :: _ | fuel + 1, .minus :: _
  | fuel + 1, .opening :: _ | fuel + 1, .closing :: _ =>
    simp only [termRest, Except.ok.injEq, Prod.mk.injEq] at read
    obtain ⟨rfl, rfl⟩ := read
    exact ⟨.none, rfl, rfl⟩

theorem factor_sound {ts rest : List Token} {v : Int} (fuel : Nat)
    (read : factor fuel ts = .ok (v, rest)) :
    ∃ f : Factor, ts = f.tokens ++ rest ∧ f.value? = some v := by
  match fuel, ts with
  | 0, _ => simp [factor] at read
  | fuel + 1, .number n :: ts =>
    simp only [factor, Except.ok.injEq, Prod.mk.injEq] at read
    obtain ⟨rfl, rfl⟩ := read
    exact ⟨.number n, rfl, rfl⟩
  | fuel + 1, .minus :: ts =>
    simp only [factor] at read
    split at read
    · next x middle inner =>
      simp only [Except.ok.injEq, Prod.mk.injEq] at read
      obtain ⟨rfl, rfl⟩ := read
      obtain ⟨f, rfl, value⟩ := factor_sound fuel inner
      exact ⟨.negative f, rfl, by simp [Factor.value?, value]⟩
    · cases read
  | fuel + 1, .opening :: ts =>
    simp only [factor] at read
    split at read
    · next x middle inner =>
      simp only [Except.ok.injEq, Prod.mk.injEq] at read
      obtain ⟨rfl, rfl⟩ := read
      obtain ⟨e, rfl, value⟩ := expression_sound fuel inner
      exact ⟨.group e, by simp [Factor.tokens], by simp [Factor.value?, value]⟩
    · cases read
    · cases read
  | fuel + 1, [] | fuel + 1, .plus :: _ | fuel + 1, .times :: _ | fuel + 1, .dividedBy :: _
  | fuel + 1, .closing :: _ => simp [factor] at read

end

/-! What is derived is read, by the derivation. -/

theorem Factor.tokens_pos (f : Factor) : 0 < f.tokens.length := by
  cases f <;> simp [Factor.tokens]

theorem Term.tokens_pos (t : Term) : 0 < t.tokens.length := by
  cases t with
  | product first others =>
    have := first.tokens_pos
    simp only [Term.tokens, List.length_append]
    omega

theorem Expression.tokens_ne_nil (e : Expression) : e.tokens ≠ [] := by
  cases e with
  | sum first others =>
    intro empty
    have := first.tokens_pos
    simp_all [Expression.tokens]

/-- The reading of a sum stops at tokens that cannot go on with it. -/
theorem expressionRest_stop {before : Int} {rest : List Token} (fuel : Nat)
    (stops : StopsSum rest) :
    expressionRest (fuel + 1) before rest = .ok (before, rest) := by
  match rest with
  | .plus :: _ | .minus :: _ => simp [StopsSum] at stops
  | [] | .number _ :: _ | .times :: _ | .dividedBy :: _ | .opening :: _ | .closing :: _ =>
    simp [expressionRest]

theorem termRest_stop {before : Int} {rest : List Token} (fuel : Nat)
    (stops : StopsProduct rest) :
    termRest (fuel + 1) before rest = .ok (before, rest) := by
  match rest with
  | .times :: _ | .dividedBy :: _ => simp [StopsProduct] at stops
  | [] | .number _ :: _ | .plus :: _ | .minus :: _ | .opening :: _ | .closing :: _ =>
    simp [termRest]

mutual

theorem Expression.read (e : Expression) {rest : List Token} {v : Int} {fuel : Nat}
    (enough : 4 * e.tokens.length ≤ fuel + 1)
    (sum : StopsSum rest) (product : StopsProduct rest) (value : e.value? = some v) :
    expression fuel (e.tokens ++ rest) = .ok (v, rest) := by
  match e with
  | .sum first others =>
    obtain ⟨x, head, total⟩ := Option.bind_eq_some_iff.mp value
    have := first.tokens_pos
    simp only [Expression.tokens, List.length_append] at enough
    obtain ⟨fuel, rfl⟩ : ∃ n, fuel = n + 1 := ⟨fuel - 1, by omega⟩
    rw [Expression.tokens, List.append_assoc, expression,
      first.read (by omega) (others.stopsProduct product) head]
    exact others.read (by omega) sum product total

theorem Summands.read (s : Summands) {rest : List Token} {before v : Int} {fuel : Nat}
    (enough : 4 * s.tokens.length < fuel)
    (sum : StopsSum rest) (product : StopsProduct rest) (value : s.value? before = some v) :
    expressionRest fuel before (s.tokens ++ rest) = .ok (v, rest) := by
  obtain ⟨fuel, rfl⟩ : ∃ n, fuel = n + 1 := ⟨fuel - 1, by omega⟩
  match s with
  | .none =>
    cases value
    exact expressionRest_stop fuel sum
  | .plus next others | .minus next others =>
    obtain ⟨x, head, total⟩ := Option.bind_eq_some_iff.mp value
    simp only [Summands.tokens, List.length_cons, List.length_append] at enough
    rw [Summands.tokens, List.cons_append, List.append_assoc, expressionRest,
      next.read (by omega) (others.stopsProduct product) head]
    exact others.read (by omega) sum product total

theorem Term.read (t : Term) {rest : List Token} {v : Int} {fuel : Nat}
    (enough : 4 * t.tokens.length ≤ fuel + 2)
    (product : StopsProduct rest) (value : t.value? = some v) :
    term fuel (t.tokens ++ rest) = .ok (v, rest) := by
  match t with
  | .product first others =>
    obtain ⟨x, head, total⟩ := Option.bind_eq_some_iff.mp value
    have := first.tokens_pos
    simp only [Term.tokens, List.length_append] at enough
    obtain ⟨fuel, rfl⟩ : ∃ n, fuel = n + 1 := ⟨fuel - 1, by omega⟩
    rw [Term.tokens, List.append_assoc, term, first.read (by omega) head]
    exact others.read (by omega) product total

theorem Factors.read (f : Factors) {rest : List Token} {before v : Int} {fuel : Nat}
    (enough : 4 * f.tokens.length < fuel)
    (product : StopsProduct rest) (value : f.value? before = some v) :
    termRest fuel before (f.tokens ++ rest) = .ok (v, rest) := by
  obtain ⟨fuel, rfl⟩ : ∃ n, fuel = n + 1 := ⟨fuel - 1, by omega⟩
  match f with
  | .none =>
    cases value
    exact termRest_stop fuel product
  | .times next others =>
    obtain ⟨x, head, total⟩ := Option.bind_eq_some_iff.mp value
    simp only [Factors.tokens, List.length_cons, List.length_append] at enough
    rw [Factors.tokens, List.cons_append, List.append_assoc, termRest, next.read (by omega) head]
    exact others.read (by omega) product total
  | .dividedBy next others =>
    obtain ⟨x, head, total⟩ := Option.bind_eq_some_iff.mp value
    simp only [Factors.tokens, List.length_cons, List.length_append] at enough
    rw [Factors.tokens, List.cons_append, List.append_assoc, termRest, next.read (by omega) head]
    split at total
    · cases total
    · next nonzero =>
      simp only [if_neg nonzero]
      exact others.read (by omega) product total

theorem Factor.read (f : Factor) {rest : List Token} {v : Int} {fuel : Nat}
    (enough : 4 * f.tokens.length ≤ fuel + 3)
    (value : f.value? = some v) : factor fuel (f.tokens ++ rest) = .ok (v, rest) := by
  have := f.tokens_pos
  obtain ⟨fuel, rfl⟩ : ∃ n, fuel = n + 1 := ⟨fuel - 1, by omega⟩
  match f with
  | .number n =>
    cases value
    rfl
  | .negative f =>
    obtain ⟨x, inner, rfl⟩ := Option.map_eq_some_iff.mp value
    simp only [Factor.tokens, List.length_cons] at enough
    rw [Factor.tokens, List.cons_append, factor, f.read (by omega) inner]
  | .group e =>
    simp only [Factor.tokens, List.length_cons, List.length_append] at enough
    rw [Factor.tokens, List.cons_append, List.append_assoc, List.singleton_append, factor,
      e.read (by omega) (stopsSum_closing rest) (stopsProduct_closing rest) value]

end

theorem evaluateTokens_eq_ok_iff {ts : List Token} {v : Int} :
    evaluateTokens ts = .ok v ↔ ∃ e : Expression, e.tokens = ts ∧ e.value? = some v := by
  constructor
  · intro evaluated
    unfold evaluateTokens at evaluated
    split at evaluated
    · cases evaluated
    · split at evaluated
      · next x read =>
        cases evaluated
        obtain ⟨e, same, value⟩ := expression_sound _ read
        exact ⟨e, by simpa using same.symm, value⟩
      · cases evaluated
      · cases evaluated
  · rintro ⟨e, rfl, value⟩
    have enough : 4 * e.tokens.length ≤ 4 * e.tokens.length + 4 + 1 := by omega
    have read := e.read enough stopsSum_nil stopsProduct_nil value
    rw [List.append_nil] at read
    rw [evaluateTokens, if_neg (by simp [e.tokens_ne_nil]), read]

theorem evaluate_eq_ok_iff {source : Text} {v : Int} :
    evaluate source = .ok v ↔ ∃ ts, tokens source = .ok ts ∧ evaluateTokens ts = .ok v := by
  unfold evaluate
  cases tokens source <;> simp

/-- A text has the value `v` exactly if it splits into tokens with a derivation of value `v`. It
splits in one way at most, its tokens have one derivation at most, and every text without a value
is refused. -/
theorem evaluate_derivation (source : Text) :
    (∀ v, evaluate source = .ok v ↔
      ∃ ts, Splits source.unitChars ts ∧ ∃ e : Expression, e.tokens = ts ∧ e.value? = some v) ∧
    (∀ ts us, Splits source.unitChars ts → Splits source.unitChars us → ts = us) ∧
    (∀ e e' : Expression, e.tokens = e'.tokens → e = e') ∧
    ((¬ ∃ v ts, Splits source.unitChars ts ∧
      ∃ e : Expression, e.tokens = ts ∧ e.value? = some v) →
      ∃ error, evaluate source = .error error) := by
  have ok : ∀ v, evaluate source = .ok v ↔
      ∃ ts, Splits source.unitChars ts ∧ ∃ e : Expression, e.tokens = ts ∧ e.value? = some v := by
    intro v
    simp only [evaluate_eq_ok_iff, tokens_eq_ok_iff, evaluateTokens_eq_ok_iff]
  refine ⟨ok, fun _ _ => Splits.unique, fun _ _ => Expression.tokens_injective, fun refused => ?_⟩
  cases evaluated : evaluate source with
  | error error => exact ⟨error, rfl⟩
  | ok v => exact absurd ⟨v, (ok v).mp evaluated⟩ refused

/-- Sums group from the left, and division drops the fraction on both sides of zero. -/
example : (evaluate "8 - 3 - 2").toOption = some 3 ∧ (evaluate "-7/2").toOption = some (-3) := by
  decide +kernel

end ProgramGym.Calc
