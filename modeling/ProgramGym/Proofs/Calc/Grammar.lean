import ProgramGym.Calc.Token

/-! Derivations of arithmetic programs: a sum of products of factors, where the summands and the
factors after the first form a list of their own. A derivation has the tokens it spells and,
unless it divides by zero somewhere, a value. Both are read off the derivation alone. Main
statement: no two derivations spell the same tokens. -/
namespace ProgramGym.Calc

mutual

inductive Expression where
  | sum (first : Term) (rest : Summands)

/-- The summands after the first. -/
inductive Summands where
  | none
  | plus (next : Term) (rest : Summands)
  | minus (next : Term) (rest : Summands)

inductive Term where
  | product (first : Factor) (rest : Factors)

/-- The factors after the first. -/
inductive Factors where
  | none
  | times (next : Factor) (rest : Factors)
  | dividedBy (next : Factor) (rest : Factors)

inductive Factor where
  | negative (factor : Factor)
  | group (inner : Expression)
  | number (n : Nat)

end

mutual

def Expression.tokens : Expression → List Token
  | .sum first rest => first.tokens ++ rest.tokens

def Summands.tokens : Summands → List Token
  | .none => []
  | .plus next rest => .plus :: (next.tokens ++ rest.tokens)
  | .minus next rest => .minus :: (next.tokens ++ rest.tokens)

def Term.tokens : Term → List Token
  | .product first rest => first.tokens ++ rest.tokens

def Factors.tokens : Factors → List Token
  | .none => []
  | .times next rest => .times :: (next.tokens ++ rest.tokens)
  | .dividedBy next rest => .dividedBy :: (next.tokens ++ rest.tokens)

def Factor.tokens : Factor → List Token
  | .negative factor => .minus :: factor.tokens
  | .group inner => .opening :: (inner.tokens ++ [.closing])
  | .number n => [.number n]

end

mutual

/-- None if the derivation divides by zero anywhere. -/
def Expression.value? : Expression → Option Int
  | .sum first rest => first.value?.bind fun x => rest.value? x

/-- The summands added to and taken from what stands before them, from the left. -/
def Summands.value? (before : Int) : Summands → Option Int
  | .none => some before
  | .plus next rest => next.value?.bind fun x => rest.value? (before + x)
  | .minus next rest => next.value?.bind fun x => rest.value? (before - x)

def Term.value? : Term → Option Int
  | .product first rest => first.value?.bind fun x => rest.value? x

/-- What stands before the factors is multiplied and divided by them, from the left; division
drops the fraction. -/
def Factors.value? (before : Int) : Factors → Option Int
  | .none => some before
  | .times next rest => next.value?.bind fun x => rest.value? (before * x)
  | .dividedBy next rest =>
    next.value?.bind fun x => if x = 0 then none else rest.value? (before.tdiv x)

def Factor.value? : Factor → Option Int
  | .negative factor => factor.value?.map (- ·)
  | .group inner => inner.value?
  | .number n => some n

end

/-- The tokens start with no sign that goes on with a product. -/
def StopsProduct (ts : List Token) : Prop := ∀ t ∈ ts.head?, t ≠ .times ∧ t ≠ .dividedBy

/-- The tokens start with no sign that goes on with a sum. -/
def StopsSum (ts : List Token) : Prop := ∀ t ∈ ts.head?, t ≠ .plus ∧ t ≠ .minus

theorem stopsProduct_nil : StopsProduct [] := by simp [StopsProduct]

theorem stopsSum_nil : StopsSum [] := by simp [StopsSum]

theorem stopsProduct_closing (ts : List Token) : StopsProduct (.closing :: ts) := by
  simp [StopsProduct]

theorem stopsSum_closing (ts : List Token) : StopsSum (.closing :: ts) := by
  simp [StopsSum]

/-- A product ends before every further summand. -/
theorem Summands.stopsProduct (rest : Summands) {ts : List Token} (stops : StopsProduct ts) :
    StopsProduct (rest.tokens ++ ts) := by
  cases rest with
  | none => exact stops
  | plus next rest | minus next rest => simp [Summands.tokens, StopsProduct]

/-! Two derivations followed by tokens that cannot continue them are equal if all tokens are. -/

mutual

theorem Expression.tokens_cancel (e e' : Expression) {r r' : List Token}
    (product : StopsProduct r) (product' : StopsProduct r') (sum : StopsSum r) (sum' : StopsSum r')
    (same : e.tokens ++ r = e'.tokens ++ r') : e = e' ∧ r = r' := by
  match e, e' with
  | .sum first rest, .sum first' rest' =>
    simp only [Expression.tokens, List.append_assoc] at same
    obtain ⟨rfl, remaining⟩ := Term.tokens_cancel first first' (rest.stopsProduct product)
      (rest'.stopsProduct product') same
    obtain ⟨rfl, rfl⟩ := Summands.tokens_cancel rest rest' product product' sum sum' remaining
    exact ⟨rfl, rfl⟩

theorem Summands.tokens_cancel (s s' : Summands) {r r' : List Token}
    (product : StopsProduct r) (product' : StopsProduct r') (sum : StopsSum r) (sum' : StopsSum r')
    (same : s.tokens ++ r = s'.tokens ++ r') : s = s' ∧ r = r' := by
  match s, s' with
  | .none, .none => exact ⟨rfl, same⟩
  | .plus next rest, .plus next' rest' | .minus next rest, .minus next' rest' =>
    simp only [Summands.tokens, List.cons_append, List.append_assoc, List.cons.injEq,
      true_and] at same
    obtain ⟨rfl, remaining⟩ := Term.tokens_cancel next next' (rest.stopsProduct product)
      (rest'.stopsProduct product') same
    obtain ⟨rfl, rfl⟩ := Summands.tokens_cancel rest rest' product product' sum sum' remaining
    exact ⟨rfl, rfl⟩
  | .plus .., .minus .. | .minus .., .plus .. => simp [Summands.tokens] at same
  | .none, .plus .. | .none, .minus .. =>
    simp only [Summands.tokens, List.nil_append] at same
    simp [same, StopsSum] at sum
  | .plus .., .none | .minus .., .none =>
    simp only [Summands.tokens, List.nil_append] at same
    simp [← same, StopsSum] at sum'

theorem Term.tokens_cancel (t t' : Term) {r r' : List Token}
    (product : StopsProduct r) (product' : StopsProduct r')
    (same : t.tokens ++ r = t'.tokens ++ r') : t = t' ∧ r = r' := by
  match t, t' with
  | .product first rest, .product first' rest' =>
    simp only [Term.tokens, List.append_assoc] at same
    obtain ⟨rfl, remaining⟩ := Factor.tokens_cancel first first' same
    obtain ⟨rfl, rfl⟩ := Factors.tokens_cancel rest rest' product product' remaining
    exact ⟨rfl, rfl⟩

theorem Factors.tokens_cancel (f f' : Factors) {r r' : List Token}
    (product : StopsProduct r) (product' : StopsProduct r')
    (same : f.tokens ++ r = f'.tokens ++ r') : f = f' ∧ r = r' := by
  match f, f' with
  | .none, .none => exact ⟨rfl, same⟩
  | .times next rest, .times next' rest' | .dividedBy next rest, .dividedBy next' rest' =>
    simp only [Factors.tokens, List.cons_append, List.append_assoc, List.cons.injEq,
      true_and] at same
    obtain ⟨rfl, remaining⟩ := Factor.tokens_cancel next next' same
    obtain ⟨rfl, rfl⟩ := Factors.tokens_cancel rest rest' product product' remaining
    exact ⟨rfl, rfl⟩
  | .times .., .dividedBy .. | .dividedBy .., .times .. => simp [Factors.tokens] at same
  | .none, .times .. | .none, .dividedBy .. =>
    simp only [Factors.tokens, List.nil_append] at same
    simp [same, StopsProduct] at product
  | .times .., .none | .dividedBy .., .none =>
    simp only [Factors.tokens, List.nil_append] at same
    simp [← same, StopsProduct] at product'

/-- A factor shows where it ends, so what follows is free. -/
theorem Factor.tokens_cancel (f f' : Factor) {r r' : List Token}
    (same : f.tokens ++ r = f'.tokens ++ r') : f = f' ∧ r = r' := by
  match f, f' with
  | .number n, .number n' => simpa [Factor.tokens] using same
  | .negative factor, .negative factor' =>
    simp only [Factor.tokens, List.cons_append, List.cons.injEq, true_and] at same
    obtain ⟨rfl, rfl⟩ := Factor.tokens_cancel factor factor' same
    exact ⟨rfl, rfl⟩
  | .group inner, .group inner' =>
    simp only [Factor.tokens, List.cons_append, List.append_assoc, List.nil_append,
      List.cons.injEq, true_and] at same
    obtain ⟨rfl, remaining⟩ := Expression.tokens_cancel inner inner' (stopsProduct_closing r)
      (stopsProduct_closing r') (stopsSum_closing r) (stopsSum_closing r') same
    exact ⟨rfl, (List.cons.inj remaining).2⟩
  | .number _, .negative _ | .number _, .group _ | .negative _, .number _
  | .negative _, .group _ | .group _, .number _ | .group _, .negative _ =>
    simp [Factor.tokens] at same

end

/-- The grammar is unambiguous. -/
theorem Expression.tokens_injective {e e' : Expression} (same : e.tokens = e'.tokens) : e = e' :=
  (Expression.tokens_cancel e e' stopsProduct_nil stopsProduct_nil stopsSum_nil stopsSum_nil
    (congrArg (· ++ []) same)).1

end ProgramGym.Calc
