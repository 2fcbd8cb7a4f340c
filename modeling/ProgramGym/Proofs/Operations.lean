import ProgramGym.Fault

/-! Contracts of operations that may fail. A contract says where an operation leads that answers
and where one leads that fails, for what it had done by then stays done. The rules take a
program apart along its binds; an operation on a part of a state carries its contract over to the
whole. -/
namespace ProgramGym.Op
variable {σ τ β γ : Type}

/-- From every state that satisfies `pre`, the operation answers in a state that satisfies
`post`, or fails in one that satisfies `failed`. -/
def Ensures (pre : σ → Prop) (op : Op σ β) (post : β → σ → Prop) (failed : Fault → σ → Prop) :
    Prop :=
  ∀ s, pre s → match op.run s with
    | (.ok b, t) => post b t
    | (.error e, t) => failed e t

section
variable {pre pre' : σ → Prop} {post post' : β → σ → Prop} {failed failed' : Fault → σ → Prop}

theorem Ensures.weaken {op : Op σ β} (contract : Ensures pre op post failed)
    (before : ∀ s, pre' s → pre s) (after : ∀ b s, post b s → post' b s)
    (onFailure : ∀ e s, failed e s → failed' e s) : Ensures pre' op post' failed' := by
  intro s holds
  have led := contract s (before s holds)
  rcases ran : op.run s with ⟨answer | fault, t⟩
  · rw [ran] at led
    exact onFailure _ t led
  · rw [ran] at led
    exact after _ t led

/-- A consequence of the precondition that does not depend on the state may be assumed. -/
theorem Ensures.given {op : Op σ β} {c : Prop} (fact : ∀ s, pre s → c)
    (contract : c → Ensures pre op post failed) : Ensures pre op post failed :=
  fun s holds => contract (fact s holds) s holds

/-- What does not depend on the state stays true. -/
theorem Ensures.frame {op : Op σ β} (contract : Ensures pre op post failed) (c : Prop) :
    Ensures (fun s => pre s ∧ c) op (fun b s => post b s ∧ c) failed := by
  intro s holds
  have led := contract s holds.1
  rcases ran : op.run s with ⟨answer | fault, t⟩ <;> rw [ran] at led
  · exact led
  · exact ⟨led, holds.2⟩

theorem ensures_pure {b : β} (holds : ∀ s, pre s → post b s) :
    Ensures pre (pure b : Op σ β) post failed :=
  holds

theorem ensures_throw {e : Fault} (fails : ∀ s, pre s → failed e s) :
    Ensures pre (throw e : Op σ β) post failed :=
  fails

theorem ensures_modify {f : σ → σ} {post : Unit → σ → Prop}
    (holds : ∀ s, pre s → post () (f s)) : Ensures pre (modify f : Op σ Unit) post failed :=
  holds

theorem run_bind (op : Op σ γ) (next : γ → Op σ β) (s : σ) :
    (op >>= next).run s = match op.run s with
      | (.ok c, t) => (next c).run t
      | (.error e, t) => (.error e, t) := by
  change (ExceptT.bindCont next (op.run s).1 : StateM σ (Except Fault β)) (op.run s).2 = _
  rcases op.run s with ⟨fault | c, t⟩ <;> rfl

/-- A last step that only dresses the answer. -/
theorem run_bind_pure (op : Op σ γ) (f : γ → β) (s : σ) :
    (op >>= fun c => pure (f c)).run s = ((op.run s).1.map f, (op.run s).2) := by
  rw [run_bind]
  rcases op.run s with ⟨fault | c, t⟩ <;> rfl

theorem run_ofExcept (x : Except Fault β) (s : σ) : (ofExcept x).run s = (x, s) := by
  cases x <;> rfl

theorem Ensures.bind {op : Op σ γ} {next : γ → Op σ β} (middle : γ → σ → Prop)
    (first : Ensures pre op middle failed) (rest : ∀ c, Ensures (middle c) (next c) post failed) :
    Ensures pre (op >>= next) post failed := by
  intro s holds
  have led := first s holds
  rw [run_bind]
  rcases ran : op.run s with ⟨fault | c, t⟩
  · simpa only [ran] using led
  · rw [ran] at led
    exact rest c t led

/-- What is read is the state itself. -/
theorem ensures_get {next : σ → Op σ β}
    (rest : ∀ t, Ensures (fun s => s = t ∧ pre s) (next t) post failed) :
    Ensures pre (get >>= next) post failed :=
  fun s holds => rest s s ⟨rfl, holds⟩

theorem ensures_ofExcept (x : Except Fault β) :
    Ensures pre (ofExcept x) (fun b s => x = .ok b ∧ pre s) (fun e s => x = .error e ∧ pre s) := by
  intro s holds
  cases x with
  | ok b => exact ⟨rfl, holds⟩
  | error e => exact ⟨rfl, holds⟩

/-- An attempt never fails: a failure is its answer. -/
theorem Ensures.attempt {op : Op σ β} (contract : Ensures pre op post failed) :
    Ensures pre op.attempt
      (fun outcome s => match outcome with
        | .ok b => post b s
        | .error e => failed e s) failed' := by
  intro s holds
  have led := contract s holds
  have ran : op.attempt.run s = (.ok (op.run s).1, (op.run s).2) := rfl
  rw [ran]
  rcases answered : op.run s with ⟨fault | b, t⟩ <;> rw [answered] at led <;> exact led

/-- An operation on a part: the contract says what becomes of the whole. -/
theorem ensures_onPart {get : τ → σ} {set : τ → σ → τ} {op : Op σ β} {pre : τ → Prop}
    {post : β → τ → Prop} {failed : Fault → τ → Prop}
    (contract : ∀ t, pre t → Ensures (· = get t) op (fun b s => post b (set t s))
      (fun e s => failed e (set t s))) :
    Ensures pre (op.onPart get set) post failed := by
  intro t holds
  have led := contract t holds (get t) rfl
  have ran : (op.onPart get set).run t = ((op.run (get t)).1, set t (op.run (get t)).2) := rfl
  rw [ran]
  rcases answered : op.run (get t) with ⟨fault | b, s⟩ <;> rw [answered] at led <;> exact led

theorem Ensures.ite {c : Prop} [Decidable c] {a b : Op σ β}
    (holds : c → Ensures pre a post failed) (fails : ¬ c → Ensures pre b post failed) :
    Ensures pre (if c then a else b) post failed := by
  split
  · next yes => exact holds yes
  · next no => exact fails no

end

/-! Two runs of one operation. -/

/-- From related states the operation answers alike, and leads to related states. -/
def Respects (R : σ → σ → Prop) (op : Op σ β) : Prop :=
  ∀ s t, R s t → (op.run s).1 = (op.run t).1 ∧ R (op.run s).2 (op.run t).2

section
variable {R : σ → σ → Prop}

theorem respects_pure (b : β) : Respects R (pure b : Op σ β) := fun _ _ related => ⟨rfl, related⟩

theorem respects_ofExcept (x : Except Fault β) : Respects R (ofExcept x) := by
  intro s t related
  cases x <;> exact ⟨rfl, related⟩

theorem respects_modify {f : σ → σ} (kept : ∀ s t, R s t → R (f s) (f t)) :
    Respects R (modify f : Op σ Unit) :=
  fun s t related => ⟨rfl, kept s t related⟩

theorem Respects.bind {op : Op σ γ} {next : γ → Op σ β} (first : Respects R op)
    (rest : ∀ c, Respects R (next c)) : Respects R (op >>= next) := by
  intro s t related
  have led := first s t related
  rw [run_bind, run_bind]
  generalize op.run s = x, op.run t = y at led
  obtain ⟨answer, s⟩ := x
  obtain ⟨_, t⟩ := y
  obtain ⟨rfl, related⟩ := led
  cases answer with
  | error fault => exact ⟨rfl, related⟩
  | ok c => exact rest c s t related

/-- An operation on a part, with a relation on the part that the one on the whole comes down to. -/
theorem Respects.onPart {Q : τ → τ → Prop} {get : τ → σ} {set : τ → σ → τ} {op : Op σ β}
    (respected : Respects R op) (part : ∀ t u, Q t u → R (get t) (get u))
    (whole : ∀ t u s v, Q t u → R s v → Q (set t s) (set u v)) :
    Respects Q (op.onPart get set) := by
  intro t u related
  obtain ⟨answer, after⟩ := respected _ _ (part t u related)
  exact ⟨answer, whole t u _ _ related after⟩

theorem respects_eq (op : Op σ β) : Respects (· = ·) op := by
  rintro s _ rfl
  exact ⟨rfl, rfl⟩

theorem respects_throw (e : Fault) : Respects R (throw e : Op σ β) :=
  fun _ _ related => ⟨rfl, related⟩

/-- An attempt's answer says how the operation has ended. -/
theorem Respects.attempt {op : Op σ β} (respected : Respects R op) : Respects R op.attempt := by
  intro s t related
  obtain ⟨answer, after⟩ := respected s t related
  exact ⟨congrArg Except.ok answer, after⟩

theorem Respects.ite {c : Prop} [Decidable c] {a b : Op σ β} (holds : Respects R a)
    (fails : Respects R b) : Respects R (if c then a else b) := by
  split
  · exact holds
  · exact fails

/-- What is read may matter only as far as related states agree. -/
theorem respects_get {next : σ → Op σ β} (alike : ∀ s t, R s t → next s = next t)
    (rest : ∀ u, Respects R (next u)) : Respects R (get >>= next) := by
  intro s t related
  change ((next s).run s).1 = ((next t).run t).1 ∧ R ((next s).run s).2 ((next t).run t).2
  rw [alike s t related]
  exact rest t s t related

end
end ProgramGym.Op
