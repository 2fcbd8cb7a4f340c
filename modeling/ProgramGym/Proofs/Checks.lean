import ProgramGym.Environment

/-! Checks made one after the other, and what settings satisfy that have passed them. -/
namespace ProgramGym

theorem bind_eq_ok {ε β γ : Type} {x : Except ε β} {f : β → Except ε γ} {c : γ} :
    (x >>= f) = .ok c ↔ ∃ b, x = .ok b ∧ f b = .ok c := by
  cases x with
  | error e => simp [bind, Except.bind]
  | ok b => simp [bind, Except.bind]

theorem map_eq_ok {ε β γ : Type} {x : Except ε β} {f : β → γ} {c : γ} :
    x.map f = .ok c ↔ ∃ b, x = .ok b ∧ f b = c := by
  cases x <;> simp [Except.map]

theorem mapM_nil_eq_ok {ε β γ : Type} {f : β → Except ε γ} {cs : List γ} :
    [].mapM f = .ok cs ↔ cs = [] := by
  rw [List.mapM_nil]
  exact ⟨fun made => (Except.ok.inj made).symm, fun made => made ▸ rfl⟩

theorem mapM_cons_eq_ok {ε β γ : Type} {f : β → Except ε γ} {b : β} {bs : List β} {cs : List γ} :
    (b :: bs).mapM f = .ok cs ↔ ∃ c rest, cs = c :: rest ∧ f b = .ok c ∧ bs.mapM f = .ok rest := by
  rw [List.mapM_cons]
  simp only [bind_eq_ok]
  constructor
  · rintro ⟨c, first, rest, others, made⟩
    cases made
    exact ⟨c, rest, rfl, first, others⟩
  · rintro ⟨c, rest, rfl, first, others⟩
    exact ⟨c, first, rest, others, rfl⟩

namespace Settings

/-- Only a count is accepted, as it is. -/
theorem positive_eq_ok {name : String} {q : Quantity Float} {n : Nat}
    (accepted : positive name q = .ok n) : q = .count n ∧ 0 < n := by
  unfold positive at accepted
  split at accepted
  · next found =>
    cases accepted
    cases q with
    | count m =>
      simp only [Quantity.positive?, Option.ite_none_right_eq_some, Option.some.injEq] at found
      exact ⟨congrArg _ found.2, by omega⟩
    | other _ | foreign _ => cases found
  · cases accepted

/-- The settings that a request comes to by its checks. -/
structure Accepted (empty repeated : Bool) (isToken : Json → Bool) (r : SettingsRequest)
    (s : Settings) : Prop where
  filled : empty = false
  distinct : repeated = false
  maxSteps : positive "maxSteps" r.maxSteps = .ok s.maxSteps
  windowLength : positive "observationLength" r.windowLength = .ok s.windowLength
  endToken : endTokenOf isToken r.endToken = .ok s.endToken
  executionPolicy : r.executionPolicy.text?.bind ExecutionPolicy.ofName? = some s.executionPolicy
  invalidActionPolicy :
    r.invalidActionPolicy.text?.bind InvalidActionPolicy.ofName? = some s.invalidActionPolicy
  separator : r.separator.word = s.separator
  others : r.kept = s.others

section
variable {empty repeated : Bool} {isToken : Json → Bool} {r : SettingsRequest} {s : Settings}

theorem check_eq_ok : check empty repeated isToken r = .ok s ↔
    Accepted empty repeated isToken r s := by
  unfold check
  constructor
  · intro accepted
    cases empty with
    | true => cases accepted
    | false =>
      cases repeated with
      | true => cases accepted
      | false =>
        obtain ⟨maxSteps, budget, accepted⟩ := bind_eq_ok.mp accepted
        obtain ⟨windowLength, window, accepted⟩ := bind_eq_ok.mp accepted
        obtain ⟨endToken, stop, accepted⟩ := bind_eq_ok.mp accepted
        dsimp only at accepted
        split at accepted
        · next execution =>
          split at accepted
          · next invalid =>
            cases accepted
            exact ⟨rfl, rfl, budget, window, stop, execution, invalid, rfl, rfl⟩
          · cases accepted
        · split at accepted <;> cases accepted
  · rintro ⟨rfl, rfl, budget, window, stop, execution, invalid, separator, others⟩
    refine bind_eq_ok.mpr ⟨_, budget, bind_eq_ok.mpr ⟨_, window, bind_eq_ok.mpr ⟨_, stop, ?_⟩⟩⟩
    rw [execution, invalid, separator, others]
    rfl

/-- The sizes that are checked. -/
theorem sizes_pos (accepted : check empty repeated isToken r = .ok s) :
    0 < s.maxSteps ∧ 0 < s.windowLength :=
  have settings := check_eq_ok.mp accepted
  ⟨(positive_eq_ok settings.maxSteps).2, (positive_eq_ok settings.windowLength).2⟩

theorem maxSteps_pos (accepted : check empty repeated isToken r = .ok s) : 0 < s.maxSteps :=
  (sizes_pos accepted).1

end

end Settings

theorem Environment.create_eq_ok {task : Task} {vocabulary : Vocabulary}
    {interpreter : Interpreter Float} {reward : Reward Float} {request : SettingsRequest}
    {env : Environment Float}
    (created : create task vocabulary interpreter reward request = .ok env) :
    ∃ settings, Settings.resolve vocabulary request = .ok settings ∧
      env = .ofRules ⟨settings, task, vocabulary, interpreter, reward⟩ := by
  obtain ⟨settings, resolved, made⟩ := bind_eq_ok.mp created
  exact ⟨settings, resolved, (Except.ok.inj made).symm⟩

end ProgramGym
