import ProgramGym.Proofs.Storage.Tables
import ProgramGym.Storage.Database.Requests

/-! Calls whose values are given as JSON. Nothing is stored before all values are bound, and values
that are bound make one of the calls. Main statement: such a request is refused and changes
nothing, or it is the same as a call of its kind that names the same experiment. -/
namespace ProgramGym.Database
variable {β : Type} {d next : Database} {fault : Fault}

inductive Request where
  | create (data : Option Json)
  | finish (id data : Option Json)
  | record (id records : Option Json)
  | evaluation (id episode metrics : Option Json)

def Request.op : Request → Op Database Unit
  | .create data => createFrom data
  | .finish id data => finishFrom id data
  | .record id records => recordFrom id records
  | .evaluation id episode metrics => evaluationFrom id episode metrics

/-- The experiment that a value names. -/
def named (id : Option Json) : Option String :=
  match Cell.bind id with
  | .ok cell => cell.asText?
  | .error _ => none

/-- The call that a request makes once its values are bound. -/
inductive Request.Binds : Request → Call → Prop where
  | create {j : Json} {e : NewExperiment} : e.id = named (j.get? "id") →
      Binds (.create (some j)) (.create e)
  | finish (id data : Option Json) (completion : Completion) :
      Binds (.finish id data) (.finish (named id) completion)
  | record {id records : Option Json} {items : List Json} {episodes : List EpisodeCells} :
      (records = some (.array items) ∨
        ∃ t : Text, records = some (.text t) ∧ items = t.points.map .text) →
      items.mapM (episodeCells id) = .ok episodes →
      Binds (.record id records) (.recordEpisodes (named id) episodes)
  | evaluation (id place metrics : Option Json) (episode successRate meanReward : Cell)
      (text : String) : Binds (.evaluation id place metrics)
        (.recordEvaluation (named id) episode successRate meanReward text)

theorem named_of_bind {id : Option Json} {cell : Cell} (bound : Cell.bind id = .ok cell) :
    named id = cell.asText? := by
  unfold named
  rw [bound]

theorem bindAll_eq_ok {values : List (Option Json)} {cells : List Cell}
    (bound : Cell.bindAll values = .ok cells) : values.mapM Cell.bind = .ok cells := by
  unfold Cell.bindAll at bound
  dsimp only at bound
  split at bound
  · cases bound
  · exact bound

/-- An operation that is refused and changes nothing, or does what one of some calls does. -/
def Amounts (op : Op Database Unit) (d : Database) (p : Call → Prop) : Prop :=
  (∃ fault, op.run d = (.error fault, d)) ∨ ∃ c, p c ∧ op.run d = c.op.run d

theorem Amounts.bind {first : Op Database β} {rest : β → Op Database Unit} {p : Call → Prop}
    (quiet : (first.run d).2 = d)
    (remaining : ∀ b, first.run d = (.ok b, d) → Amounts (rest b) d p) :
    Amounts (first >>= rest) d p := by
  unfold Amounts
  rw [Op.run_bind]
  rcases ran : first.run d with ⟨fault | b, next⟩
  · rw [ran] at quiet
    cases quiet
    exact .inl ⟨fault, rfl⟩
  · rw [ran] at quiet
    cases quiet
    exact remaining b ran

theorem quiet_prepared (d : Database) : (prepared.run d).2 = d := by
  unfold prepared
  rw [run_statement]
  cases d.requireOpen <;> rfl

theorem quiet_record (j : Option Json) (d : Database) : ((record j).run d).2 = d := by
  unfold record
  split <;> rfl

theorem quiet_ofExcept (x : Except Fault β) (d : Database) :
    ((Op.ofExcept x : Op Database β).run d).2 = d := by
  cases x <;> rfl

theorem record_eq_ok {j : Option Json} {b : Json} (answered : (record j).run d = (.ok b, d)) :
    j = some b := by
  unfold record at answered
  split at answered
  · cases answered
  · cases answered
  · cases answered
    rfl

theorem ofExcept_eq_ok {x : Except Fault β} {b : β}
    (answered : (Op.ofExcept x : Op Database β).run d = (.ok b, d)) : x = .ok b := by
  cases x with
  | error fault => cases answered
  | ok b => cases answered; rfl

/-- Once the values are bound, the rest of a request is a call. -/
theorem amounts_bound {values : List (Option Json)} {rest : List Cell → Op Database Unit}
    {p : Call → Prop}
    (call : ∀ cells, values.mapM Cell.bind = .ok cells → ∃ c, p c ∧ rest cells = c.op) :
    Amounts (do rest (← Op.ofExcept (Cell.bindAll values))) d p := by
  apply Amounts.bind (quiet_ofExcept _ d)
  intro cells bound
  obtain ⟨c, holds, same⟩ := call cells (bindAll_eq_ok (ofExcept_eq_ok bound))
  exact .inr ⟨c, holds, by rw [same]⟩

theorem amounts_createFrom (data : Option Json) (d : Database) :
    Amounts (createFrom data) d (Request.create data).Binds := by
  apply Amounts.bind (quiet_prepared d)
  intro _ _
  apply Amounts.bind (quiet_record data d)
  intro j given
  obtain rfl := record_eq_ok given
  apply amounts_bound
  intro cells bound
  simp only [mapM_cons_eq_ok, mapM_nil_eq_ok] at bound
  obtain ⟨id, _, rfl, first, type, _, rfl, _, agent, _, rfl, _, language, _, rfl, _, task, _, rfl, _,
    reward, _, rfl, _, config, _, rfl, _, rfl⟩ := bound
  exact ⟨.create _, .create (named_of_bind first).symm, rfl⟩

theorem amounts_finishFrom (id data : Option Json) (d : Database) :
    Amounts (finishFrom id data) d (Request.finish id data).Binds := by
  apply Amounts.bind (quiet_prepared d)
  intro _ _
  apply Amounts.bind (quiet_record data d)
  intro j _
  apply amounts_bound
  intro cells bound
  simp only [mapM_cons_eq_ok, mapM_nil_eq_ok] at bound
  obtain ⟨metrics, _, rfl, _, state, _, rfl, _, time, _, rfl, _, place, _, rfl, last, rfl⟩ := bound
  let completion : Completion := ⟨metrics.asText?, state.asText?, time.asNumber⟩
  refine ⟨.finish (named id) completion, .finish id data completion, ?_⟩
  rw [named_of_bind last]
  rfl

theorem amounts_evaluationFrom (id episode metrics : Option Json) (d : Database) :
    Amounts (evaluationFrom id episode metrics) d (Request.evaluation id episode metrics).Binds := by
  apply Amounts.bind (quiet_prepared d)
  intro _ _
  apply Amounts.bind (quiet_record metrics d)
  intro j _
  apply amounts_bound
  intro cells bound
  simp only [mapM_cons_eq_ok, mapM_nil_eq_ok] at bound
  obtain ⟨place, _, rfl, first, number, _, rfl, _, success, _, rfl, _, reward, _, rfl, _, rfl⟩ := bound
  refine ⟨_, .evaluation id episode metrics number.asNumber success.asNumber reward.asNumber j.compact,
    ?_⟩
  rw [named_of_bind first]
  rfl

/-- A batch that is stored from documents is the batch of their cells. -/
theorem insertDocuments_ok {id : Option Json} {items : List Json}
    (stored : items.foldlM (fun d j => do
      let cells ← episodeCells id j
      let bound ← Cell.bind id
      insertEpisode bound.asText? cells d) d = .ok next) :
    ∃ episodes, items.mapM (episodeCells id) = .ok episodes ∧
      episodes.foldlM (fun d cells => insertEpisode (named id) cells d) d = .ok next := by
  induction items generalizing d with
  | nil => exact ⟨[], rfl, stored⟩
  | cons j items ih =>
    obtain ⟨between, inserted, stored⟩ := bind_eq_ok.mp stored
    obtain ⟨cells, first, inserted⟩ := bind_eq_ok.mp inserted
    obtain ⟨bound, same, inserted⟩ := bind_eq_ok.mp inserted
    obtain ⟨episodes, others, stored⟩ := ih stored
    rw [← named_of_bind same] at inserted
    refine ⟨cells :: episodes, mapM_cons_eq_ok.mpr ⟨cells, episodes, rfl, first, others⟩, ?_⟩
    rw [List.foldlM_cons]
    exact bind_eq_ok.mpr ⟨between, inserted, stored⟩

theorem amounts_recordFrom (id records : Option Json) (d : Database) :
    Amounts (recordFrom id records) d (Request.record id records).Binds := by
  apply Amounts.bind (quiet_prepared d)
  intro _ _
  have stored (items : List Json) (given : records = some (.array items) ∨
      ∃ t : Text, records = some (.text t) ∧ items = t.points.map .text) :
      Amounts (statement fun d => do
        let d ← items.foldlM (fun d j => do
          let cells ← episodeCells id j
          let bound ← Cell.bind id
          insertEpisode bound.asText? cells d) d
        pure ((), d)) d (Request.record id records).Binds := by
    unfold Amounts
    rcases ran : (statement _).run d with ⟨fault | answer, next⟩
    · exact .inl ⟨fault, statement_error ran ▸ rfl⟩
    · obtain ⟨isOpen, added⟩ := statement_eq_ok_iff.mp ran
      obtain ⟨between, added, made⟩ := bind_eq_ok.mp added
      cases made
      obtain ⟨episodes, read, whole⟩ := insertDocuments_ok added
      refine .inr ⟨.recordEpisodes (named id) episodes, .record given read, Eq.symm ?_⟩
      exact statement_eq_ok_iff.mpr ⟨isOpen, map_eq_ok.mpr ⟨next, whole, rfl⟩⟩
  split
  · next items => exact stored items (.inl rfl)
  · next t => exact stored _ (.inr ⟨t, rfl, rfl⟩)
  · exact .inl ⟨.wrongKind, rfl⟩

theorem Request.op_cases (q : Request) (d : Database) :
    (∃ fault, q.op.run d = (.error fault, d)) ∨ ∃ c, q.Binds c ∧ q.op.run d = c.op.run d := by
  cases q with
  | create data => exact amounts_createFrom data d
  | finish id data => exact amounts_finishFrom id data d
  | record id records => exact amounts_recordFrom id records d
  | evaluation id episode metrics => exact amounts_evaluationFrom id episode metrics d

end ProgramGym.Database
