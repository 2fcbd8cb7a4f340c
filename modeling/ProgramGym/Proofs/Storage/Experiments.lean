import Mathlib.Data.List.Induction
import ProgramGym.Proofs.Selecting
import ProgramGym.Proofs.Storage.Bindings
import ProgramGym.Storage.Database.Rows

/-! Experiments with their episodes and evaluations, whatever calls have been made of a database. A
call counts as having happened only if it was not refused. Main statement: a batch of episodes is
stored as a whole or not at all, every row belongs to an experiment that exists, and an experiment
is completed exactly if it was finished after it was made. -/
namespace ProgramGym.Database
variable {now : Instant} {x : String} {calls later : List Call} {c : Call} {d next : Database}
  {fault : Fault}

/-- The tables after calls, those that are refused among them. -/
def after (d : Database) (calls : List Call) : Database := calls.foldl (fun d c => (c.op.run d).2) d

theorem after_concat (d : Database) (calls : List Call) (c : Call) :
    d.after (calls ++ [c]) = (c.op.run (d.after calls)).2 := by
  simp [after]

/-- Among calls there is one of which something holds, given the calls before it. -/
def Happens (p : List Call → Call → Prop) (calls : List Call) : Prop :=
  ∃ before c later, calls = before ++ c :: later ∧ p before c

theorem happens_concat {p : List Call → Call → Prop} :
    Happens p (calls ++ [c]) ↔ Happens p calls ∨ p calls c := by
  constructor
  · rintro ⟨before, call, later, same, holds⟩
    rcases List.eq_nil_or_concat later with rfl | ⟨earlier, last, rfl⟩
    · obtain ⟨rfl, single⟩ := List.append_inj' same rfl
      cases single
      exact .inr holds
    · rw [List.concat_eq_append, ← List.cons_append, ← List.append_assoc] at same
      obtain ⟨rfl, _⟩ := List.append_inj' same rfl
      exact .inl ⟨before, call, earlier, rfl, holds⟩
  · rintro (⟨before, call, later, rfl, holds⟩ | holds)
    · exact ⟨before, call, later ++ [c], by simp, holds⟩
    · exact ⟨calls, c, [], rfl, holds⟩

theorem Happens.append {p : List Call → Call → Prop} (happened : Happens p calls)
    (later : List Call) : Happens p (calls ++ later) := by
  obtain ⟨before, call, between, rfl, holds⟩ := happened
  exact ⟨before, call, between ++ later, by simp, holds⟩

/-- The call is not refused after other calls. -/
def Call.SucceedsAfter (now : Instant) (calls : List Call) (c : Call) : Prop :=
  (c.op.run ((empty now).after calls)).1 = .ok ()

/-- An experiment has been made. -/
def Created (now : Instant) (x : String) : List Call → Prop :=
  Happens fun before c => (∃ e : NewExperiment, c = .create e ∧ e.id = some x) ∧
    c.SucceedsAfter now before

/-- An experiment has been finished after it was made. -/
def Finished (now : Instant) (x : String) : List Call → Prop :=
  Happens fun before c => (∃ completion, c = .finish (some x) completion) ∧ Created now x before ∧
    c.SucceedsAfter now before

theorem Finished.created (finished : Finished now x calls) : Created now x calls := by
  obtain ⟨before, c, later, rfl, _, created, _⟩ := finished
  exact created.append (c :: later)

/-- What the tables say of the calls that have been made. -/
structure Consistent (now : Instant) (calls : List Call) (d : Database) : Prop where
  created : ∀ x, d.hasExperiment x = true ↔ Created now x calls
  completed : ∀ row ∈ d.experiments,
    (row.completed = true ↔ ∃ x, row.id = some x ∧ Finished now x calls)
  episodes : ∀ row ∈ d.episodes, d.hasExperiment row.experiment = true
  evaluations : ∀ row ∈ d.evaluations, d.hasExperiment row.experiment = true

theorem consistent_empty (now : Instant) : Consistent now [] (empty now) := by
  have nothing (p : List Call → Call → Prop) : ¬ Happens p [] := by
    rintro ⟨before, c, later, same, _⟩
    simp at same
  constructor
  · intro x
    constructor
    · intro known
      cases known
    · intro created
      exact absurd created (nothing _)
  · intro row inside
    cases inside
  · intro row inside
    cases inside
  · intro row inside
    cases inside

theorem hasExperiment_append (row : ExperimentRow) :
    { d with experiments := d.experiments ++ [row] }.hasExperiment x = true ↔
      d.hasExperiment x = true ∨ row.id = some x := by
  simp [hasExperiment]

theorem id_finishedRow (id : Option String) (completion : Completion) (row : ExperimentRow) :
    (finishedRow id completion row).id = row.id := by
  unfold finishedRow
  split <;> rfl

theorem hasExperiment_finished (id : Option String) (completion : Completion) :
    { d with experiments := d.experiments.map (finishedRow id completion) }.hasExperiment x =
      d.hasExperiment x := by
  simp [hasExperiment, List.any_map, Function.comp_def, id_finishedRow]

theorem completed_finishedRow (id : Option String) (completion : Completion)
    (row : ExperimentRow) :
    (finishedRow id completion row).completed = true ↔
      row.completed = true ∨ ∃ x, id = some x ∧ row.id = some x := by
  rw [← sameId_iff]
  unfold finishedRow
  split
  · next same => simp [same]
  · next other => simp [other]

/-! One call more. -/

theorem created_refused (refused : ¬ c.SucceedsAfter now calls) :
    Created now x (calls ++ [c]) ↔ Created now x calls := by
  unfold Created
  rw [happens_concat]
  simp [refused]

theorem finished_refused (refused : ¬ c.SucceedsAfter now calls) :
    Finished now x (calls ++ [c]) ↔ Finished now x calls := by
  unfold Finished
  rw [happens_concat]
  simp [refused]

theorem created_concat (answered : c.SucceedsAfter now calls) :
    Created now x (calls ++ [c]) ↔
      Created now x calls ∨ ∃ e : NewExperiment, c = .create e ∧ e.id = some x := by
  unfold Created
  rw [happens_concat]
  simp [answered]

theorem finished_concat (answered : c.SucceedsAfter now calls) :
    Finished now x (calls ++ [c]) ↔ Finished now x calls ∨
      (∃ completion, c = .finish (some x) completion) ∧ Created now x calls := by
  unfold Finished
  rw [happens_concat]
  simp [answered]

/-- Calls that leave the experiments alone keep what the tables say of them. -/
theorem Consistent.of_experiments (consistent : Consistent now calls d)
    (same : next.experiments = d.experiments)
    (created : ∀ x, Created now x later ↔ Created now x calls)
    (finished : ∀ x, Finished now x later ↔ Finished now x calls)
    (episodes : ∀ row ∈ next.episodes, d.hasExperiment row.experiment = true)
    (evaluations : ∀ row ∈ next.evaluations, d.hasExperiment row.experiment = true) :
    Consistent now later next := by
  have known (x : String) : next.hasExperiment x = d.hasExperiment x := by
    unfold hasExperiment
    rw [same]
  constructor
  · intro x
    rw [known, created]
    exact consistent.created x
  · intro row inside
    simp only [finished]
    exact consistent.completed row (same ▸ inside)
  · intro row inside
    rw [known]
    exact episodes row inside
  · intro row inside
    rw [known]
    exact evaluations row inside

theorem Consistent.create {e : NewExperiment} {row : ExperimentRow}
    (consistent : Consistent now calls d) (answered : (Call.create e).SucceedsAfter now calls)
    (named : row.id = e.id) (running : row.completed = false)
    (unused : ∀ x, e.id = some x → d.hasExperiment x = false) :
    Consistent now (calls ++ [.create e]) { d with experiments := d.experiments ++ [row] } := by
  have finished (x : String) : Finished now x (calls ++ [.create e]) ↔ Finished now x calls := by
    simp [finished_concat answered]
  constructor
  · intro x
    rw [hasExperiment_append, created_concat answered, consistent.created x, named]
    simp
  · intro other inside
    simp only [finished]
    rcases List.mem_append.mp inside with old | new
    · exact consistent.completed other old
    · obtain rfl := List.mem_singleton.mp new
      -- what is finished was made before, and an experiment cannot be made twice
      constructor
      · intro completed
        exact absurd completed (by simp [running])
      · rintro ⟨x, same, done⟩
        have known := (consistent.created x).mpr done.created
        exact absurd known (by simp [unused x (named ▸ same)])
  · intro episode inside
    exact hasExperiment_append row |>.mpr (.inl (consistent.episodes episode inside))
  · intro evaluation inside
    exact hasExperiment_append row |>.mpr (.inl (consistent.evaluations evaluation inside))

theorem Consistent.finish {id : Option String} {completion : Completion}
    (consistent : Consistent now calls d)
    (answered : (Call.finish id completion).SucceedsAfter now calls) :
    Consistent now (calls ++ [.finish id completion])
      { d with experiments := d.experiments.map (finishedRow id completion) } := by
  constructor
  · intro x
    rw [hasExperiment_finished, created_concat answered, consistent.created x]
    simp
  · intro row inside
    obtain ⟨old, present, rfl⟩ := List.mem_map.mp inside
    rw [completed_finishedRow, id_finishedRow, consistent.completed old present]
    simp only [finished_concat answered]
    constructor
    · rintro (⟨x, named, done⟩ | ⟨x, same, named⟩)
      · exact ⟨x, named, .inl done⟩
      · have known := hasExperiment_iff.mpr ⟨old, present, named⟩
        exact ⟨x, named, .inr ⟨⟨completion, by rw [same]⟩, (consistent.created x).mp known⟩⟩
    · rintro ⟨x, named, done | ⟨⟨_, same⟩, _⟩⟩
      · exact .inl ⟨x, named, done⟩
      · cases same
        exact .inr ⟨x, rfl, named⟩
  · intro episode inside
    rw [hasExperiment_finished]
    exact consistent.episodes episode inside
  · intro evaluation inside
    rw [hasExperiment_finished]
    exact consistent.evaluations evaluation inside

theorem mem_withEpisodes {episodes : List EpisodeCells} {row : EpisodeRow}
    (inside : row ∈ (d.withEpisodes x episodes).episodes) :
    row ∈ d.episodes ∨ row.experiment = x := by
  rcases List.mem_append.mp inside with old | new
  · exact .inl old
  · obtain ⟨i, small, rfl⟩ := List.mem_mapIdx.mp new
    exact .inr rfl

theorem Consistent.changes (consistent : Consistent now calls d)
    (answered : c.SucceedsAfter now calls) (changes : Changes d c next) :
    Consistent now (calls ++ [c]) next := by
  cases changes with
  | create named running unused => exact consistent.create answered named running unused
  | finish id completion => exact consistent.finish answered
  | recordNone | wait | close | reopen | saveCheckpoint =>
    refine consistent.of_experiments rfl ?_ ?_ consistent.episodes consistent.evaluations
    · simp [created_concat answered]
    · simp [finished_concat answered]
  | recordEpisodes known complete =>
    refine consistent.of_experiments rfl ?_ ?_ ?_ consistent.evaluations
    · simp [created_concat answered]
    · simp [finished_concat answered]
    · intro row inside
      rcases mem_withEpisodes inside with old | new
      · exact consistent.episodes row old
      · exact new ▸ known
  | recordEvaluation metrics known =>
    refine consistent.of_experiments rfl ?_ ?_ consistent.episodes ?_
    · simp [created_concat answered]
    · simp [finished_concat answered]
    · intro row inside
      rcases List.mem_append.mp inside with old | new
      · exact consistent.evaluations row old
      · obtain rfl := List.mem_singleton.mp new
        exact known

theorem Consistent.concat (consistent : Consistent now calls ((empty now).after calls)) (c : Call) :
    Consistent now (calls ++ [c]) ((empty now).after (calls ++ [c])) := by
  rw [after_concat]
  rcases op_cases c ((empty now).after calls) with ⟨fault, ran⟩ | ⟨next, ran, changes⟩
  · have refused : ¬ c.SucceedsAfter now calls := by simp [Call.SucceedsAfter, ran]
    rw [ran]
    exact consistent.of_experiments rfl (fun x => created_refused refused)
      (fun x => finished_refused refused) consistent.episodes consistent.evaluations
  · have answered : c.SucceedsAfter now calls := by simp [Call.SucceedsAfter, ran]
    rw [ran]
    exact consistent.changes answered changes

theorem consistent_after (now : Instant) (calls : List Call) :
    Consistent now calls ((empty now).after calls) := by
  induction calls using List.reverseRecOn with
  | nil => exact consistent_empty now
  | append_singleton calls c ih => exact ih.concat c

/-! Batches of episodes. -/

theorem isNull_ofNumber (x : Float) : (Cell.ofNumber x).isNull = x.isNaN := by
  unfold Cell.ofNumber
  split
  · next missing => exact missing.symm
  · next number =>
    rw [Bool.not_eq_true] at number
    split <;> exact number.symm

/-- Of a record only its reward can be missing. -/
theorem complete_ofRecord_iff (r : EpisodeRecord Float) :
    (EpisodeCells.ofRecord r).Complete ↔ r.totalReward.isNaN = false := by
  constructor
  · intro complete
    rw [← isNull_ofNumber]
    exact complete.totalReward
  · intro number
    constructor
    · exact (isNull_ofNumber _).trans (Number.not_isNaN_ofNat r.episode)
    · exact (isNull_ofNumber _).trans number
    · exact (isNull_ofNumber _).trans (Number.not_isNaN_ofNat r.steps)

theorem run_recordEpisodes_eq_ok_iff {episodes : List EpisodeCells} :
    (Database.recordEpisodes (some x) episodes).run d = (.ok (), next) ↔ d.isOpen = true ∧
      (∀ cells ∈ episodes, d.hasExperiment x = true ∧ cells.Complete) ∧
        next = d.withEpisodes x episodes := by
  rw [Database.recordEpisodes, statement_eq_ok_iff, map_eq_ok]
  simp only [insertEpisodes_eq_ok_iff, Prod.mk.injEq, true_and]
  constructor
  · rintro ⟨isOpen, _, ⟨complete, rfl⟩, rfl⟩
    exact ⟨isOpen, complete, rfl⟩
  · rintro ⟨isOpen, complete, rfl⟩
    exact ⟨isOpen, _, ⟨complete, rfl⟩, rfl⟩

end ProgramGym.Database
