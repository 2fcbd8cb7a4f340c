import ProgramGym.Proofs.Checks
import ProgramGym.Proofs.Operations
import ProgramGym.Storage.Database

/-! Calls that change the tables of a database. A call is refused and changes nothing, or it makes
the changes of its kind; what holds of the tables after any calls is derived from the changes alone.
Main statement: a statement that is refused leaves everything as it was, and everything that a call
can do is one of the changes. -/
namespace ProgramGym

namespace EpisodeCells

/-- None of the values that may not be missing is missing. -/
structure Complete (c : EpisodeCells) : Prop where
  episode : c.episode.isNull = false
  totalReward : c.totalReward.isNull = false
  steps : c.steps.isNull = false

end EpisodeCells

namespace Database
variable {β : Type} {d next : Database} {fault : Fault} {x : String}

inductive Call where
  | create (e : NewExperiment)
  | finish (id : Option String) (c : Completion)
  | recordEpisodes (id : Option String) (episodes : List EpisodeCells)
  | recordEvaluation (id : Option String) (episode successRate meanReward : Cell) (metrics : String)
  | saveCheckpoint (namespace_ key : String) (payload : Option String)
  /-- Time passes. -/
  | wait (now : Instant)
  | close
  /-- The database is opened again, with everything that it had stored. -/
  | reopen

def Call.op : Call → Op Database Unit
  | .create e => createExperiment e
  | .finish id c => finishExperiment id c
  | .recordEpisodes id episodes => Database.recordEpisodes id episodes
  | .recordEvaluation id episode successRate meanReward metrics =>
    Database.recordEvaluation id episode successRate meanReward metrics
  | .saveCheckpoint namespace_ key payload => Database.saveCheckpoint namespace_ key payload
  | .wait now => modify fun d => { d with now }
  | .close => Database.close
  | .reopen => modify fun d => { d with isOpen := true }

/-- The tables with more episodes of an experiment, each with its place as its number. -/
def withEpisodes (d : Database) (x : String) (episodes : List EpisodeCells) : Database :=
  { d with episodes := d.episodes ++
      episodes.mapIdx fun i cells => ⟨d.episodes.length + 1 + i, x, cells⟩ }

/-- A row as it is once the experiment of a name is finished. -/
def finishedRow (id : Option String) (c : Completion) (row : ExperimentRow) : ExperimentRow :=
  if sameId id row.id then
    { row with
      completed := true
      finalMetrics := c.finalMetrics
      agentState := c.agentState
      trainTime := c.trainTime }
  else row

/-- What a call changes that is not refused. -/
inductive Changes (d : Database) : Call → Database → Prop where
  | create {e : NewExperiment} {row : ExperimentRow} : row.id = e.id → row.completed = false →
      (∀ x, e.id = some x → d.hasExperiment x = false) →
      Changes d (.create e) { d with experiments := d.experiments ++ [row] }
  | finish (id : Option String) (c : Completion) :
      Changes d (.finish id c) { d with experiments := d.experiments.map (finishedRow id c) }
  | recordNone (id : Option String) : Changes d (.recordEpisodes id []) d
  | recordEpisodes {x : String} {episodes : List EpisodeCells} : d.hasExperiment x = true →
      (∀ cells ∈ episodes, cells.Complete) →
      Changes d (.recordEpisodes (some x) episodes) (d.withEpisodes x episodes)
  | recordEvaluation {x : String} {episode successRate meanReward : Cell} (metrics : String) :
      d.hasExperiment x = true → episode.isNull = false → successRate.isNull = false →
      meanReward.isNull = false →
      Changes d (.recordEvaluation (some x) episode successRate meanReward metrics)
        { d with evaluations := d.evaluations ++
            [⟨d.evaluations.length + 1, x, episode, successRate, meanReward, metrics⟩] }
  | saveCheckpoint (namespace_ key payload : String) :
      Changes d (.saveCheckpoint namespace_ key (some payload))
        { d with checkpoints := putCheckpoint namespace_ key payload d.checkpoints }
  | wait (now : Instant) : Changes d (.wait now) { d with now }
  | close : Changes d .close { d with isOpen := false }
  | reopen : Changes d .reopen { d with isOpen := true }

/-! Statements. -/

theorem run_statement (run : Database → Except Fault (β × Database)) (d : Database) :
    (statement run).run d = match d.requireOpen.bind fun () => run d with
      | .ok (b, next) => (.ok b, next)
      | .error fault => (.error fault, d) := rfl

theorem requireOpen_eq_ok_iff : d.requireOpen = .ok () ↔ d.isOpen = true := by
  cases opened : d.isOpen <;> simp [requireOpen, refuse, opened]

/-- A statement that is refused leaves everything as it was. -/
theorem statement_error {run : Database → Except Fault (β × Database)}
    (refused : (statement run).run d = (.error fault, next)) : next = d := by
  rw [run_statement] at refused
  split at refused
  · cases refused
  · cases refused
    rfl

theorem statement_eq_ok_iff {run : Database → Except Fault (β × Database)} {b : β} :
    (statement run).run d = (.ok b, next) ↔ d.isOpen = true ∧ run d = .ok (b, next) := by
  rw [run_statement, ← requireOpen_eq_ok_iff]
  constructor
  · intro answered
    cases opened : d.requireOpen with
    | error fault =>
      rw [opened] at answered
      cases answered
    | ok =>
      simp only [opened, Except.bind] at answered
      split at answered
      · next ran =>
        cases answered
        exact ⟨rfl, ran⟩
      · cases answered
  · rintro ⟨opened, ran⟩
    simp only [opened, Except.bind, ran]

theorem require_eq_ok_iff {table column : String} {value : Option β} {b : β} :
    require table column value = .ok b ↔ value = some b := by
  cases value <;> simp [require, refuse]

theorem requireCell_eq_ok_iff {table column : String} {cell other : Cell} :
    requireCell table column cell = .ok other ↔ cell.isNull = false ∧ other = cell := by
  cases missing : cell.isNull <;> simp [requireCell, refuse, missing, eq_comm]

theorem hasExperiment_iff : d.hasExperiment x = true ↔ ∃ row ∈ d.experiments, row.id = some x := by
  simp [hasExperiment]

/-! What a call that is not refused changes. -/

/-- A missing identifier is the same as none. -/
theorem sameId_iff {a b : Option String} : sameId a b = true ↔ ∃ x, a = some x ∧ b = some x := by
  unfold sameId
  rw [Bool.and_eq_true, beq_iff_eq, Option.isSome_iff_exists]
  constructor
  · rintro ⟨⟨x, rfl⟩, rfl⟩
    exact ⟨x, rfl, rfl⟩
  · rintro ⟨x, rfl, rfl⟩
    exact ⟨⟨x, rfl⟩, rfl⟩

theorem unused_iff {id : Option String} :
    d.experiments.any (fun row => sameId id row.id) = false ↔
      ∀ x, id = some x → d.hasExperiment x = false := by
  rw [List.any_eq_false]
  simp only [sameId_iff, ← Bool.not_eq_true, hasExperiment_iff]
  constructor
  · intro unused x named known
    obtain ⟨row, inside, same⟩ := known
    exact unused row inside ⟨x, named, same⟩
  · intro unused row inside same
    obtain ⟨x, named, known⟩ := same
    exact unused x named ⟨row, inside, known⟩

theorem insertExperiment_ok {e : NewExperiment} (inserted : insertExperiment e d = .ok next) :
    Changes d (.create e) next := by
  obtain ⟨type, _, inserted⟩ := bind_eq_ok.mp inserted
  obtain ⟨language, _, inserted⟩ := bind_eq_ok.mp inserted
  obtain ⟨task, _, inserted⟩ := bind_eq_ok.mp inserted
  obtain ⟨_, _, inserted⟩ := bind_eq_ok.mp inserted
  have stored {row : ExperimentRow} (id : row.id = e.id) (running : row.completed = false)
      (added : (if d.experiments.any (fun row => sameId e.id row.id) then do
          let r ← refuse (.duplicate "experiments" "id")
          (fun _ : Unit => pure { d with experiments := d.experiments ++ [row] }) r
        else pure { d with experiments := d.experiments ++ [row] }) = Except.ok next) :
      Changes d (.create e) next := by
    split at added
    · cases added
    · next unused =>
      cases added
      exact .create id running (unused_iff.mp (by simpa using unused))
  dsimp only at inserted
  split at inserted
  · obtain ⟨_, _, inserted⟩ := bind_eq_ok.mp inserted
    exact stored rfl rfl inserted
  · exact stored rfl rfl inserted

theorem insertEpisode_eq_ok_iff {id : Option String} {cells : EpisodeCells} :
    insertEpisode id cells d = .ok next ↔ ∃ x, id = some x ∧ d.hasExperiment x = true ∧
      cells.Complete ∧ next = d.withEpisodes x [cells] := by
  unfold insertEpisode
  simp only [bind_eq_ok, require_eq_ok_iff, requireCell_eq_ok_iff]
  constructor
  · rintro ⟨x, named, _, ⟨episode, rfl⟩, _, ⟨reward, rfl⟩, _, ⟨steps, rfl⟩, inserted⟩
    split at inserted
    · cases inserted
    · next known =>
      cases inserted
      exact ⟨x, named, by simpa using known, ⟨episode, reward, steps⟩, rfl⟩
  · rintro ⟨x, named, known, complete, rfl⟩
    refine ⟨x, named, _, ⟨complete.episode, rfl⟩, _, ⟨complete.totalReward, rfl⟩, _,
      ⟨complete.steps, rfl⟩, ?_⟩
    rw [known]
    rfl

theorem withEpisodes_nil (d : Database) (x : String) : d.withEpisodes x [] = d := by
  simp [withEpisodes]

theorem withEpisodes_cons (d : Database) (x : String) (cells : EpisodeCells)
    (rest : List EpisodeCells) :
    (d.withEpisodes x [cells]).withEpisodes x rest = d.withEpisodes x (cells :: rest) := by
  simp [withEpisodes, List.mapIdx_cons, Nat.add_comm, Nat.add_left_comm]

/-- A batch is stored if each of its episodes is complete and has an experiment to belong to. -/
theorem insertEpisodes_eq_ok_iff {episodes : List EpisodeCells} :
    episodes.foldlM (fun d cells => insertEpisode (some x) cells d) d = .ok next ↔
      (∀ cells ∈ episodes, d.hasExperiment x = true ∧ cells.Complete) ∧
        next = d.withEpisodes x episodes := by
  induction episodes generalizing d with
  | nil =>
    rw [withEpisodes_nil]
    constructor
    · intro stored
      cases stored
      exact ⟨nofun, rfl⟩
    · rintro ⟨_, rfl⟩
      rfl
  | cons cells rest ih =>
    rw [List.foldlM_cons, bind_eq_ok, List.forall_mem_cons]
    constructor
    · rintro ⟨first, inserted, others⟩
      obtain ⟨_, ⟨⟩, known, complete, rfl⟩ := insertEpisode_eq_ok_iff.mp inserted
      obtain ⟨complete', rfl⟩ := ih.mp others
      exact ⟨⟨⟨known, complete⟩, complete'⟩, withEpisodes_cons d x cells rest⟩
    · rintro ⟨⟨⟨known, complete⟩, complete'⟩, rfl⟩
      refine ⟨_, insertEpisode_eq_ok_iff.mpr ⟨x, rfl, known, complete, rfl⟩, ih.mpr ⟨complete', ?_⟩⟩
      exact (withEpisodes_cons d x cells rest).symm

theorem insertEpisodes_ok {id : Option String} {episodes : List EpisodeCells}
    (stored : episodes.foldlM (fun d cells => insertEpisode id cells d) d = .ok next) :
    Changes d (.recordEpisodes id episodes) next := by
  cases episodes with
  | nil =>
    cases stored
    exact .recordNone id
  | cons cells rest =>
    cases id with
    | none =>
      obtain ⟨_, inserted, _⟩ := bind_eq_ok.mp stored
      obtain ⟨_, named, _⟩ := insertEpisode_eq_ok_iff.mp inserted
      cases named
    | some x =>
      obtain ⟨complete, rfl⟩ := insertEpisodes_eq_ok_iff.mp stored
      exact .recordEpisodes (complete cells List.mem_cons_self).1 fun c inside =>
        (complete c inside).2

theorem run_saveCheckpoint (namespace_ key : String) (payload : Option String) (d : Database) :
    (∃ fault, (Database.saveCheckpoint namespace_ key payload).run d = (.error fault, d)) ∨
      ∃ text, payload = some text ∧ (Database.saveCheckpoint namespace_ key payload).run d =
        (.ok (), { d with checkpoints := putCheckpoint namespace_ key text d.checkpoints }) := by
  obtain ⟨isOpen, now, experiments, episodes, evaluations, checkpoints⟩ := d
  cases isOpen with
  | false => exact .inl ⟨_, rfl⟩
  | true =>
    cases payload with
    | none => exact .inl ⟨_, rfl⟩
    | some text => exact .inr ⟨text, rfl, rfl⟩

/-- A call that fails leaves everything as it was. -/
theorem op_error {c : Call} (refused : c.op.run d = (.error fault, next)) : next = d := by
  cases c with
  | create | finish | recordEpisodes | recordEvaluation => exact statement_error refused
  | saveCheckpoint namespace_ key payload =>
    rcases run_saveCheckpoint namespace_ key payload d with ⟨_, ran⟩ | ⟨_, _, ran⟩
    · cases ran.symm.trans refused
      rfl
    · cases ran.symm.trans refused
  | wait | close | reopen => cases refused

theorem op_ok {c : Call} (answered : c.op.run d = (.ok (), next)) : Changes d c next := by
  cases c with
  | create e =>
    obtain ⟨_, ran⟩ := statement_eq_ok_iff.mp answered
    obtain ⟨_, inserted, made⟩ := map_eq_ok.mp ran
    cases made
    exact insertExperiment_ok inserted
  | finish id c =>
    obtain ⟨_, ran⟩ := statement_eq_ok_iff.mp answered
    cases ran
    exact .finish id c
  | recordEpisodes id episodes =>
    obtain ⟨_, ran⟩ := statement_eq_ok_iff.mp answered
    obtain ⟨_, stored, made⟩ := map_eq_ok.mp ran
    cases made
    exact insertEpisodes_ok stored
  | recordEvaluation id episode successRate meanReward metrics =>
    obtain ⟨_, ran⟩ := statement_eq_ok_iff.mp answered
    simp only [bind_eq_ok, require_eq_ok_iff, requireCell_eq_ok_iff] at ran
    obtain ⟨x, rfl, _, ⟨first, rfl⟩, _, ⟨second, rfl⟩, _, ⟨third, rfl⟩, ran⟩ := ran
    split at ran
    · cases ran
    · next known =>
      cases ran
      exact .recordEvaluation metrics (by simpa using known) first second third
  | saveCheckpoint namespace_ key payload =>
    rcases run_saveCheckpoint namespace_ key payload d with ⟨_, ran⟩ | ⟨text, rfl, ran⟩
    · cases ran.symm.trans answered
    · cases ran.symm.trans answered
      exact .saveCheckpoint namespace_ key text
  | wait now =>
    cases answered
    exact .wait now
  | close =>
    cases answered
    exact .close
  | reopen =>
    cases answered
    exact .reopen

/-- Everything that a call can do: it is refused and changes nothing, or it makes the changes of
its kind. -/
theorem op_cases (c : Call) (d : Database) :
    (∃ fault, c.op.run d = (.error fault, d)) ∨
      ∃ next, c.op.run d = (.ok (), next) ∧ Changes d c next := by
  rcases ran : c.op.run d with ⟨fault | answer, next⟩
  · exact .inl ⟨fault, op_error ran ▸ rfl⟩
  · exact .inr ⟨next, rfl, op_ok ran⟩

end Database
end ProgramGym
