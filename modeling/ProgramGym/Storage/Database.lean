import ProgramGym.Calendar
import ProgramGym.Metrics
import ProgramGym.Storage.Checkpoints

/-! A database of experiments, their episodes and evaluations, and checkpoints by namespace.
A statement first requires the values that may not be missing, then the listed ones, then a
new key, then an experiment to refer to; if it is refused no table changes. A number that is
none is stored as a missing value. -/
namespace ProgramGym

/-- A column's value. -/
inductive Cell where
  | null
  | number (x : Float)
  | text (s : String)

namespace Cell

def ofNumber (x : Float) : Cell := if x.isNaN then null else if x == 0 then number 0 else number x

def ofText : Option String → Cell
  | some s => text s
  | none => null

def json : Cell → Json
  | null => .null
  | number x => .number x
  | text s => .text s

def isNull : Cell → Bool
  | null => true
  | _ => false

/-- Numbers in columns of text have fifteen digits at most and always a point; they are written
in full from a ten-thousandth to below 10^15. -/
def columnNotation : Notation := ⟨-4, 15⟩

/-- A point and a zero where digits have no fraction, and two digits for an exponent. -/
def pointed (digits exponent : List Char) : List Char :=
  let body := if digits.contains '.' then digits else digits ++ ['.', '0']
  match exponent with
  | e :: sign :: [d] => body ++ [e, sign, '0', d]
  | exponent => body ++ exponent

def realText (x : Float) : String :=
  match Binary64.ofFloat (Number.toSignificant x 15) with
  | .notANumber => ""
  | .infinite negative => if negative then "-Inf" else "Inf"
  | .finite negative mantissa exponent =>
    let cs := if mantissa == 0 then ['0'] else columnNotation.magnitudeChars mantissa exponent
    let (digits, tail) := cs.span (· != 'e')
    String.ofList ((if negative && mantissa != 0 then ['-'] else []) ++ pointed digits tail)

/-- The value in a column of text. -/
def asText? : Cell → Option String
  | null => none
  | number x => some (realText x)
  | text s => some s

def isNumeralChar (c : Char) : Bool :=
  Numeral.isDigit c || c == '+' || c == '-' || c == '.' || c == 'e' || c == 'E'

/-- The value in a column of numbers, where a text that is a decimal numeral is its number. -/
def asNumber : Cell → Cell
  | text s =>
    let cs := Text.trimChars s.toList
    match if cs.all isNumeralChar then Numeral.decimal? cs else none with
    | some n => ofNumber n.toFloat
    | none => text s
  | c => c

end Cell

structure ExperimentRow where
  id : Option String
  type : String
  agent : Option String
  language : String
  task : String
  reward : Option String
  config : Option String
  completed : Bool
  finalMetrics : Option String
  agentState : Option String
  trainTime : Cell
  created : String

namespace ExperimentRow

def completedStatus : String := "completed"

def runningStatus : String := "running"

def status (r : ExperimentRow) : String := if r.completed then completedStatus else runningStatus

end ExperimentRow

/-- An experiment to be stored. -/
structure NewExperiment where
  id : Option String
  type : Option String
  agent : Option String
  language : Option String
  task : Option String
  reward : Option String
  config : Option String

/-- What is stored when an experiment is finished. -/
structure Completion where
  finalMetrics : Option String
  agentState : Option String
  trainTime : Cell

/-- An episode to be stored. -/
structure EpisodeCells where
  episode : Cell
  totalReward : Cell
  success : Bool
  steps : Cell
  reason : Option String
  program : Option String

structure EpisodeRow where
  id : Nat
  experiment : String
  cells : EpisodeCells

structure EvaluationRow where
  id : Nat
  experiment : String
  episode : Cell
  successRate : Cell
  meanReward : Cell
  metrics : String

structure CheckpointRow where
  namespace_ : String
  key : String
  payload : String

structure Database where
  isOpen : Bool
  /-- The time that new rows are stamped with. -/
  now : Instant
  experiments : List ExperimentRow
  episodes : List EpisodeRow
  evaluations : List EvaluationRow
  checkpoints : List CheckpointRow

/-- Figures over the episodes of an experiment. -/
structure ExperimentStats where
  totalEpisodes : Nat
  averageReward : Float
  successRate : Float
  outcomes : Json.Members Nat

def EpisodeCells.ofRecord (r : EpisodeRecord Float) : EpisodeCells where
  episode := .ofNumber (Float.ofNat r.episode)
  totalReward := .ofNumber r.totalReward
  success := r.success
  steps := .ofNumber (Float.ofNat r.steps)
  reason := r.reason.map (·.name)
  program := some r.program.toString

namespace Database

def empty (now : Instant) : Database := ⟨true, now, [], [], [], []⟩

def experimentTypes : List String := ["training", "comparison", "curriculum"]

def refuse {β : Type} (e : DatabaseError) : Except Fault β := .error (.database e)

def require {β : Type} (table column : String) : Option β → Except Fault β
  | some b => .ok b
  | none => refuse (.nullValue table column)

def requireCell (table column : String) (c : Cell) : Except Fault Cell :=
  if c.isNull then refuse (.nullValue table column) else .ok c

def listed (names : List String) : String :=
  "(" ++ ", ".intercalate (names.map fun n => "'" ++ n ++ "'") ++ ")"

def requireListed (column : String) (names : List String) (value : String) : Except Fault Unit :=
  if names.contains value then .ok () else refuse (.check (column ++ " IN " ++ listed names))

def requireOpen (d : Database) : Except Fault Unit :=
  if d.isOpen then .ok () else refuse .closed

/-- A missing identifier equals none, not even another missing one. -/
def sameId (a b : Option String) : Bool := a.isSome && a == b

def hasExperiment (d : Database) (id : String) : Bool := d.experiments.any (·.id == some id)

/-- A statement as an operation: what it gives back and the tables after it. -/
def statement {β : Type} (run : Database → Except Fault (β × Database)) : Op Database β := fun d =>
  match d.requireOpen.bind fun () => run d with
  | .ok (b, d) => (.ok b, d)
  | .error e => (.error e, d)

def query {β : Type} (run : Database → β) : Op Database β := statement fun d => .ok (run d, d)

def insertExperiment (e : NewExperiment) (d : Database) : Except Fault Database := do
  let type ← require "experiments" "type" e.type
  let language ← require "experiments" "dsl_name" e.language
  let task ← require "experiments" "task_id" e.task
  requireListed "type" experimentTypes type
  match e.agent with
  | some agent => requireListed "agent_type" (AgentKind.all.map (·.name)) agent
  | none => pure ()
  if d.experiments.any (sameId e.id ·.id) then refuse (.duplicate "experiments" "id")
  let row : ExperimentRow :=
    { id := e.id, type, agent := e.agent, language, task, reward := e.reward, config := e.config
      completed := false, finalMetrics := none, agentState := none, trainTime := .null
      created := d.now.plainText }
  pure { d with experiments := d.experiments ++ [row] }

def createExperiment (e : NewExperiment) : Op Database Unit :=
  statement fun d => (insertExperiment e d).map ((), ·)

/-- Nothing happens when there is no such experiment. -/
def finishExperiment (id : Option String) (c : Completion) : Op Database Unit :=
  statement fun d => .ok ((), { d with
    experiments := d.experiments.map fun row =>
      if sameId id row.id then
        { row with
          completed := true
          finalMetrics := c.finalMetrics
          agentState := c.agentState
          trainTime := c.trainTime }
      else row })

def getExperiment (id : Option String) : Op Database (Option ExperimentRow) :=
  query fun d => d.experiments.find? (sameId id ·.id)

/-- Missing identifiers sort first, texts by code point. -/
def idLe : Option String → Option String → Bool
  | none, _ => true
  | some _, none => false
  | some a, some b => !(b < a)

/-- Latest first, then by identifier. -/
def experimentLe (a b : ExperimentRow) : Bool :=
  if a.created == b.created then idLe a.id b.id else b.created < a.created

/-- All experiments, or those of one type. -/
def listExperiments (type : Option String) : Op Database (List ExperimentRow) :=
  query fun d =>
    (d.experiments.filter fun row => type.all fun t => t.isEmpty || row.type == t).mergeSort
      experimentLe

def insertEpisode (experiment : Option String) (cells : EpisodeCells) (d : Database) :
    Except Fault Database := do
  let experiment ← require "episodes" "experiment_id" experiment
  let episode ← requireCell "episodes" "episode_num" cells.episode
  let totalReward ← requireCell "episodes" "total_reward" cells.totalReward
  let steps ← requireCell "episodes" "steps" cells.steps
  if !d.hasExperiment experiment then refuse .noExperiment
  let row : EpisodeRow :=
    ⟨d.episodes.length + 1, experiment, { cells with episode, totalReward, steps }⟩
  pure { d with episodes := d.episodes ++ [row] }

/-- All episodes or none. -/
def recordEpisodes (experiment : Option String) (episodes : List EpisodeCells) : Op Database Unit :=
  statement fun d =>
    (episodes.foldlM (fun d cells => insertEpisode experiment cells d) d).map ((), ·)

def cellLe : Cell → Cell → Bool
  | .null, _ => true
  | .number _, .null => false
  | .number x, .number y => !(y < x)
  | .number _, .text _ => true
  | .text _, .null | .text _, .number _ => false
  | .text a, .text b => !(b < a)

def listEpisodes (experiment : Option String) : Op Database (List EpisodeRow) :=
  query fun d => (d.episodes.filter (some ·.experiment == experiment)).mergeSort
    fun a b => cellLe a.cells.episode b.cells.episode

def recordEvaluation (experiment : Option String) (episode successRate meanReward : Cell)
    (metrics : String) : Op Database Unit :=
  statement fun d => do
    let experiment ← require "evaluations" "experiment_id" experiment
    let episode ← requireCell "evaluations" "episode_num" episode
    let successRate ← requireCell "evaluations" "success_rate" successRate
    let meanReward ← requireCell "evaluations" "mean_reward" meanReward
    if !d.hasExperiment experiment then refuse .noExperiment
    let row : EvaluationRow :=
      ⟨d.evaluations.length + 1, experiment, episode, successRate, meanReward, metrics⟩
    pure ((), { d with evaluations := d.evaluations ++ [row] })

def listEvaluations (experiment : Option String) : Op Database (List EvaluationRow) :=
  query fun d => (d.evaluations.filter (some ·.experiment == experiment)).mergeSort
    fun a b => cellLe a.episode b.episode

/-- The name under which episodes without a reason are counted. -/
def noReason : String := "NONE"

/-- The name that no count can be kept under. -/
def reservedName : String := "__proto__"

/-- How often each value occurs, by its group in ascending order, missing values first. -/
def groupCounts (reasons : List (Option String)) : List (Option String × Nat) :=
  (reasons.eraseDups.mergeSort idLe).map fun r => (r, (reasons.filter (· == r)).length)

def outcomeCounts (reasons : List (Option String)) : Json.Members Nat :=
  ((groupCounts reasons).foldl (fun (counts : Json.Members Nat) (reason, n) =>
    counts.put (reason.getD noReason) n) []).filter (·.1 != reservedName)

def rewardOf (row : EpisodeRow) : Float :=
  match row.cells.totalReward with
  | .number x => x
  | _ => 0

/-- A sum with what rounding lost on the way added at the end. -/
def compensatedSum (xs : List Float) : Float :=
  let (sum, lost) := xs.foldl (fun (p : Float × Float) x =>
    let next := p.1 + x
    let part := if x.abs < p.1.abs then (p.1 - next) + x else (x - next) + p.1
    (next, p.2 + part)) (0, 0)
  if lost.isFinite then sum + lost else sum

def statsOf (rows : List EpisodeRow) : ExperimentStats :=
  let total := rows.length
  let average := compensatedSum (rows.map rewardOf) / Float.ofNat total
  let successes := (rows.filter (·.cells.success)).length
  { totalEpisodes := total
    averageReward := if average.isNaN then 0 else average
    successRate := if total == 0 then 0 else Float.ofNat successes / Float.ofNat total
    outcomes := outcomeCounts (rows.map (·.cells.reason)) }

def stats (experiment : Option String) : Op Database ExperimentStats :=
  query fun d => statsOf (d.episodes.filter (some ·.experiment == experiment))

def close : Op Database Unit := fun d => (.ok (), { d with isOpen := false })

/-- Replaces the row of a namespace and key, or adds one. -/
def putCheckpoint (namespace_ key payload : String) : List CheckpointRow → List CheckpointRow
  | [] => [⟨namespace_, key, payload⟩]
  | row :: rest =>
    if row.namespace_ == namespace_ && row.key == key then { row with payload } :: rest
    else row :: putCheckpoint namespace_ key payload rest

/-- Stores a payload under a key of a namespace; a missing one is refused. -/
def saveCheckpoint (namespace_ key : String) (payload : Option String) : Op Database Unit := fun d =>
  let op : Op Database Unit := statement fun d => do
    let payload ← require "checkpoints" "payload" payload
    pure ((), { d with checkpoints := putCheckpoint namespace_ key payload d.checkpoints })
  match op.run d with
  | (.ok (), d) => (.ok (), d)
  | (.error e, d) => (.error (.checkpoint key (.writeFailed e.message)), d)

def defaultNamespace : String := "default"

/-- The checkpoints of one namespace. -/
def store (namespace_ : String) : CheckpointStore Database where
  save key payload := saveCheckpoint namespace_ key (some payload)
  load key := statement fun d =>
    match d.checkpoints.find? fun row => row.namespace_ == namespace_ && row.key == key with
    | some row => .ok (row.payload, d)
    | none => .error (.checkpoint key .notFound)
  list := query fun d =>
    ((d.checkpoints.filter (·.namespace_ == namespace_)).map (·.key)).mergeSort
      fun a b => !(b < a)

end Database
end ProgramGym
