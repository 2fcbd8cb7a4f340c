import ProgramGym.Json.Wording
import ProgramGym.Storage.Database.Rows

/-! Statements whose values are given as JSON. A statement is prepared first, which takes an open
database, and then its values are bound: numbers, texts and null. A truth value cannot be
bound, and an object or a list of other than one value leaves places without a value. -/
namespace ProgramGym
open Json

namespace Cell

/-- A value as it is bound. A list stands for its items. -/
def bind : Option Json → Except Fault Cell
  | none | some .null => .ok null
  | some (.number x) => .ok (ofNumber x)
  | some (.text t) => .ok (text t.toString)
  | some (.bool _) => .error .wrongKind
  | some (.array [.number x]) => .ok (ofNumber x)
  | some (.array [.text t]) => .ok (text t.toString)
  | some (.array [.null]) => .ok null
  | some (.array _) | some (.object _) => .error .badArity

/-- All values of a statement; one that cannot be bound is noticed before a missing one. -/
def bindAll (values : List (Option Json)) : Except Fault (List Cell) :=
  let isBool (j : Option Json) : Bool := (j.bind bool?).isSome
  if values.any isBool then .error .wrongKind else values.mapM bind

end Cell

namespace Database

/-- The text of a field that holds. -/
def document? (j : Json) (name : Text) : Option Json :=
  ((j.get? name).filter holds).map fun d => .text d.compact

/-- Refuses a closed database. -/
def prepared : Op Database Unit := statement fun d => .ok ((), d)

/-- The members of what is to be stored. -/
def record (j : Option Json) : Op Database Json :=
  match j with
  | none | some .null => throw .wrongKind
  | some j => pure j

def idOf (id : Option Json) : Op Database (Option String) := do
  let cell ← Op.ofExcept (Cell.bind id)
  pure cell.asText?

/-- Stores an experiment from a document. -/
def createFrom (data : Option Json) : Op Database Unit := do
  prepared
  let j ← record data
  let cells ← Op.ofExcept (Cell.bindAll
    [j.get? "id", j.get? "type", j.get? "agentType", j.get? "dslName", j.get? "taskId",
     j.get? "rewardName", document? j "config"])
  match cells.map Cell.asText? with
  | [id, type, agent, language, task, reward, config] =>
    createExperiment { id, type, agent, language, task, reward, config }
  | _ => pure ()

def finishFrom (id data : Option Json) : Op Database Unit := do
  prepared
  let j ← record data
  let cells ← Op.ofExcept (Cell.bindAll
    [document? j "finalMetrics", j.get? "agentState", j.get? "trainTimeMs", id])
  match cells with
  | [metrics, state, time, id] =>
    finishExperiment id.asText?
      { finalMetrics := metrics.asText?, agentState := state.asText?, trainTime := time.asNumber }
  | _ => pure ()

def getFrom (id : Option Json) : Op Database (Option ExperimentRow) := do
  prepared
  getExperiment (← idOf id)

/-- All experiments, or those of a type that holds. -/
def listFrom (type : Option Json) : Op Database (List ExperimentRow) := do
  prepared
  listExperiments (← idOf (type.filter holds))

/-- The cells of an episode whose success is whether it holds. -/
def episodeCells (id : Option Json) (j : Json) : Except Fault EpisodeCells := do
  if j.isNull then throw .wrongKind
  let cells ← Cell.bindAll
    [id, j.get? "episode", j.get? "totalReward", j.get? "steps", j.get? "terminalReason",
     j.get? "program"]
  match cells with
  | [_, episode, totalReward, steps, reason, program] =>
    pure
      { episode := episode.asNumber, totalReward := totalReward.asNumber
        success := holdsOf (j.get? "success"), steps := steps.asNumber
        reason := reason.asText?, program := program.asText? }
  | _ => throw .badArity

/-- One row after the other; all of them or none. -/
def recordFrom (id records : Option Json) : Op Database Unit := do
  prepared
  let items ← match records with
    | some (.array items) => pure items
    | some (.text t) => pure (t.points.map Json.text)
    | _ => throw .wrongKind
  statement fun d => do
    let d ← items.foldlM (fun d j => do
      let cells ← episodeCells id j
      let bound ← Cell.bind id
      insertEpisode bound.asText? cells d) d
    pure ((), d)

def evaluationFrom (id episode metrics : Option Json) : Op Database Unit := do
  prepared
  let m ← record metrics
  let cells ← Op.ofExcept (Cell.bindAll [id, episode, m.get? "successRate", m.get? "meanReward"])
  match cells with
  | [id, episode, success, reward] =>
    recordEvaluation id.asText? episode.asNumber success.asNumber reward.asNumber m.compact
  | _ => pure ()

def episodesOf (id : Option Json) : Op Database (List EpisodeRow) := do
  prepared
  listEpisodes (← idOf id)

def evaluationsOf (id : Option Json) : Op Database (List EvaluationRow) := do
  prepared
  listEvaluations (← idOf id)

def statsFrom (id : Option Json) : Op Database ExperimentStats := do
  prepared
  stats (← idOf id)

/-- What is said of a value that cannot be bound. -/
def bindComplaint : Fault → String
  | .wrongKind => "SQLite3 can only bind numbers, strings, bigints, buffers, and null"
  | fault => fault.message

/-- The namespace that is named, or the usual one. -/
def namespaceOf : Option Json → Option Json
  | none | some .null => some (.text defaultNamespace)
  | j => j

/-- A fault about a key, which is shown as it was given. -/
def keyFault (key : Option Json) (cause : CheckpointError) : Fault :=
  match key with
  | some (.text t) => .checkpoint t.toString cause
  | key => .foreignKey key cause

/-- Every failure to store a payload is one of the store. -/
def saveFrom (space key payload : Option Json) : Op Database Unit := do
  let attempt : Op Database Unit := do
    prepared
    let cells ← Op.ofExcept (Cell.bindAll [namespaceOf space, key, payload])
    statement fun d => do
      match cells.map Cell.asText? with
      | [space, key, payload] =>
        let space ← require "checkpoints" "namespace" space
        let key ← require "checkpoints" "key" key
        let payload ← require "checkpoints" "payload" payload
        pure ((), { d with checkpoints := putCheckpoint space key payload d.checkpoints })
      | _ => refuse .closed
  match ← attempt.attempt with
  | .ok () => pure ()
  | .error fault => throw (keyFault key (.writeFailed (bindComplaint fault)))

def loadFrom (space key : Option Json) : Op Database String := do
  prepared
  let cells ← Op.ofExcept (Cell.bindAll [namespaceOf space, key])
  match cells.map Cell.asText? with
  | [some space, some k] =>
    match ← ((store space).load k).attempt with
    | .ok payload => pure payload
    | .error (.checkpoint ..) => throw (keyFault key .notFound)
    | .error fault => throw fault
  | _ => throw (keyFault key .notFound)

def keysFrom (space : Option Json) : Op Database (List String) := do
  prepared
  match ← idOf (namespaceOf space) with
  | some space => (store space).list
  | none => pure []

end Database
end ProgramGym
