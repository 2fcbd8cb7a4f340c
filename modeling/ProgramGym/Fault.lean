import ProgramGym.AgentKind
import ProgramGym.Json.Wording

/-! What can go wrong outside an episode, by cause, with the wording in one place. A bad action
or a program that does not run is no fault: it becomes a reward. -/
namespace ProgramGym

/-- A range of numbers with open or closed ends. -/
structure Range where
  low : Float
  high : Float
  lowOpen : Bool
  highOpen : Bool

namespace Range

def contains (r : Range) (x : Float) : Bool :=
  x.isFinite && (if r.lowOpen then !(x ≤ r.low) else !(x < r.low))
    && (if r.highOpen then !(x ≥ r.high) else !(x > r.high))

/-- A range with the wordings of its ends. -/
def between (lowOpen highOpen : Bool) (low high : String) : String :=
  (if lowOpen then "(" else "[") ++ low ++ ", " ++ high ++ (if highOpen then ")" else "]")

def text (r : Range) : String :=
  between r.lowOpen r.highOpen (Number.text r.low) (Number.text r.high)

end Range

/-- A setting, name or stored document that is refused, with the wordings of what was given. -/
inductive Misconfiguration where
  | notPositive (name value : String)
  | negativeCount (name value : String)
  | notWhole (name value : String)
  | outOfRange (name range value : String)
  | floorAboveStart (floor start : Float)
  | unknownSettings (agent : String) (names : List String)
  | emptyVocabulary
  | repeatedToken
  | endTokenMissing (token : String)
  | unknownExecutionPolicy (name : String)
  | unknownInvalidActionPolicy (name : String)
  | notFinite (reward setting : String)
  | negativeWeight (reward settings : String)
  | targetNotPositive
  | unknownReward (name : String)
  | unknownAgent (name : String)
  | unknownLanguage (name : String) (known : List String)
  | noVocabulary (language : String)
  | duplicateTask (key : String)
  | catalogUnreadable (path reason : String)
  | catalogNotObject
  | vocabulariesNotObject
  | vocabularyNotStrings (language : String)
  | tasksNotArray
  | taskNotObject (index : Nat)
  | taskFieldsMissing (index : Nat)
  | stateNotJson
  | stateNotObject
  | stateIncomplete
  | kindMismatch (saved own : AgentKind)
  | shapeMismatch (savedActions savedFeatures : Float) (actions features : Nat)
  | weightsMisshapen (actions features : Nat)
  | featureLength (got : String) (expected : Nat)
  | actionOutside (action : String) (actions : Nat)
  | noStages
  | stageSpaces (stage : String) (actions features expectedActions expectedFeatures : Nat)
  | valueMissing (flag : String)
  | notInteger (flag : String) (least : Nat) (given : String)
  | unknownOption (option : String)
  | unknownCommand (name : String)
  | noTasks (language : String)
  | experimentRequired
  | experimentNotFound (id : String)
  | experimentUntrained (id : String)

namespace Misconfiguration

def shape (actions features : Nat) : String := s!"{actions}x{features}"

def message : Misconfiguration → String
  | notPositive name value => s!"{name} must be a positive integer, got {value}"
  | negativeCount name value => s!"{name} must be a non-negative integer, got {value}"
  | notWhole name value => s!"{name} must be an integer, got {value}"
  | outOfRange name range value => s!"{name} must be in {range}, got {value}"
  | floorAboveStart floor start =>
    s!"epsilonMin ({Number.text floor}) must not exceed epsilon ({Number.text start})"
  | unknownSettings agent names =>
    "Unknown " ++ agent ++ " config key(s): " ++ ", ".intercalate names
  | emptyVocabulary => "Vocabulary must not be empty"
  | repeatedToken => "Vocabulary tokens must be unique"
  | endTokenMissing token => s!"End token '{token}' is not in the vocabulary"
  | unknownExecutionPolicy name => s!"Unknown execution policy: {name}"
  | unknownInvalidActionPolicy name => s!"Unknown invalid-action policy: {name}"
  | notFinite reward setting => s!"{reward}.{setting} must be a finite number"
  | negativeWeight reward settings => s!"{reward}.{settings} must be >= 0"
  | targetNotPositive => "efficiency.targetLength must be a positive integer"
  | unknownReward name => s!"Unknown reward function: {name}"
  | unknownAgent name =>
    "Unknown agent type: " ++ name ++ ". Available: "
      ++ ", ".intercalate (AgentKind.aliases.map (·.1))
  | unknownLanguage name known =>
    "Unknown DSL: " ++ name ++ ". Available: " ++ ", ".intercalate known
  | noVocabulary language => s!"No vocabulary for DSL: {language}"
  | duplicateTask key => s!"Duplicate task {key}"
  | catalogUnreadable path reason => s!"Cannot read task catalog {path}: {reason}"
  | catalogNotObject => "Task catalog must be a JSON object"
  | vocabulariesNotObject => "'vocabularies' must be an object"
  | vocabularyNotStrings language => s!"Vocabulary for {language} must be a string array"
  | tasksNotArray => "'tasks' must be an array"
  | taskNotObject index => s!"Task #{index} is not an object"
  | taskFieldsMissing index => s!"Task #{index} needs string id, dslName, source and expectedOutput"
  | stateNotJson => "Agent state is not valid JSON"
  | stateNotObject => "Agent state must be a JSON object"
  | stateIncomplete => "Agent state is missing required fields"
  | kindMismatch saved own => s!"Cannot load {saved.name} state into a {own.name} agent"
  | shapeMismatch savedActions savedFeatures actions features =>
    s!"Saved state has shape {Number.text savedActions}x{Number.text savedFeatures}, agent has "
      ++ shape actions features
  | weightsMisshapen actions features => s!"Saved weights are not {shape actions features}"
  | featureLength got expected => s!"Feature vector has length {got}, agent expects {expected}"
  | actionOutside action actions =>
    s!"Action {action} is outside the agent's action space [0, {actions})"
  | noStages => "Curriculum needs at least one stage"
  | stageSpaces stage actions features expectedActions expectedFeatures =>
    s!"Stage {stage} has spaces {shape actions features}, expected "
      ++ shape expectedActions expectedFeatures
  | valueMissing flag => s!"{flag} needs a value"
  | notInteger flag least given => s!"{flag} expects an integer >= {least}, got '{given}'"
  | unknownOption option => s!"Unknown option: {option}"
  | unknownCommand name => s!"Unknown command: {name}"
  | noTasks language => s!"No tasks for DSL: {language}"
  | experimentRequired => "evaluate needs --continue <experiment-id>"
  | experimentNotFound id => s!"Experiment not found: {id}"
  | experimentUntrained id => s!"Experiment has no saved agent state: {id}"

end Misconfiguration

/-- Why the file system refuses. -/
inductive SystemCause where
  | missing
  | notDirectory
  | isDirectory
  | occupied
  | nameTooLong
  deriving DecidableEq, Repr

namespace SystemCause

def code : SystemCause → String
  | missing => "ENOENT"
  | notDirectory => "ENOTDIR"
  | isDirectory => "EISDIR"
  | occupied => "EEXIST"
  | nameTooLong => "ENAMETOOLONG"

def text : SystemCause → String
  | missing => "no such file or directory"
  | notDirectory => "not a directory"
  | isDirectory => "illegal operation on a directory"
  | occupied => "file already exists"
  | nameTooLong => "name too long"

end SystemCause

/-- What the file system refuses, on which path. -/
structure SystemError where
  cause : SystemCause
  action : String
  path : String
  deriving DecidableEq, Repr

def SystemError.message (e : SystemError) : String :=
  s!"{e.cause.code}: {e.cause.text}, {e.action} '{e.path}'"

/-- A statement that the database refuses. -/
inductive DatabaseError where
  | nullValue (table column : String)
  | check (condition : String)
  | duplicate (table column : String)
  | noExperiment
  | closed
  deriving DecidableEq, Repr

def DatabaseError.message : DatabaseError → String
  | nullValue table column => s!"NOT NULL constraint failed: {table}.{column}"
  | check condition => s!"CHECK constraint failed: {condition}"
  | duplicate table column => s!"UNIQUE constraint failed: {table}.{column}"
  | noExperiment => "FOREIGN KEY constraint failed"
  | closed => "The database connection is not open"

/-- What a checkpoint store answers when it cannot serve a key. -/
inductive CheckpointError where
  | invalidKey
  | notFound
  | writeFailed (reason : String)
  | readFailed (reason : String)
  | reported (message : String)

def CheckpointError.message (key : String) : CheckpointError → String
  | invalidKey => s!"Invalid checkpoint key: {key}"
  | notFound => s!"Checkpoint not found: {key}"
  | writeFailed reason => s!"Failed to write checkpoint {key}: {reason}"
  | readFailed reason => s!"Failed to read checkpoint {key}: {reason}"
  | reported message => message

inductive Fault where
  | configuration (cause : Misconfiguration)
  | unknownTask (language id : Option Json)
  | episodeOver
  | checkpoint (key : String) (cause : CheckpointError)
  /-- A store is asked for a key that is no text. -/
  | foreignKey (key : Option Json) (cause : CheckpointError)
  | database (cause : DatabaseError)
  | system (cause : SystemError)
  /-- An error of an interpreter or a store that was supplied from outside. -/
  | failure (message : String)
  /-- A value thrown by such a part that is no error, as text. -/
  | thrown (value : String)
  /-- The time of the last update is no date and cannot be written. -/
  | noDate
  /-- A vector of this length cannot be built. -/
  | badLength
  /-- A statement is given more values or fewer than it has places. -/
  | badArity
  /-- A value of a kind that the operation cannot take. -/
  | wrongKind

namespace Fault

def message : Fault → String
  | configuration cause => cause.message
  | unknownTask language id => s!"Unknown task {Json.wording language}/{Json.wording id}"
  | episodeOver => "Episode is done. Call reset() to start a new episode."
  | checkpoint key cause => cause.message key
  | foreignKey key cause => cause.message (Json.wording key)
  | database cause => cause.message
  | system cause => cause.message
  | failure message => message
  | thrown value => value
  | noDate => "Invalid time value"
  | badLength => "Invalid array length"
  | badArity => "Too few parameter values were provided"
  | wrongKind => "Wrong kind of value"

/-- Faults of what the caller asked for, among them a task that does not exist. -/
def isConfiguration : Fault → Bool
  | configuration _ | unknownTask .. => true
  | _ => false

end Fault

/-- An operation on a state that may fail. What it has done to the state by then stays done. -/
abbrev Op (σ : Type) := ExceptT Fault (StateM σ)

namespace Op
variable {σ τ β : Type}

def refuse (cause : Misconfiguration) : Op σ β := throw (.configuration cause)

/-- The outcome as a value, the state as the operation left it. -/
def attempt (op : Op σ β) : Op σ (Except Fault β) := fun s =>
  match op.run s with
  | (outcome, s) => (.ok outcome, s)

/-- Runs an operation on a part of a state. -/
def onPart (get : τ → σ) (set : τ → σ → τ) (op : Op σ β) : Op τ β := fun t =>
  match op.run (get t) with
  | (outcome, s) => (outcome, set t s)

def ofExcept : Except Fault β → Op σ β
  | .ok b => pure b
  | .error e => throw e

end Op
end ProgramGym
