import ProgramGym.Environment.Settings
import ProgramGym.Observation
import ProgramGym.Reward

/-! The environment: a program is built one token at a time, run when the policy asks for it,
and scored. A match ends the episode before the step budget does, the budget before the end
token, and the end token before an invalid action. When the interpreter itself fails, the
step counter and the token stay, and nothing else of the step is recorded. The length of a window
and of features is not bounded here: where they take 2^32 entries or more, so that an environment
could be built but not observed, its observation is made of lists all the same (`Observation`). -/
namespace ProgramGym

/-- What stays fixed over the episodes of an environment. -/
structure Rules (α : Type) where
  settings : Settings
  task : Task
  vocabulary : Vocabulary
  interpreter : Interpreter α
  reward : Reward α

structure StepInfo (α : Type) where
  step : Nat
  /-- None for an invalid action. -/
  token : Option Text
  program : Text
  outcome : Outcome α
  reason : Option TerminalReason

structure StepResult (α : Type) where
  observation : Observation α
  reward : α
  done : Bool
  info : StepInfo α

structure Transition (α : Type) where
  observation : Observation α
  action : Quantity α
  reward : α
  nextObservation : Observation α
  done : Bool
  info : StepInfo α

structure Environment (α : Type) where
  rules : Rules α
  /-- Calls of the interpreter so far. -/
  calls : Nat
  episode : Episode α
  transitions : List (Transition α)

/-- The sizes that an agent for an environment has to have. -/
structure Spaces where
  actions : Nat
  features : Nat
  deriving DecidableEq, Repr

namespace Rules
variable {α : Type} [Scalar α]

def shape (r : Rules α) : Observation.Shape :=
  ⟨r.vocabulary.length, r.settings.windowLength, r.settings.maxSteps⟩

def spaces (r : Rules α) : Spaces := ⟨r.vocabulary.length, r.shape.featureCount⟩

/-- The token that an action names, if it is valid. -/
def tokenOf? (r : Rules α) (action : Quantity α) : Option Text :=
  action.index?.bind (r.vocabulary[·]?)

/-- The emitted tokens without the end token, joined. -/
def program (r : Rules α) (tokens : List Text) : Text :=
  Text.join r.settings.separator (tokens.filter fun t => some t != r.settings.endToken)

/-- A program of blanks is never run. -/
def runs (r : Rules α) (program : Text) (isStop : Bool) (stepCount : Nat) : Bool :=
  !program.trim.isEmpty
    && (r.settings.executionPolicy == .everyStep || isStop || r.settings.maxSteps ≤ stepCount)

def reason (r : Rules α) (matched isStop invalid : Bool) (stepCount : Nat) :
    Option TerminalReason :=
  if matched then some .success
  else if r.settings.maxSteps ≤ stepCount then some .maxSteps
  else if isStop then some .naturalStop
  else if invalid && r.settings.invalidActionPolicy == .terminate then some .invalidAction
  else none

end Rules

namespace Environment
variable {α : Type} [Scalar α]

def ofRules (r : Rules α) : Environment α := ⟨r, 0, .start, []⟩

/-- Of all sizes, also of those that no vector can be made for. -/
def observe (env : Environment α) : Observation α := .encode env.rules.shape env.episode

def program (env : Environment α) : Text := env.rules.program env.episode.tokens

def done (env : Environment α) : Bool := env.episode.done

/-- A one for every token: all of them may be emitted at any time. -/
def actionMask (env : Environment α) : List α := env.rules.vocabulary.map fun _ => Scalar.nat 1

def restart (env : Environment α) : Environment α :=
  { env with episode := .start, transitions := [] }

/-- A new episode and its first observation. -/
def reset (env : Environment α) : Observation α × Environment α :=
  (env.restart.observe, env.restart)

/-- Runs the program of the episode when the policy asks for it. -/
def run (env : Environment α) (isStop : Bool) : Except Fault (Outcome α) × Environment α :=
  if env.rules.runs env.program isStop env.episode.stepCount then
    let after := { env with calls := env.calls + 1 }
    match env.rules.interpreter.run after.calls env.program with
    | .ok v =>
      (.ok (.ofVerdict env.rules.interpreter.similarity env.rules.task.expectedOutput v), after)
    | .error e => (.error e, after)
  else (.ok (.skipped none), env)

/-- Records the outcome of a step that began in `before`. -/
def conclude (env before : Environment α) (action : Quantity α) (token : Option Text)
    (isStop : Bool) (outcome : Outcome α) : StepResult α × Environment α :=
  let reason := env.rules.reason outcome.matched isStop token.isNone env.episode.stepCount
  let after := { env with episode := { env.episode with reason, similarity := outcome.similarity } }
  let reward := env.rules.reward.compute before.episode.tokens.length outcome
  let observation := after.observe
  let info : StepInfo α := ⟨after.episode.stepCount, token, after.program, outcome, reason⟩
  let transition : Transition α :=
    ⟨before.observe, action, reward, observation, reason.isSome, info⟩
  (⟨observation, reward, reason.isSome, info⟩,
    { after with transitions := after.transitions ++ [transition] })

/-- An invalid action spends a step, emits nothing and is scored like a program that fails. -/
def step (env : Environment α) (action : Quantity α) :
    Except Fault (StepResult α) × Environment α :=
  if env.done then (.error .episodeOver, env)
  else
    let e := env.episode
    match env.rules.tokenOf? action with
    | none =>
      let spent := { env with episode := { e with stepCount := e.stepCount + 1 } }
      let outcome := .skipped (some (.invalidAction action env.rules.vocabulary.length))
      let (result, after) := spent.conclude env action none false outcome
      (.ok result, after)
    | some token =>
      let spent := { env with
        episode := { e with
          stepCount := e.stepCount + 1
          tokens := e.tokens ++ [token]
          actions := e.actions ++ [action] } }
      let isStop := some token == env.rules.settings.endToken
      match spent.run isStop with
      | (.error fault, after) => (.error fault, after)
      | (.ok outcome, after) =>
        let (result, after) := after.conclude env action (some token) isStop outcome
        (.ok result, after)

/-- The transitions of the episode with what they add up to. -/
structure Trajectory (α : Type) where
  transitions : List (Transition α)
  totalReturn : α
  outcome : Option TerminalReason
  program : Text

def trajectory (env : Environment α) : Trajectory α where
  transitions := env.transitions
  totalReturn := env.transitions.foldl (fun sum t => sum + t.reward) (Scalar.nat 0)
  outcome := env.episode.reason
  program := env.program

def render (env : Environment α) : String :=
  let status := match env.episode.reason with
    | some reason => s!" [{reason.name}]"
    | none => ""
  s!"Step {env.episode.stepCount}/" ++ Number.text (Float.ofNat env.rules.settings.maxSteps)
    ++ status ++ "\n" ++ env.program.toString

end Environment

/-- An environment whose settings pass against the vocabulary. -/
def Environment.create (task : Task) (vocabulary : Vocabulary) (interpreter : Interpreter Float)
    (reward : Reward Float) (request : SettingsRequest) : Except Fault (Environment Float) := do
  let settings ← Settings.resolve vocabulary request
  pure (.ofRules ⟨settings, task, vocabulary, interpreter, reward⟩)

/-- An environment for a task of a catalog. Without an interpreter the one of the language is
taken, before the task is looked up. -/
def Environment.forTask (catalog : Catalog) (language id : Text) (reward : Reward Float)
    (request : SettingsRequest) (interpreter : Option (Interpreter Float)) :
    Except Fault (Environment Float) := do
  let interpreter ← match interpreter with
    | some i => pure i
    | none => Interpreter.ofLanguage language
  let task ← catalog.findTask language id
  let vocabulary ← catalog.vocabulary language
  Environment.create task vocabulary interpreter reward request

end ProgramGym
