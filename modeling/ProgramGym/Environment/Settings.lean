import ProgramGym.Catalog
import ProgramGym.Quantity

/-! Settings of an environment: the step budget, the end token, the window of an observation,
the text between tokens, when programs are run and what an invalid action does. -/
namespace ProgramGym

inductive ExecutionPolicy where
  | onStop
  | everyStep
  deriving DecidableEq, Repr

inductive InvalidActionPolicy where
  | continue
  | terminate
  deriving DecidableEq, Repr

namespace ExecutionPolicy

def name : ExecutionPolicy → String
  | onStop => "on_stop"
  | everyStep => "every_step"

def ofName? (t : Text) : Option ExecutionPolicy := [onStop, everyStep].find? (t == ·.name)

end ExecutionPolicy

namespace InvalidActionPolicy

def name : InvalidActionPolicy → String
  | .continue => "continue"
  | .terminate => "terminate"

def ofName? (t : Text) : Option InvalidActionPolicy :=
  [.continue, .terminate].find? (t == ·.name)

end InvalidActionPolicy

structure Settings where
  maxSteps : Nat
  /-- Without one an episode has no natural stop. -/
  endToken : Option Text
  windowLength : Nat
  separator : Text
  executionPolicy : ExecutionPolicy
  invalidActionPolicy : InvalidActionPolicy
  /-- What was given beside these settings or worded otherwise, kept to be shown. -/
  others : Json.Members Json := []

/-- Settings as asked for; what is left out takes its default. -/
structure SettingsRequest where
  maxSteps : Quantity Float := .count 20
  endToken : Json := .text "END"
  windowLength : Quantity Float := .count 4
  separator : Json := .text ""
  executionPolicy : Json := .text "on_stop"
  invalidActionPolicy : Json := .text "continue"
  others : Json.Members Json := []

namespace SettingsRequest

def names : List Text :=
  ["maxSteps", "endToken", "observationLength", "separator", "executionPolicy",
   "invalidActionPolicy"]

/-- A request from named settings; settings of other names are kept. -/
def ofMembers (members : Json.Members Json) : SettingsRequest :=
  let d : SettingsRequest := {}
  let value (name : Text) (default : Json) : Json := (members.get? name).getD default
  { maxSteps := .ofJsonOr 20 (members.get? "maxSteps")
    endToken := value "endToken" d.endToken
    windowLength := .ofJsonOr 4 (members.get? "observationLength")
    separator := value "separator" d.separator
    executionPolicy := value "executionPolicy" d.executionPolicy
    invalidActionPolicy := value "invalidActionPolicy" d.invalidActionPolicy
    others := members.filter fun (name, _) => !names.contains name }

/-- A separator and an end token that are no text are shown as they were given. -/
def kept (r : SettingsRequest) : Json.Members Json :=
  let worded : Json.Members Json := [("separator", r.separator), ("endToken", r.endToken)]
  worded.filter (·.2.text?.isNone) ++ r.others

end SettingsRequest

namespace Settings

def positive (name : String) (q : Quantity Float) : Except Fault Nat :=
  match q.positive? with
  | some n => .ok n
  | none => .error (.configuration (.notPositive name q.text))

/-- The end token has to be one of the tokens; null stands for none. -/
def endTokenOf (isToken : Json → Bool) (j : Json) : Except Fault (Option Text) :=
  if j.isNull then .ok none
  else if isToken j then .ok (some j.word)
  else .error (.configuration (.endTokenMissing j.plain))

/-- Checks a request against what is known of a vocabulary; the first rule broken is the error. -/
def check (empty repeated : Bool) (isToken : Json → Bool) (r : SettingsRequest) :
    Except Fault Settings := do
  if empty then throw (.configuration .emptyVocabulary)
  if repeated then throw (.configuration .repeatedToken)
  let maxSteps ← positive "maxSteps" r.maxSteps
  let windowLength ← positive "observationLength" r.windowLength
  let endToken ← endTokenOf isToken r.endToken
  let executionPolicy ← match r.executionPolicy.text?.bind ExecutionPolicy.ofName? with
    | some p => pure p
    | none => throw (.configuration (.unknownExecutionPolicy r.executionPolicy.plain))
  let invalidActionPolicy ← match r.invalidActionPolicy.text?.bind InvalidActionPolicy.ofName? with
    | some p => pure p
    | none => throw (.configuration (.unknownInvalidActionPolicy r.invalidActionPolicy.plain))
  pure
    { maxSteps, endToken, windowLength, separator := r.separator.word, executionPolicy
      invalidActionPolicy, others := r.kept }

/-- Checks a request against a vocabulary. -/
def resolve (vocabulary : Vocabulary) (r : SettingsRequest) : Except Fault Settings :=
  check vocabulary.isEmpty (vocabulary.eraseDups.length != vocabulary.length)
    (·.text?.any vocabulary.contains) r

end Settings
end ProgramGym
