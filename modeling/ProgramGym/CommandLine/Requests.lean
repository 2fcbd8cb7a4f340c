import ProgramGym.CommandLine.Options

/-! Options from arguments and variables that are given as JSON of any kind. A variable that is
no text counts as a seed by the number it can be read as, and as a directory by itself. -/
namespace ProgramGym.CommandLine.Options
open Json

/-- Arguments are read from the left up to the first that is no text, which no rule admits. -/
def parseArguments (arguments : List Json) (vars : Variables) : Except Fault Options :=
  let texts := ((arguments.map Json.string?).takeWhile (·.isSome)).filterMap id
  if texts.length == arguments.length then parse texts vars
  else match readArguments (texts ++ [""]) with
    | .error cause => .error (.configuration cause)
    | .ok _ => .error .wrongKind

def textVariables (vars : Members Json) : Variables :=
  vars.filterMap fun (name, v) => v.string?.map (name.toString, ·)

/-- A variable that is given and is no text. -/
def otherVariable? (vars : Members Json) (name : Text) : Option Json :=
  (vars.get? name).filter (·.text?.isNone)

/-- The seed that a variable which is no text gives. -/
def seedOf (j : Json) : Except Fault (Quantity Float) :=
  let q : Quantity Float := .ofScalar j.toNumber
  if admits 0 q then .ok q else .error (.configuration (.notInteger Flag.seed.text 0 j.plain))

/-- Whether a flag is among the arguments, with its value. -/
def gives (f : Flag) (arguments : List Json) : Bool :=
  match readArguments (arguments.filterMap Json.string?) with
  | .ok arguments => (valueOf? f arguments).isSome
  | .error _ => false

/-- The options by name, as arguments and variables give them. -/
def shown (arguments vars : Option Json) : Except Fault Json :=
  match arguments with
  | none | some .null => .error .wrongKind
  | some j => do
    let arguments := j.elements?.getD []
    let vars := Json.spread vars
    let options ← parseArguments arguments (textVariables vars)
    let seed ← match otherVariable? vars "RL_SEED" with
      | some j => if gives .seed arguments then pure options.seed else some <$> seedOf j
      | none => pure options.seed
    let directory := (otherVariable? vars "RL_LOG_DIR").filter fun j =>
      !Json.isNull j && !gives .directory arguments
    pure (.object (Members.override (({ options with seed }.json).members?.getD [])
      (.optional "logDir" directory)))

end ProgramGym.CommandLine.Options
