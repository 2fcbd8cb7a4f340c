import ProgramGym.Catalog.Reader
import ProgramGym.Environment
import ProgramGym.Environment.Documents
import ProgramGym.Interpreter.Reader
import ProgramGym.Reward.Reader

/-! Environments from JSON: for a task of a catalog, or from a task and a vocabulary that are
given themselves. Parts are built in a fixed order, and the first that is refused is the error. -/
namespace ProgramGym.Environment

/-- Without a text to be found no output can be compared. -/
def interpreterFor (task : Task) (i : Interpreter Float) : Interpreter Float :=
  match task.given with
  | some j =>
    match j.get? "expectedOutput" with
    | some (.text _) => i
    | _ => i.refusingOutput
  | none => i

/-- For a task of a catalog, by names of any kind. -/
def asked (catalog : Catalog) (language id : Option Json) (reward : Reward Float)
    (request : SettingsRequest) (interpreter : Option (Interpreter Float)) :
    Except Fault (Environment Float) := do
  let interpreter ← match interpreter with
    | some i => pure i
    | none => Interpreter.named language
  let task ← catalog.findAsked language id
  let vocabulary ← catalog.vocabularyAsked language
  create task vocabulary (interpreterFor task interpreter) reward request

/-- From parts that are given themselves. -/
def ofParts (j vocabulary : Json) : Except Fault (Environment Float) := do
  let design ← RewardDesign.ofJson (j.get? "reward")
  let interpreter ← Interpreter.ofJson ((j.get? "executor").getD .null)
  let settings ← Documents.settings vocabulary (.ofMembers (Json.spread (j.get? "config")))
  let tokens ← Catalog.takeTokens vocabulary
  match j.get? "task" with
  | none | some .null => throw .wrongKind
  | some given =>
    let task := Catalog.takeTask given
    pure (.ofRules ⟨settings, task, tokens, interpreterFor task interpreter, design.reward⟩)

def ofJson (j : Json) : Except Fault (Environment Float) :=
  match j.get? "vocabulary" with
  | some vocabulary => ofParts j vocabulary
  | none => do
    let catalog ← Catalog.ofSpecification ((j.get? "catalog").getD .null)
    let design ← RewardDesign.ofJson (j.get? "reward")
    let interpreter ← (j.get? "executor").mapM Interpreter.ofJson
    let request := SettingsRequest.ofMembers (Json.spread (j.get? "config"))
    asked catalog (j.get? "dsl") (j.get? "task") design.reward
      { request with maxSteps := .ofJsonOr 20 (j.get? "maxSteps") } interpreter

end ProgramGym.Environment
