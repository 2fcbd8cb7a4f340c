import ProgramGym.CommandLine.Session

/-! The commands that train nothing: the evaluation of a stored agent, and the lists of
experiments and tasks. -/
namespace ProgramGym.CommandLine.Session

def evaluateCommand (catalog : Catalog) (o : Options) (episodes : Quantity Float) :
    Op Session Unit := do
  match o.continueFrom.filter (!·.isEmpty) with
  | none => Op.refuse .experimentRequired
  | some id =>
    let env ← Op.ofExcept (environment catalog o o.task)
    let agent ← loadAgent id env.rules.spaces (← source o 0)
    let (outcome, _) := (Scene.evaluate false episodes).run ⟨env, agent, []⟩
    let metrics ← Op.ofExcept outcome
    log s!"\nEvaluation on {o.language}/{o.task}:"
    log metrics.text
    if !metrics.samplePrograms.isEmpty then
      log ("Sample programs: " ++ ", ".intercalate (metrics.samplePrograms.map Json.quote))

/-- Columns of fixed widths. -/
def experimentLine (row : ExperimentRow) : String :=
  " ".intercalate
    [Text.padRight 44 (row.id.getD ""), Text.padRight 17 (row.agent.getD "?"),
     Text.padRight 13 (row.language ++ "/" ++ row.task),
     row.status]

/-- How many experiments a list shows. -/
def listLength : Nat := 20

def listCommand : Op Session Unit := do
  let rows ← inDatabase (Database.listExperiments none)
  if rows.isEmpty then log "No experiments found."
  else do
    log "\nAvailable experiments:\n"
    log "ID                                          Agent             Task          Status"
    log (rule 90 '-')
    (rows.take listLength).forM fun row => log (experimentLine row)
    if listLength < rows.length then log s!"\n... and {rows.length - listLength} more"

def taskLine (t : Task) : String :=
  s!"  {t.id}  " ++ Json.quote t.source ++ " -> " ++ Json.quote t.expectedOutput

def tasksCommand (catalog : Catalog) : Op Session Unit :=
  catalog.vocabularies.forM fun (language, tokens) => do
    log (s!"\n{language} (vocabulary: " ++ " ".intercalate (tokens.map Json.quote) ++ ")")
    (catalog.listTasks (some language)).forM fun t => log (taskLine t)

end ProgramGym.CommandLine.Session
