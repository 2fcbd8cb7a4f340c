import ProgramGym.CommandLine.Session
import ProgramGym.Curriculum

/-! The commands that train: one agent, all kinds of agents side by side, and one agent
through a curriculum. -/
namespace ProgramGym.CommandLine.Session

def printSummary (r : TrainingResult) : Op Session Unit := do
  log "\n--- Final Results ---"
  log ("Rolling success rate: " ++ Number.percent r.rollingSuccessRate)
  log ("Average reward: " ++ Number.fixedText r.averageReward 3)
  match r.lastEvaluation with
  | some metrics => log metrics.text
  | none => pure ()
  log ("Training time: " ++ Trainer.seconds r.elapsedMilliseconds)
  r.failures.forM fun failure =>
    write .warn s!"Checkpoint {failure.key} failed: {failure.error}"

def trainingConfig (o : Options) (agent : Agent) : Json :=
  .object
    [("numEpisodes", .number o.episodes.toScalar), ("maxSteps", .number o.maxSteps.toScalar),
     ("seed", seedJson o), ("continuedFrom", Json.ofOption .text o.continueFrom),
     ("agent", .object agent.describe)]

/-- A new agent, or one that goes on from an experiment. -/
def trainCommand (catalog : Catalog) (o : Options) : Op Session Unit := do
  let env ← Op.ofExcept (environment catalog o o.task)
  let source ← source o 0
  let continued := o.continueFrom.filter (!·.isEmpty)
  let agent ← match continued with
    | some id => loadAgent id env.rules.spaces source
    | none => newAgent o.agent env.rules.spaces source
  let id ← experimentId agent.kind.name
  startExperiment id "training" agent.kind o o.task env (trainingConfig o agent)
  let suffix := if continued.isSome then " (CONTINUED)" else ""
  banner (agent.kind.name.toUpper ++ " TRAINING" ++ suffix)
  let s ← get
  let storage := TrainingStorage.inDatabase id (.ofText s.working (directory o id))
  let (result, agent) ← train env agent storage
    { evalEpisodes := o.evalEpisodes, verbose := !o.quiet } o.episodes o.evalEvery o.saveEvery
  printSummary result
  saveResults id agent result
  match continued with
  | some id => log s!"Continued from: {id}"
  | none => pure ()

def comparisonConfig (o : Options) : Json :=
  .object
    [("numEpisodes", .number o.episodes.toScalar), ("maxSteps", .number o.maxSteps.toScalar),
     ("seed", seedJson o)]

/-- An agent of a comparison after its training, with its successes by episode. -/
structure Contestant where
  agent : Agent
  successes : List Float

def trainContestant (catalog : Catalog) (o : Options) (kind : AgentKind) (shift : Nat) :
    Op Session Contestant := do
  let env ← Op.ofExcept (environment catalog o o.task)
  let agent ← newAgent kind env.rules.spaces (← source o shift)
  log s!"\n=== Training {kind.name} ==="
  let id ← experimentId kind.name
  startExperiment id "comparison" kind o o.task env (comparisonConfig o)
  let s ← get
  let storage := TrainingStorage.inDirectory (.ofText s.working (directory o id))
  let (result, agent) ← train env agent storage
    { evalEpisodes := o.evalEpisodes, verbose := !o.quiet } o.episodes o.evalEvery (.count 0)
  saveResults id agent result
  pure ⟨agent, result.history.map fun r => Scalar.ofBool r.success⟩

/-- At least one. -/
def atLeastOne (q : Quantity Float) : Quantity Float :=
  match q with
  | .count 0 => .count 1
  | .count n => .count n
  | .other x => .ofScalar (Number.max 1 x)
  | .foreign value => .foreign value

def printContestant (baseline : Metrics Float) (name : Text) (metrics : Metrics Float) :
    Op Session Unit := do
  log s!"\n{name}:"
  log metrics.text
  if name.toString != AgentKind.random.name then
    let c := Metrics.compare baseline metrics
    log ("  Reward improvement vs random: " ++ Number.fixedText c.meanReward.improvement 1 ++ "%")
    log ("  Success improvement vs random: " ++ Number.fixedText c.successRate.improvement 1 ++ "%")

/-- The window of the curves that are compared. -/
def curveWindow : Quantity Float := .count 100

def efficiencyThreshold : Float := 0.8

/-- All kinds are trained on one task, then compared greedily. -/
def compareCommand (catalog : Catalog) (o : Options) : Op Session Unit := do
  banner "AGENT COMPARISON"
  let contestants ← AgentKind.all.zipIdx.mapM fun (kind, shift) =>
    trainContestant catalog o kind shift
  let env ← Op.ofExcept (environment catalog o o.task)
  let agents := contestants.map fun c => (Text.ofString c.agent.kind.name, c.agent)
  let (outcome, _) := (Arena.compare false (atLeastOne o.evalEpisodes) (some (.ok env))).run
    ⟨env, agents, []⟩
  let results ← Op.ofExcept outcome
  banner "COMPARISON SUMMARY"
  match results.get? AgentKind.random.name with
  | some baseline => results.forM fun (name, metrics) => printContestant baseline name metrics
  | none => pure ()
  let learners := contestants.filter fun c => c.agent.kind != .random
  let curves := learners.map fun c => Curve.rollingAverage c.successes curveWindow
  let e := Curve.efficiency curves efficiencyThreshold
  log ("\nSample efficiency (learning agents): AUC " ++ Number.fixedText e.meanArea 1
    ++ ", episodes to 80% " ++ Number.fixedText e.meanEpisodesToThreshold 0)

def curriculumConfig (o : Options) : Json :=
  .object
    [("episodesPerStage", .number o.episodes.toScalar), ("maxSteps", .number o.maxSteps.toScalar),
     ("seed", seedJson o)]

/-- The tasks asked for, or all of the language. -/
def sequence (catalog : Catalog) (o : Options) : List Text :=
  if o.tasks.isEmpty then (catalog.listTasks (some o.language)).map (·.id)
  else o.tasks.map Text.ofString

def stageOf (catalog : Catalog) (o : Options) (task : Text) : Except Fault Stage := do
  let env ← environment catalog o task
  pure ⟨.text task, env, o.episodes, o.evalEvery, o.saveEvery⟩

def printFinal (task : Text) (metrics : Metrics Float) : Op Session Unit := do
  log s!"\nTask {task}:"
  log ("  Success Rate: " ++ Number.percent metrics.successRate)
  log ("  Mean Reward: " ++ Number.fixedText metrics.meanReward 2)

def runCurriculum (o : Options) (id : String) (agent : Agent) (stages : List Stage) :
    Op Session (CurriculumResult × Agent) := do
  let s ← get
  let request : Curriculum.Request Archive :=
    { directory := directory o id
      finalEvalEpisodes := atLeastOne o.evalEpisodes
      verbose := !o.quiet
      training := { evalEpisodes := o.evalEpisodes }
      storage := fun path => .inDirectory (.ofText s.working path) }
  let (outcome, after) := (Curriculum.run request stages).run ⟨agent, s.console, s.archive, []⟩
  set { s with console := after.console, archive := after.world }
  let result ← Op.ofExcept outcome
  pure (result, after.agent)

def curriculumCommand (catalog : Catalog) (o : Options) : Op Session Unit := do
  let tasks := sequence catalog o
  if tasks.isEmpty then Op.refuse (.noTasks o.language)
  log s!"Curriculum Learning on {o.language}"
  match ← Op.ofExcept (tasks.mapM (stageOf catalog o)) with
  | [] => Op.refuse (.noTasks o.language)
  | first :: rest =>
    let agent ← newAgent o.agent first.env.rules.spaces (← source o 0)
    let id ← experimentId ("curriculum-" ++ agent.kind.name)
    startExperiment id "curriculum" agent.kind o (Text.join "," tasks).toString first.env
      (curriculumConfig o)
    let (result, agent) ← runCurriculum o id agent (first :: rest)
    banner "FINAL EVALUATION ON ALL TASKS"
    result.finalEvaluation.forM fun (task, metrics) => printFinal task metrics
    let evaluations := result.finalEvaluation.map fun (task, metrics) => (task, metrics.json)
    finish id (Json.ofEntries evaluations) agent
      (result.stages.foldl (fun sum stage => sum + stage.result.elapsedMilliseconds) 0)

end ProgramGym.CommandLine.Session
