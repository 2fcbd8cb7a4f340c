import ProgramGym.Storage.Path
import ProgramGym.Trainer

/-! A curriculum trains one agent through stages in order, each with its own environment and
directory, and then evaluates it greedily on every stage. Evaluations are kept by stage
name: of two stages with one name the later one counts, in the place of the earlier. -/
namespace ProgramGym

/-- What a stage is called. Only a text names a directory, and so a stage that can be trained. -/
inductive StageName where
  | text (t : Text)
  /-- No text; none stands for a name that was left out. -/
  | foreign (value : Option Json)

namespace StageName

def ofJson : Option Json → StageName
  | some (.text t) => .text t
  | value => .foreign value

def wording : StageName → String
  | text t => t.toString
  | foreign value => Json.wording value

/-- Within the sequence of all names; a missing one leaves nothing. -/
def inSequence : StageName → String
  | foreign none | foreign (some .null) => ""
  | name => name.wording

def text? : StageName → Option Text
  | text t => some t
  | foreign _ => none

end StageName

structure Stage where
  name : StageName
  env : Environment Float
  episodes : Quantity Float
  evalEvery : Quantity Float := .count 0
  saveEvery : Quantity Float := .count 0

structure StageResult where
  stage : Nat
  name : Text
  result : TrainingResult

structure CurriculumResult where
  stages : List StageResult
  finalEvaluation : Json.Members (Metrics Float)

namespace Curriculum

def isPlain (c : Char) : Bool := c.isAlphanum || c == '_' || c == '-'

/-- Every unit of other characters becomes an underscore. -/
def plainName (name : Text) : String :=
  String.ofList (name.unitChars.map fun c => if isPlain c then c else '_')

def directoryName (stage : String) (name : Text) : String :=
  "stage_" ++ stage ++ "_" ++ plainName name

/-- The directory of a stage within that of the curriculum. -/
def stageDirectory (directory stage : String) (name : Text) : String :=
  Path.join [directory, directoryName stage name]

structure Request (ω : Type) where
  directory : String
  finalEvalEpisodes : Quantity Float := .count 20
  verbose : Bool := true
  training : TrainingRequest := {}
  /-- Storage for a stage that logs to a directory. -/
  storage : String → TrainingStorage ω

/-- The agent on its way through the stages. Environments that were trained in stand beside
the stages in order. -/
structure State (ω : Type) where
  agent : Agent
  console : List Entry
  world : ω
  envs : List (Environment Float)

variable {ω : Type}

def log (verbose : Bool) (text : String) : Op (State ω) Unit :=
  modify fun s => if verbose then { s with console := s.console ++ [⟨.log, text⟩] } else s

/-- All stages have the spaces of the first. -/
def requireSpaces (expected : Spaces) (stages : List Stage) : Except Fault Unit :=
  stages.forM fun stage =>
    let spaces := stage.env.rules.spaces
    if spaces == expected then .ok ()
    else .error (.configuration (.stageSpaces stage.name.wording spaces.actions spaces.features
      expected.actions expected.features))

/-- Trains through one stage; its environment goes to the end of the list. -/
def trainStage (request : Request ω) (total n : Nat) (stage : Stage) :
    Op (State ω) StageResult := do
  log request.verbose s!"\n[Curriculum] Stage {n}/{total}: {stage.name.wording}"
  let some name := stage.name.text? | throw .wrongKind
  let storage := request.storage (stageDirectory request.directory s!"{n}" name)
  let s ← get
  let trainer ← Op.ofExcept (Trainer.create { request.training with verbose := request.verbose }
    storage ⟨stage.env, s.agent, s.console⟩ s.world)
  let (outcome, trainer) :=
    (Trainer.train stage.episodes stage.evalEvery stage.saveEvery).run trainer
  set (⟨trainer.scene.agent, trainer.scene.console, trainer.world,
    s.envs ++ [trainer.scene.env]⟩ : State ω)
  let result ← Op.ofExcept outcome
  log request.verbose (s!"[Curriculum] Stage {n} complete: success rate "
    ++ Number.percent result.rollingSuccessRate)
  pure ⟨n, name, result⟩

def trainStages (request : Request ω) (total : Nat) :
    (n : Nat) → List Stage → Op (State ω) (List StageResult)
  | _, [] => pure []
  | n, stage :: rest => do
    let r ← trainStage request total n stage
    let rs ← trainStages request total (n + 1) rest
    pure (r :: rs)

def evaluateOn (request : Request ω) (env : Environment Float) : Op (State ω) (Metrics Float) := do
  let s ← get
  let (outcome, scene) :=
    (Scene.evaluate request.verbose request.finalEvalEpisodes).run ⟨env, s.agent, s.console⟩
  set { s with agent := scene.agent, console := scene.console }
  Op.ofExcept outcome

def evaluateStages (request : Request ω) : List (Text × Environment Float) →
    Json.Members (Metrics Float) → Op (State ω) (Json.Members (Metrics Float))
  | [], evaluated => pure evaluated
  | (name, env) :: rest, evaluated => do
    let metrics ← evaluateOn request env
    evaluateStages request rest (evaluated.put name metrics)

def run (request : Request ω) (stages : List Stage) : Op (State ω) CurriculumResult := do
  match stages with
  | [] => Op.refuse .noStages
  | first :: _ =>
    Op.ofExcept (requireSpaces first.env.rules.spaces stages)
    log request.verbose
      ("[Curriculum] Task sequence: " ++ " -> ".intercalate (stages.map (·.name.inSequence)))
    let results ← trainStages request stages.length 1 stages
    let s ← get
    let evaluated ← evaluateStages request ((results.map (·.name)).zip s.envs) []
    pure ⟨results, evaluated⟩

end Curriculum
end ProgramGym
