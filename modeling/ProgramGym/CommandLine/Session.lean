import ProgramGym.Arena
import ProgramGym.Catalog.Bundled
import ProgramGym.Catalog.Reader
import ProgramGym.CommandLine.Options
import ProgramGym.Trainer.Storage

/-! What a run of the command line works on, and what its commands share: environments,
agents, random sources, identifiers and records of experiments. -/
namespace ProgramGym.CommandLine

structure Session where
  clock : Instant
  /-- The working directory's path components. -/
  working : List String
  archive : Archive
  console : List Entry
  /-- Seeds for runs that were given none. -/
  entropy : Source Float

namespace Session

def write (level : Level) (text : String) : Op Session Unit :=
  modify fun s => { s with console := s.console ++ [⟨level, text⟩] }

def log (text : String) : Op Session Unit := write .log text

def inDatabase {β : Type} (op : Op Database β) : Op Session β :=
  Op.onPart (·.archive) (fun s archive => { s with archive }) (Archive.onDatabase op)

def rule (length : Nat) (c : Char) : String := String.ofList (List.replicate length c)

/-- A title between two rules. -/
def banner (title : String) : Op Session Unit := do
  log ("\n" ++ rule 60 '=')
  log title
  log (rule 60 '=')

/-- The file that a variable names, or else the tasks that come with the program. -/
def catalog (vars : Variables) : Op Session Catalog := do
  let s ← get
  match vars.nonempty? "RL_TASKS_PATH" with
  | some path =>
    Op.ofExcept (Catalog.ofFile path (s.archive.disk.readFile (Location.ofText s.working path)))
  | none => pure Catalog.bundled

/-- The reward is looked up before anything else. -/
def environment (catalog : Catalog) (o : Options) (task : Text) :
    Except Fault (Environment Float) := do
  let design ← RewardDesign.named o.reward []
  Environment.forTask catalog o.language task design.reward
    { maxSteps := o.maxSteps } none

def rewardName (env : Environment Float) : String := env.rules.reward.name

/-- The source for a seed, shifted for the agents of a comparison. -/
def source (o : Options) (shift : Nat) : Op Session (Source Float) := do
  match o.seed with
  | some seed => pure (.ofSeed (Number.toWord (seed.toScalar + Float.ofNat shift)))
  | none =>
    let s ← get
    let (x, entropy) := s.entropy.next
    set { s with entropy }
    pure (.ofSeed (Number.toWord (x * Float.ofNat Source.counters)))

def newAgent (kind : AgentKind) (spaces : Spaces) (source : Source Float) : Op Session Agent := do
  let s ← get
  Op.ofExcept (Agent.create kind (.count spaces.actions) (.count spaces.features) []
    source s.clock)

/-- A name and the time, colons and dots as dashes. -/
def experimentId (name : String) : Op Session String := do
  let s ← get
  match s.clock.isoText? with
  | some time =>
    let plain := time.toList.map fun c => if c == ':' || c == '.' then '-' else c
    pure (name ++ "-" ++ String.ofList plain)
  | none => throw .noDate

/-- Exploration of an agent whose training goes on. -/
def continuedEpsilon : Float := 0.1

/-- The agent that an experiment left, exploring a little. -/
def loadAgent (id : String) (spaces : Spaces) (source : Source Float) : Op Session Agent := do
  match ← inDatabase (Database.getExperiment (some id)) with
  | none => Op.refuse (.experimentNotFound id)
  | some row =>
    match row.agentState.filter (!·.isEmpty) with
    | none => Op.refuse (.experimentUntrained id)
    | some state =>
      let s ← get
      let agent ← Op.ofExcept (Agent.ofState state (.count spaces.actions)
        (.count spaces.features) source s.clock)
      log s!"Loaded {agent.kind.name} from {id}"
      log s!"  Episodes previously trained: {agent.episodes.text}"
      match agent.learner with
      | .qlearning q =>
        let q ← Op.ofExcept (Agent.setEpsilon q continuedEpsilon)
        log ("  Epsilon reset to: " ++ Number.text continuedEpsilon)
        pure { agent with learner := .qlearning q }
      | _ => pure agent

def startExperiment (id type : String) (agent : AgentKind) (o : Options) (task : String)
    (env : Environment Float) (config : Json) : Op Session Unit :=
  inDatabase (Database.createExperiment
    { id := some id, type := some type, agent := some agent.name, language := some o.language
      task := some task, reward := some (rewardName env), config := some config.compact })

/-- The directory of an experiment. -/
def directory (o : Options) (id : String) : String := Path.join [o.directory, id]

def seedJson (o : Options) : Json := Json.ofOption (fun seed => .number seed.toScalar) o.seed

/-- Trains an agent; console, files and tables are the session's. -/
def train (env : Environment Float) (agent : Agent) (storage : TrainingStorage Archive)
    (request : TrainingRequest) (count evalEvery saveEvery : Quantity Float) :
    Op Session (TrainingResult × Agent) := do
  let s ← get
  let trainer ← Op.ofExcept (Trainer.create request storage ⟨env, agent, s.console⟩ s.archive)
  let (outcome, trainer) := (Trainer.train count evalEvery saveEvery).run trainer
  set { s with console := trainer.scene.console, archive := trainer.world }
  let result ← Op.ofExcept outcome
  pure (result, trainer.scene.agent)

def recordEvaluations (id : String) (points : List EvaluationPoint) : Op Session Unit :=
  points.forM fun point =>
    inDatabase (Database.recordEvaluation (some id) (.ofNumber (Float.ofNat point.episode))
      (.ofNumber point.metrics.successRate) (.ofNumber point.metrics.meanReward)
      point.metrics.json.compact)

def finish (id : String) (finalMetrics : Json) (agent : Agent) (milliseconds : Nat) :
    Op Session Unit := do
  let state ← Op.ofExcept agent.save
  inDatabase (Database.finishExperiment (some id)
    { finalMetrics := some finalMetrics.compact, agentState := some state
      trainTime := .ofNumber (Float.ofNat milliseconds) })

def finalMetrics (r : TrainingResult) : Json :=
  .object
    [("rollingSuccessRate", .number r.rollingSuccessRate), ("averageReward", .number r.averageReward),
     ("lastEvaluation", Json.ofOption Metrics.json r.lastEvaluation),
     ("totalEpisodes", .nat r.totalEpisodes)]

/-- Stores the episodes, the evaluations and the agent of an experiment. -/
def saveResults (id : String) (agent : Agent) (r : TrainingResult) : Op Session Unit := do
  inDatabase (Database.recordEpisodes (some id) (r.history.map .ofRecord))
  recordEvaluations id r.evaluations
  finish id (finalMetrics r) agent r.elapsedMilliseconds
  log s!"Saved {r.history.length} episodes to database (experiment: {id})"

end Session
end ProgramGym.CommandLine
