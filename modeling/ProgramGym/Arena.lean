import ProgramGym.Evaluation

/-! Several agents, by name, in one environment: single runs, and a comparison in which every
agent is evaluated in turn, in the common environment or each in a new one. -/
namespace ProgramGym

structure Arena where
  env : Environment Float
  agents : Json.Members Agent
  console : List Entry

namespace Arena

/-- Runs an operation on the environment and one of the agents. -/
def withAgent {β : Type} (name : Text) (agent : Agent) (op : Op Scene β) : Op Arena β := fun a =>
  match op.run ⟨a.env, agent, a.console⟩ with
  | (outcome, s) => (outcome, ⟨s.env, a.agents.put name s.agent, s.console⟩)

def evaluation (verbose : Bool) (count : Quantity Float) (name : Text) :
    Op Scene (Metrics Float) := do
  Scene.logIf verbose s!"\n=== Evaluating {name} ==="
  Scene.evaluate verbose count

/-- An operation that leaves the common environment as it was. -/
def keepingEnvironment {β : Type} (env : Environment Float) (op : Op Arena β) : Op Arena β := fun a =>
  match op.run { a with env } with
  | (outcome, after) => (outcome, { after with env := a.env })

/-- Episodes of an agent that is not there: the first one begins, and nobody acts in it. -/
def episodesOfNone (count : Nat) : Op Arena (List (EpisodeRecord Float)) := fun a =>
  if count == 0 then (.ok [], a) else (.error .wrongKind, { a with env := a.env.restart })

/-- An evaluation of an agent that is not there: only no episodes give metrics, and none are
reported. -/
def evaluationOfNone (verbose : Bool) (count : Quantity Float) : Op Arena (Metrics Float) := do
  let n ← Op.ofExcept (Scene.requireCount "nEpisodes" count)
  let records ← episodesOfNone n
  if verbose then throw .wrongKind
  pure (Metrics.compute records Metrics.sampleLimit)

/-- Metrics by name, in the order of the agents. -/
def compareAll (verbose : Bool) (count : Quantity Float)
    (newEnvironment : Option (Except Fault (Environment Float))) :
    List (Text × Agent) → Op Arena (Json.Members (Metrics Float))
  | [] => pure []
  | (name, agent) :: rest => do
    let evaluate := withAgent name agent (evaluation verbose count name)
    let metrics ← match newEnvironment with
      | some env => do
        let env ← Op.ofExcept env
        keepingEnvironment env evaluate
      | none => evaluate
    let others ← compareAll verbose count newEnvironment rest
    pure ((name, metrics) :: others)

/-- Every agent is evaluated in the common environment, or each in a new one. -/
def compare (verbose : Bool) (count : Quantity Float)
    (newEnvironment : Option (Except Fault (Environment Float))) :
    Op Arena (Json.Members (Metrics Float)) := do
  let a ← get
  compareAll verbose count newEnvironment a.agents

end Arena
end ProgramGym
