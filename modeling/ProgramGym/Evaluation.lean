import ProgramGym.Agent
import ProgramGym.Rollout

/-! Greedy evaluation: an agent acts without exploring or learning, and its episodes are
summed up. An evaluation that reports writes two entries to the console. -/
namespace ProgramGym

inductive Level where
  | log
  | warn
  | error
  deriving DecidableEq, Repr

structure Entry where
  level : Level
  text : String
  deriving DecidableEq, Repr

instance : Actor Agent Float where
  act a seen explore := a.act seen.features explore
  startEpisode := Agent.startEpisode
  learn a seen action reward next done := a.learn seen.features action reward next.features done

/-- An environment, an agent in it, and what has been written to the console. -/
structure Scene where
  env : Environment Float
  agent : Agent
  console : List Entry

namespace Scene

def write (level : Level) (text : String) : Op Scene Unit :=
  modify fun s => { s with console := s.console ++ [⟨level, text⟩] }

def log (text : String) : Op Scene Unit := write .log text

def logIf (verbose : Bool) (text : String) : Op Scene Unit := if verbose then log text else pure ()

def runEpisode (train : Bool) (episode : Nat) : Op Scene (EpisodeRecord Float) := fun s =>
  match Rollout.run train episode s.env s.agent with
  | (outcome, env, agent) => (outcome, { s with env, agent })

/-- Episodes one after the other, numbered from a first number on. -/
def runEpisodes (train : Bool) : (first count : Nat) → Op Scene (List (EpisodeRecord Float))
  | _, 0 => pure []
  | first, count + 1 => do
    let r ← runEpisode train first
    let rs ← runEpisodes train (first + 1) count
    pure (r :: rs)

def requireCount (name : String) (n : Quantity Float) : Except Fault Nat :=
  match n.index? with
  | some n => .ok n
  | none => .error (.configuration (.negativeCount name n.text))

/-- The records of greedy episodes. -/
def greedyEpisodes (count : Quantity Float) : Op Scene (List (EpisodeRecord Float)) := do
  let n ← Op.ofExcept (requireCount "nEpisodes" count)
  runEpisodes false 1 n

def evaluate (verbose : Bool) (count : Quantity Float) : Op Scene (Metrics Float) := do
  let records ← greedyEpisodes count
  let metrics := Metrics.compute records Metrics.sampleLimit
  let s ← get
  logIf verbose s!"[Evaluator] {s.agent.kind.name} on {s.env.rules.task.key}"
  logIf verbose metrics.text
  pure metrics

end Scene
end ProgramGym
