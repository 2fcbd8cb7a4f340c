import ProgramGym.Agent.Saved
import ProgramGym.Calendar.Reader
import ProgramGym.Environment
import ProgramGym.Learner.PolicyLearner
import ProgramGym.Learner.QLearner

/-! Agents: a learner or a uniform chooser for given spaces, with its random source and its
counters. Features of another length and actions outside the space are refused before
anything changes. A state that is loaded is checked piece by piece, and the settings are
taken over before the shape of the weights is checked. -/
namespace ProgramGym

inductive Learner where
  | random
  | qlearning (q : QLearner Float)
  | policyGradient (p : PolicyLearner Float)

structure Agent where
  spaces : Spaces
  source : Source Float
  /-- The time that the agent's clock shows. -/
  clock : Instant
  episodes : Quantity Float
  updated : Instant
  learner : Learner

/-- Both sizes are whole numbers of at least one. -/
def Spaces.check (actions features : Quantity Float) : Except Fault Spaces := do
  let actions ← Settings.positive "actionSpaceSize" actions
  let features ← Settings.positive "featureDimension" features
  pure ⟨actions, features⟩

namespace Learner

def kind : Learner → AgentKind
  | random => .random
  | qlearning _ => .qlearning
  | policyGradient _ => .policyGradient

/-- No vector has 2^32 entries or more. -/
def vectorLimit : Nat := 0x100000000

/-- A learner of a kind with settings by name, untrained. The uniform chooser has no settings. -/
def create (kind : AgentKind) (spaces : Spaces) (settings : Json.Members Json)
    (s : Source Float) : Except Fault (Learner × Source Float) := do
  let sizeChecked : Except Fault Unit :=
    if spaces.features < vectorLimit then pure () else throw .badLength
  match kind with
  | .random => pure (.random, s)
  | .qlearning =>
    let settings ← QSettings.resolve settings
    sizeChecked
    let (q, s) := QLearner.start settings spaces.actions spaces.features s
    pure (.qlearning q, s)
  | .policyGradient =>
    let settings ← PolicySettings.resolve settings
    sizeChecked
    let (p, s) := PolicyLearner.start settings spaces.actions spaces.features s
    pure (.policyGradient p, s)

/-- The learner as untrained, with its settings. -/
def restart (l : Learner) (spaces : Spaces) (s : Source Float) : Learner × Source Float :=
  match l with
  | random => (random, s)
  | qlearning q =>
    let (q, s) := QLearner.start q.settings spaces.actions spaces.features s
    (qlearning q, s)
  | policyGradient p =>
    let (p, s) := PolicyLearner.start p.settings spaces.actions spaces.features s
    (policyGradient p, s)

def settings : Learner → Json.Members Float
  | random => []
  | qlearning q => q.settings.members
  | policyGradient p => p.settings.members

def weights : Learner → List (List Float)
  | random => []
  | qlearning q => q.weights
  | policyGradient p => p.weights

/-- What a learner keeps beside settings and weights. -/
def state : Learner → Json.Members Float
  | random => []
  | qlearning q => [("epsilon", q.epsilon)]
  | policyGradient p =>
    [("baseline", p.baseline), ("baselineInitialized", if p.baselineSet then 1 else 0)]

end Learner

namespace Agent

def kind (a : Agent) : AgentKind := a.learner.kind

/-- A new agent. The spaces are checked before the settings, except that the uniform chooser
refuses settings first. -/
def create (kind : AgentKind) (actions features : Quantity Float)
    (settings : Json.Members Json) (source : Source Float) (clock : Instant) :
    Except Fault Agent := do
  if kind == .random then LearnerSettings.requireKnown kind.name [] settings.names
  let spaces ← Spaces.check actions features
  let (learner, source) ← Learner.create kind spaces settings source
  pure ⟨spaces, source, clock, .count 0, clock, learner⟩

def requireFeatures (a : Agent) (features : List Float) : Except Fault Unit :=
  if features.length == a.spaces.features then .ok ()
  else .error (.configuration (.featureLength s!"{features.length}" a.spaces.features))

def requireAction (a : Agent) (action : Quantity Float) : Except Fault Nat :=
  match action.indexBelow? a.spaces.actions with
  | some i => .ok i
  | none => .error (.configuration (.actionOutside action.text a.spaces.actions))

def choose (a : Agent) (features : List Float) (explore : Bool) : Quantity Float × Source Float :=
  match a.learner with
  | .random =>
    let (x, s) := a.source.nextBelow (Float.ofNat a.spaces.actions)
    (.ofScalar x, s)
  | .qlearning q => q.act features explore a.source
  | .policyGradient p => p.act features explore a.source

def act (a : Agent) (features : List Float) (explore : Bool) :
    Except Fault (Quantity Float) × Agent :=
  match a.requireFeatures features with
  | .error e => (.error e, a)
  | .ok () =>
    let (action, source) := a.choose features explore
    (.ok action, { a with source })

/-- Counts an episode as trained now. -/
def countEpisode (a : Agent) : Agent :=
  { a with episodes := a.episodes.next, updated := a.clock }

def withLearner (a : Agent) (learner : Learner) (done : Bool) : Agent :=
  let a := { a with learner }
  if done then a.countEpisode else a

/-- Whether a call of `learn` is accepted, with the index of its action: the action is looked at
before the features, and these before the next features, which matter only to Q-learning within an
episode. No learner writes before its last check. -/
def admits (a : Agent) (features : List Float) (action : Quantity Float) (next : List Float)
    (done : Bool) : Except Fault Nat :=
  match a.learner with
  | .random => .ok 0
  | .qlearning _ => do
    let i ← a.requireAction action
    a.requireFeatures features
    if done then pure i
    else
      a.requireFeatures next
      pure i
  | .policyGradient _ => do
    let i ← a.requireAction action
    a.requireFeatures features
    pure i

def learn (a : Agent) (features : List Float) (action : Quantity Float) (reward : Float)
    (next : List Float) (done : Bool) : Except Fault Unit × Agent :=
  match a.admits features action next done with
  | .error e => (.error e, a)
  | .ok i =>
    let learner : Learner := match a.learner with
      | .random => .random
      | .qlearning q => .qlearning (q.learn features i reward next done)
      | .policyGradient p => .policyGradient (p.learn ⟨features, i, reward⟩ done)
    (.ok (), a.withLearner learner done)

def startEpisode (a : Agent) : Agent :=
  match a.learner with
  | .policyGradient p => { a with learner := .policyGradient p.startEpisode }
  | _ => a

def reset (a : Agent) : Agent :=
  let (learner, source) := a.learner.restart a.spaces a.source
  { a with learner, source, episodes := .count 0, updated := a.clock }

def saved (a : Agent) (updated : String) : SavedAgent where
  kind := a.kind
  actions := Float.ofNat a.spaces.actions
  features := Float.ofNat a.spaces.features
  settings := a.learner.settings
  weights := a.learner.weights
  state := a.learner.state
  episodes := a.episodes.toScalar
  updated := updated

/-- Fails only if the time of the last update is no date. -/
def save (a : Agent) : Except Fault String :=
  match a.updated.isoText? with
  | some updated => .ok (a.saved updated).write
  | none => .error .noDate

/-- A saved state of this agent's kind and shape. -/
def readOwn (a : Agent) (text : String) : Except Fault SavedAgent := do
  let saved ← SavedAgent.read text
  if saved.kind != a.kind then throw (.configuration (.kindMismatch saved.kind a.kind))
  if saved.actions != Float.ofNat a.spaces.actions
      || saved.features != Float.ofNat a.spaces.features then
    throw (.configuration
      (.shapeMismatch saved.actions saved.features a.spaces.actions a.spaces.features))
  pure saved

def fitsWeights (a : Agent) (weights : List (List Float)) : Bool :=
  weights.length == a.spaces.actions && weights.all (·.length == a.spaces.features)

def misshapen (a : Agent) : Fault :=
  .configuration (.weightsMisshapen a.spaces.actions a.spaces.features)

def withCounters (a : Agent) (saved : SavedAgent) : Agent :=
  { a with episodes := .ofScalar saved.episodes, updated := .ofText saved.updated }

def loadQ (a : Agent) (q : QLearner Float) (saved : SavedAgent) : Except Fault Unit × Agent :=
  match QSettings.resolve saved.settingsGiven with
  | .error e => (.error e, a)
  | .ok settings =>
    let q := { q with settings }
    if a.fitsWeights saved.weights then
      let q := { q with
        weights := saved.weights
        epsilon := (saved.state.get? "epsilon").getD settings.epsilon }
      (.ok (), { a with learner := .qlearning q }.withCounters saved)
    else (.error a.misshapen, { a with learner := .qlearning q })

def loadPolicy (a : Agent) (p : PolicyLearner Float) (saved : SavedAgent) :
    Except Fault Unit × Agent :=
  match PolicySettings.resolve saved.settingsGiven with
  | .error e => (.error e, a)
  | .ok settings =>
    let p := { p with settings }
    if a.fitsWeights saved.weights then
      let p := { p with
        weights := saved.weights
        baseline := (saved.state.get? "baseline").getD 0
        baselineSet := (saved.state.get? "baselineInitialized").any (· == 1)
        buffer := [] }
      (.ok (), { a with learner := .policyGradient p }.withCounters saved)
    else (.error a.misshapen, { a with learner := .policyGradient p })

def load (a : Agent) (text : String) : Except Fault Unit × Agent :=
  match a.readOwn text with
  | .error e => (.error e, a)
  | .ok saved =>
    match a.learner with
    | .random => (.ok (), a.withCounters saved)
    | .qlearning q => a.loadQ q saved
    | .policyGradient p => a.loadPolicy p saved

/-- The agent that a saved state describes. -/
def ofState (text : String) (actions features : Quantity Float) (source : Source Float)
    (clock : Instant) : Except Fault Agent := do
  let saved ← SavedAgent.read text
  let a ← create saved.kind actions features [] source clock
  match a.load text with
  | (.ok (), a) => pure a
  | (.error e, _) => throw e

/-- Settings and counters for logs. -/
def describe (a : Agent) : Json.Members Json :=
  let kind : Text × Json := ("type", .text a.kind.name)
  let episodes : Text × Json := ("episodesTrained", .number a.episodes.toScalar)
  match a.learner with
  | .random => [kind, ("actionSpaceSize", .nat a.spaces.actions), episodes]
  | .qlearning q =>
    [kind, ("learningRate", .number q.settings.learningRate), ("gamma", .number q.settings.gamma),
     ("epsilon", .number q.epsilon), episodes]
  | .policyGradient p =>
    [kind, ("learningRate", .number p.settings.learningRate), ("gamma", .number p.settings.gamma),
     ("baseline", .number p.baseline), episodes]

def epsilon? (a : Agent) : Option Float :=
  match a.learner with
  | .qlearning q => some q.epsilon
  | _ => none

/-- Exploration set by hand, in the unit interval. Only Q-learning has it. -/
def setEpsilon (q : QLearner Float) (epsilon : Float) : Except Fault (QLearner Float) := do
  LearnerSettings.require "epsilon" LearnerSettings.unit epsilon
  pure { q with epsilon }

end Agent
end ProgramGym
