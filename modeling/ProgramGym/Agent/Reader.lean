import ProgramGym.CommandLine.Options
import ProgramGym.Learner.Requirements
import ProgramGym.Linear.Reader

/-! Agents from JSON, and what is asked of them with values of any kind. A vector of features is
a list, or a text unit by unit, of the agent's length. -/
namespace ProgramGym.Agent
open Json

/-- The settings that are spread; null has none. -/
def settingsOf : Option Json → Except Fault (Members Json)
  | none => .ok []
  | some j =>
    match j.ownMembers? with
    | some members => .ok members
    | none => .error .wrongKind

/-- A new agent. The uniform chooser looks at the settings before the spaces, a learner after
them. -/
def asked (kind : AgentKind) (spaces settings : Option Json) (source : Source Float)
    (clock : Instant) : Except Fault Agent := do
  if kind == .random then
    LearnerSettings.requireKnown kind.name [] (← settingsOf settings).names
  let (actions, features) ← LearnerSettings.spacesOf spaces
  let _ ← Spaces.check actions features
  create kind actions features (← settingsOf settings) source clock

/-- The agent that a saved state of any kind describes. -/
def ofStateAsked (state : Json) (spaces : Option Json) (source : Source Float)
    (clock : Instant) : Except Fault Agent := do
  let saved ← SavedAgent.read state.plain
  let a ← asked saved.kind spaces none source clock
  match a.load state.plain with
  | (.ok (), a) => pure a
  | (.error e, _) => throw e

/-- The kind that an alias stands for; only a text is one. -/
def kindOf (name : Option Json) : Except Fault AgentKind :=
  match name with
  | some (.text t) =>
    match CommandLine.Options.agentOf t.toString with
    | .ok kind => .ok kind
    | .error cause => .error (.configuration cause)
  | _ => .error .wrongKind

/-- The random source of a specification: given numbers in turn, or a seed. -/
def sourceOf (j : Json) : Source Float :=
  match (j.get? "randoms").bind items? with
  | some values => .ofList (values.map toNumber)
  | none => .ofSeed (Number.toWord (((j.get? "seed").map toNumber).getD 0))

/-- The agent of a specification, with the spaces of an environment if it has none of its own.
There is none of a kind that is not known. -/
def ofJson (j : Json) (spaces : Option Spaces) (clock : Instant) : Except Fault (Option Agent) := do
  let own : Option Json := spaces.map fun s =>
    .object [("actionSpaceSize", .nat s.actions), ("featureDimension", .nat s.features)]
  let spaces := (j.get? "spaces").orElse fun () => own
  match j.get? "state" with
  | some state => some <$> ofStateAsked state spaces (sourceOf j) clock
  | none =>
    let kind ← match j.get? "alias" with
      | some name => some <$> kindOf (some name)
      | none => pure (((j.get? "type").bind string?).bind AgentKind.ofName?)
    kind.mapM fun kind => asked kind spaces (j.get? "config") (sourceOf j) clock

/-- The entries of a vector of the agent's length. -/
def featuresOf (a : Agent) (j : Option Json) : Except Fault (List Float) :=
  let refused (length : String) : Fault :=
    .configuration (.featureLength length a.spaces.features)
  match j with
  | none | some .null => .error .wrongKind
  | some j =>
    match j.elements? with
    | some xs =>
      if xs.length == a.spaces.features then .ok (xs.map toNumber)
      else .error (refused s!"{xs.length}")
    | none => .error (refused (wording (j.get? "length")))

def actOn (a : Agent) (features : Option Json) (explore : Bool) :
    Except Fault (Quantity Float) × Agent :=
  match a.featuresOf features with
  | .error e => (.error e, a)
  | .ok features => a.act features explore

/-- The vectors of a step, as far as the agent looks at them. -/
def vectorsOf (a : Agent) (features : Option Json) (action : Quantity Float) (next : Option Json)
    (done : Bool) : Except Fault (List Float × List Float) :=
  match a.learner with
  | .random => .ok ([], [])
  | .qlearning _ => do
    let _ ← a.requireAction action
    let features ← a.featuresOf features
    let next ← if done then pure [] else a.featuresOf next
    pure (features, next)
  | .policyGradient _ => do
    let _ ← a.requireAction action
    let features ← a.featuresOf features
    pure (features, [])

/-- A step with a reward of any kind. A reward that is a text is joined with what the next step
is worth before the two count as a number. -/
def learnFrom (a : Agent) (features action reward next : Option Json) (done : Bool) :
    Except Fault Unit × Agent :=
  let action := Quantity.ofJson action
  match a.vectorsOf features action next done with
  | .error e => (.error e, a)
  | .ok (features, next) =>
    match a.learner, action.indexBelow? a.spaces.actions, done with
    | .qlearning q, some i, false =>
      let worth := q.settings.gamma * Scalar.maximum (q.values next)
      let target := (add reward (some (.number worth))).toNumber
      (.ok (), a.withLearner (.qlearning (q.moveToward features i target)) false)
    | _, _, _ => a.learn features action (numberOf reward) next done

/-- Exploration set by hand to a value of any kind. -/
def setEpsilonTo (q : QLearner Float) (epsilon : Option Json) : Except Fault (QLearner Float) :=
  match epsilon with
  | some (.number x) => setEpsilon q x
  | j => .error (LearnerSettings.refuse "epsilon" LearnerSettings.unit (wording j))

end ProgramGym.Agent
