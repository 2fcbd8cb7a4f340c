import ProgramGym.Agent.Reader
import ProgramGym.Proofs.Agent.Updating
import ProgramGym.Proofs.Documents.Vectors

/-! Agents that are called with documents. Features that are lists of numbers are taken as they
are, and refused for their length only, in the order in which the calls themselves refuse. Main
statements: a call with numbers is the call on the numbers, and an agent that is asked for with
settings by name is the one that is made of them. -/
namespace ProgramGym.Agent
open Json

variable (a : Agent)

theorem featuresOf_numbers (features : List Float) :
    a.featuresOf (some (Json.numbers features)) =
      (a.requireFeatures features).map fun _ => features := by
  have items : (Json.array (features.map .number)).elements? = some (features.map .number) := rfl
  simp only [featuresOf, Json.numbers, items, requireFeatures, List.length_map,
    map_toNumber_numbers]
  split <;> rfl

theorem actOn_numbers (features : List Float) (explore : Bool) :
    a.actOn (some (Json.numbers features)) explore = a.act features explore := by
  rw [actOn, featuresOf_numbers]
  cases required : a.requireFeatures features with
  | error e =>
    rw [act, required]
    rfl
  | ok => rfl

/-- The vectors of a step are accepted where the step is, and refused for the same reason. A vector
that the agent does not look at is taken to be empty. -/
theorem vectorsOf_numbers (features next : List Float) (action : Quantity Float) (done : Bool) :
    a.vectorsOf (some (Json.numbers features)) action (some (Json.numbers next)) done =
      (a.admits features action next done).map fun _ =>
        match a.learner with
        | .random => ([], [])
        | .qlearning _ => (features, if done then [] else next)
        | .policyGradient _ => (features, []) := by
  rw [vectorsOf, admits]
  cases a.learner with
  | random => rfl
  | qlearning q =>
    cases a.requireAction action with
    | error e => rfl
    | ok i =>
      simp only [featuresOf_numbers]
      cases a.requireFeatures features with
      | error e => rfl
      | ok =>
        cases done with
        | true => rfl
        | false => cases a.requireFeatures next <;> rfl
  | policyGradient p =>
    cases a.requireAction action with
    | error e => rfl
    | ok i =>
      simp only [featuresOf_numbers]
      cases a.requireFeatures features <;> rfl

/-- Only Q-learning within an episode looks at the next features. -/
theorem learn_unseen {done : Bool} (unseen : a.kind ≠ .qlearning ∨ done = true)
    (features next : List Float) (action : Quantity Float) (reward : Float) :
    a.learn features action reward next done = a.learn features action reward [] done := by
  cases own : a.learner with
  | random | policyGradient p => simp only [learn, admits, own]
  | qlearning q =>
    rcases unseen with other | rfl
    · exact absurd (congrArg Learner.kind own) other
    · exact learn_qlearning_done own next

/-- A reward that is a number is added as one. -/
theorem learnFrom_numbers (features next : List Float) (action : Option Json) (reward : Float)
    (done : Bool) :
    a.learnFrom (some (Json.numbers features)) action (some (.number reward))
        (some (Json.numbers next)) done =
      a.learn features (.ofJson action) reward next done := by
  simp only [learnFrom, vectorsOf_numbers]
  cases admitted : a.admits features (.ofJson action) next done with
  | error e =>
    rw [learn, admitted]
    rfl
  | ok i =>
    cases own : a.learner with
    | random => simp only [Except.map, learn, admits, own]
    | policyGradient p =>
      have unseen : a.kind ≠ .qlearning ∨ done = true := .inl (by simp [kind, own, Learner.kind])
      exact (a.learn_unseen unseen features next _ reward).symm
    | qlearning q =>
      have learns : a.kind ≠ .random := by simp [kind, own, Learner.kind]
      simp only [Except.map, index_of_admits learns admitted]
      cases done with
      | true => exact (a.learn_unseen (.inr rfl) features next _ reward).symm
      | false =>
        have learnt : a.learn features (.ofJson action) reward next false =
            (.ok (), a.withLearner (.qlearning (q.learn features i reward next false)) false) := by
          simp only [learn, admitted, own]
        rw [learnt]
        rfl

/-- An agent for sizes and settings under their names. -/
theorem asked_members (kind : AgentKind) (actions features : Json) (settings : Members Json)
    (source : Source Float) (clock : Instant) :
    asked kind (some (.object [("actionSpaceSize", actions), ("featureDimension", features)]))
        (some (.object settings)) source clock =
      create kind (.ofJson (some actions)) (.ofJson (some features)) settings source clock := by
  have sizes : LearnerSettings.spacesOf (some (.object
      [("actionSpaceSize", actions), ("featureDimension", features)])) =
      .ok (.ofJson (some actions), .ofJson (some features)) := rfl
  have spread : settingsOf (some (.object settings)) = .ok settings := rfl
  simp only [asked, create, sizes, spread, bind, Except.bind]
  -- What the checks refuse here the call refuses again, for the same reason.
  cases kind with
  | random =>
    cases LearnerSettings.requireKnown AgentKind.random.name [] settings.names with
    | error e => rfl
    | ok =>
      cases Spaces.check (.ofJson (some actions)) (.ofJson (some features)) <;>
        simp only [beq_self_eq_true, if_true]
  | qlearning | policyGradient =>
    cases Spaces.check (.ofJson (some actions)) (.ofJson (some features)) <;> rfl

end ProgramGym.Agent
