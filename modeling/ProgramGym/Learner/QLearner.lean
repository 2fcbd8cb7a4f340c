import ProgramGym.Learner.Settings
import ProgramGym.Linear

/-! Linear Q-learning. The value of an action is the dot product of its weights with the
features; one update moves the weights of the action taken along the features by the clipped
difference between the target and the value. -/
namespace ProgramGym

structure QLearner (α : Type) where
  settings : QSettings α
  /-- One row per action. -/
  weights : List (List α)
  epsilon : α

namespace QLearner
variable {α : Type} [Scalar α]

@[specialize] def values (q : QLearner α) (features : List α) : List α :=
  q.weights.map (Linear.dot · features)

/-- The greedy choice draws nothing. -/
@[specialize] def act (q : QLearner α) (features : List α) (explore : Bool) (s : Source α) :
    Quantity α × Source α :=
  if explore then Linear.epsilonGreedy (q.values features) q.epsilon s
  else (.count (Linear.argmax (q.values features)), s)

/-- The reward alone at the end of an episode, else with the discounted best next value. -/
@[specialize] def target (q : QLearner α) (reward : α) (next : List α) (done : Bool) : α :=
  if done then reward else reward + q.settings.gamma * Scalar.maximum (q.values next)

def decay (q : QLearner α) : QLearner α :=
  { q with epsilon := Scalar.max q.settings.epsilonMin (q.epsilon * q.settings.epsilonDecay) }

/-- Moves the weights of an action so that its value comes closer to a target. -/
@[specialize] def moveToward (q : QLearner α) (features : List α) (action : Nat) (target : α) :
    QLearner α :=
  let row := q.weights.getD action []
  let error := Linear.clip (target - Linear.dot row features) q.settings.tdErrorClip
  let row := Linear.addScaled row (q.settings.learningRate * error) features
  { q with weights := q.weights.set action row }

@[specialize] def update (q : QLearner α) (features : List α) (action : Nat) (reward : α)
    (next : List α) (done : Bool) : QLearner α :=
  q.moveToward features action (q.target reward next done)

/-- An update, and less exploration when the episode ends. -/
@[specialize] def learn (q : QLearner α) (features : List α) (action : Nat) (reward : α)
    (next : List α) (done : Bool) : QLearner α :=
  let q := q.update features action reward next done
  if done then q.decay else q

/-- New first weights for the settings and full exploration. -/
@[specialize] def start (settings : QSettings α) (actions features : Nat) (s : Source α) :
    QLearner α × Source α :=
  let (weights, s) := Linear.initialMatrix actions features settings.weightInit s
  (⟨settings, weights, settings.epsilon⟩, s)

end QLearner
end ProgramGym
