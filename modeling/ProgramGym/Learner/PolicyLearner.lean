import ProgramGym.Learner.Settings
import ProgramGym.Linear

/-! Policy gradient with a running baseline. The policy is the softmax of linear logits. The
steps of an episode are kept until it ends; then every step adds its clipped advantage times
the gradient of its log-likelihood, all under the policy from before the episode. The
baseline averages episode returns, and the first completed episode sets it. -/
namespace ProgramGym

structure PolicyStep (α : Type) where
  features : List α
  action : Nat
  reward : α

structure PolicyLearner (α : Type) where
  settings : PolicySettings α
  /-- One row of logit weights per action. -/
  weights : List (List α)
  baseline : α
  baselineSet : Bool
  buffer : List (PolicyStep α)

namespace PolicyLearner
variable {α : Type} [Scalar α]

@[specialize] def probabilitiesOf (weights : List (List α)) (features : List α) : List α :=
  Linear.softmax (weights.map (Linear.dot · features)) (Scalar.nat 1)

@[specialize] def probabilities (p : PolicyLearner α) (features : List α) : List α :=
  probabilitiesOf p.weights features

/-- A sample of the policy, or without exploration its most likely action. -/
@[specialize] def act (p : PolicyLearner α) (features : List α) (explore : Bool) (s : Source α) :
    Quantity α × Source α :=
  let probabilities := p.probabilities features
  if explore then
    let (u, s) := s.next
    (.count ((Linear.sample? probabilities u).getD 0), s)
  else (.count (Linear.argmax probabilities), s)

/-- The gradient rows after one step; a step without advantage adds nothing. -/
@[specialize] def addStep (p : PolicyLearner α) (gradient : List (List α)) (step : PolicyStep α)
    (return_ : α) : List (List α) :=
  let advantage := Linear.clip (return_ - p.baseline) p.settings.gradientClip
  if Scalar.eq advantage (Scalar.nat 0) then gradient
  else
    let probabilities := p.probabilities step.features
    gradient.zipIdx.map fun (row, a) =>
      let chosen : α := Scalar.ofBool (a == step.action)
      let coefficient := advantage * (chosen - probabilities.getD a Scalar.absent)
      Linear.addScaled row coefficient step.features

/-- Summed over the steps in order. -/
@[specialize] def gradient (p : PolicyLearner α) : List (List α) :=
  let returns := Linear.discountedReturns p.settings.gamma (p.buffer.map (·.reward))
  let zero := p.weights.map fun row => row.map fun _ => Scalar.nat 0
  (p.buffer.zip returns).foldl (fun gradient (step, g) => p.addStep gradient step g) zero

def episodeReturn (p : PolicyLearner α) : α :=
  p.buffer.foldl (fun sum step => sum + step.reward) (Scalar.nat 0)

def updateBaseline (p : PolicyLearner α) (episodeReturn : α) : PolicyLearner α :=
  if p.baselineSet then
    let m := p.settings.baselineMomentum
    { p with baseline := m * p.baseline + (Scalar.nat 1 - m) * episodeReturn }
  else { p with baseline := episodeReturn, baselineSet := true }

/-- One ascent step from the kept episode. -/
@[specialize] def ascend (p : PolicyLearner α) : PolicyLearner α :=
  let weights := List.zipWith (fun row direction => Linear.addScaled row p.settings.learningRate direction)
    p.weights p.gradient
  { p.updateBaseline p.episodeReturn with weights, buffer := [] }

@[specialize] def learn (p : PolicyLearner α) (step : PolicyStep α) (done : Bool) :
    PolicyLearner α :=
  let p := { p with buffer := p.buffer ++ [step] }
  if done then p.ascend else p

/-- Steps of an episode that was cut short are forgotten. -/
def startEpisode (p : PolicyLearner α) : PolicyLearner α := { p with buffer := [] }

@[specialize] def start (settings : PolicySettings α) (actions features : Nat) (s : Source α) :
    PolicyLearner α × Source α :=
  let (weights, s) := Linear.initialMatrix actions features settings.weightInit s
  (⟨settings, weights, Scalar.nat 0, false, []⟩, s)

end PolicyLearner
end ProgramGym
