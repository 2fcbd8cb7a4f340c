import ProgramGym.Fault
import ProgramGym.Json.Basic

/-! Settings of the learners by name: which there are, their defaults, the ranges they have to
lie in. The first setting out of its range, in the order of the record, is the error. -/
namespace ProgramGym

structure QSettings (α : Type) where
  learningRate : α
  /-- Discount of the next step's value. -/
  gamma : α
  /-- Exploration at the start, its factor per episode and its floor. -/
  epsilon : α
  epsilonDecay : α
  epsilonMin : α
  /-- Bound of one update's error. -/
  tdErrorClip : α
  /-- Scale of random first weights. -/
  weightInit : α

structure PolicySettings (α : Type) where
  learningRate : α
  gamma : α
  /-- Weight of the past in the running baseline. -/
  baselineMomentum : α
  /-- Bound of one step's advantage. -/
  gradientClip : α
  weightInit : α

namespace LearnerSettings

def refuse (name : String) (range : Range) (value : String) : Fault :=
  .configuration (.outOfRange name range.text value)

def require (name : String) (range : Range) (x : Float) : Except Fault Unit :=
  if range.contains x then .ok () else .error (refuse name range (Number.text x))

/-- From zero to one. -/
def unit : Range := ⟨0, 1, false, false⟩

def positiveUnit : Range := ⟨0, 1, true, false⟩

def belowOne : Range := ⟨0, 1, false, true⟩

def positive : Range := ⟨0, Number.infinity, true, true⟩

def positiveBound : Range := ⟨0, Number.infinity, true, false⟩

def nonNegative : Range := ⟨0, Number.infinity, false, true⟩

/-- Settings that are not among the known ones are refused together. -/
def requireKnown (agent : String) (known settings : List Text) : Except Fault Unit :=
  match settings.filter (!known.contains ·) with
  | [] => .ok ()
  | unknown => .error (.configuration (.unknownSettings agent (unknown.map Text.toString)))

/-- A setting of any kind that has to be a number in a range; one that is left out has its
default. -/
def setting (settings : Json.Members Json) (name : String) (range : Range) (default : Float) :
    Except Fault Float :=
  match settings.get? name with
  | none => .ok default
  | some (.number x) => (require name range x).map fun () => x
  | some j => .error (refuse name range j.plain)

end LearnerSettings

namespace QSettings

def default : QSettings Float := ⟨0.1, 0.95, 1, 0.995, 0.05, 10, 0⟩

def members (s : QSettings Float) : Json.Members Float :=
  [("learningRate", s.learningRate), ("gamma", s.gamma), ("epsilon", s.epsilon),
   ("epsilonDecay", s.epsilonDecay), ("epsilonMin", s.epsilonMin),
   ("tdErrorClip", s.tdErrorClip), ("weightInit", s.weightInit)]

def names : List Text := default.members.names

open LearnerSettings in
/-- The defaults with given settings over them, all known and in range. -/
def resolve (settings : Json.Members Json) : Except Fault (QSettings Float) := do
  requireKnown AgentKind.qlearning.name names settings.names
  let learningRate ← setting settings "learningRate" positive default.learningRate
  let gamma ← setting settings "gamma" positiveUnit default.gamma
  let epsilon ← setting settings "epsilon" unit default.epsilon
  let epsilonDecay ← setting settings "epsilonDecay" positiveUnit default.epsilonDecay
  let epsilonMin ← setting settings "epsilonMin" unit default.epsilonMin
  let tdErrorClip ← setting settings "tdErrorClip" positiveBound default.tdErrorClip
  let weightInit ← setting settings "weightInit" nonNegative default.weightInit
  if epsilonMin > epsilon then throw (.configuration (.floorAboveStart epsilonMin epsilon))
  pure { learningRate, gamma, epsilon, epsilonDecay, epsilonMin, tdErrorClip, weightInit }

end QSettings

namespace PolicySettings

def default : PolicySettings Float := ⟨0.05, 0.99, 0.9, 5, 0.01⟩

def members (s : PolicySettings Float) : Json.Members Float :=
  [("learningRate", s.learningRate), ("gamma", s.gamma), ("baselineMomentum", s.baselineMomentum),
   ("gradientClip", s.gradientClip), ("weightInit", s.weightInit)]

def names : List Text := default.members.names

open LearnerSettings in
/-- The defaults with given settings over them, all known and in range. -/
def resolve (settings : Json.Members Json) : Except Fault (PolicySettings Float) := do
  requireKnown AgentKind.policyGradient.name names settings.names
  let learningRate ← setting settings "learningRate" positive default.learningRate
  let gamma ← setting settings "gamma" positiveUnit default.gamma
  let baselineMomentum ← setting settings "baselineMomentum" belowOne default.baselineMomentum
  let gradientClip ← setting settings "gradientClip" positiveBound default.gradientClip
  let weightInit ← setting settings "weightInit" nonNegative default.weightInit
  pure { learningRate, gamma, baselineMomentum, gradientClip, weightInit }

end PolicySettings
end ProgramGym
