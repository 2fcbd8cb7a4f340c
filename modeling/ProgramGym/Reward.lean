import ProgramGym.Episode
import ProgramGym.Json.Basic

/-! Rewards of single steps. Both kinds are functions of the tokens before the step and of what
the step learned. A match earns the success reward; in the efficient kind a program longer
than the target gives up part of a bonus and pays for every token of the excess. -/
namespace ProgramGym

structure RewardTerms (α : Type) where
  success : α
  stepPenalty : α
  errorPenalty : α
  partialCredit : α

inductive Reward (α : Type) where
  | correctness (terms : RewardTerms α)
  | efficiency (terms : RewardTerms α) (target : Nat) (bonus lengthPenalty : α)

namespace Reward
variable {α : Type} [Scalar α]

def name : Reward α → String
  | correctness .. => "correctness"
  | efficiency .. => "efficiency"

/-- A step without a match: the penalty, and either the error penalty or credit for a
similar output that is not empty. -/
def unmatched (terms : RewardTerms α) (o : Outcome α) : α :=
  if o.error.isSome then terms.stepPenalty + terms.errorPenalty
  else if o.attempted && o.success && o.output.any (!·.isEmpty) then
    terms.stepPenalty + o.similarity * terms.partialCredit
  else terms.stepPenalty

/-- A match by a program of some length. -/
def matchedAt (terms : RewardTerms α) (target : Nat) (bonus lengthPenalty : α) (length : Nat) : α :=
  let excess : α := Scalar.nat (length - target)
  terms.success + bonus / (Scalar.nat 1 + excess) - lengthPenalty * excess

/-- A match follows a valid action, so the program is one token longer than before the step. -/
def compute (r : Reward α) (tokensBefore : Nat) (o : Outcome α) : α :=
  match r with
  | correctness terms => if o.matched then terms.success else unmatched terms o
  | efficiency terms target bonus lengthPenalty =>
    if o.matched then matchedAt terms target bonus lengthPenalty (tokensBefore + 1)
    else unmatched terms o

end Reward

/-- A reward with the settings it was made from. -/
structure RewardDesign where
  reward : Reward Float
  settings : Json.Members Float

namespace RewardDesign

def correctnessDefaults : Json.Members Json :=
  [("successReward", .number 10), ("stepPenalty", .number (-0.1)), ("errorPenalty", .number (-1)),
   ("partialCreditWeight", .number 2)]

def efficiencyDefaults : Json.Members Json :=
  [("successReward", .number 20), ("stepPenalty", .number (-0.1)), ("errorPenalty", .number (-1)),
   ("partialCreditWeight", .number 2), ("targetLength", .number 20), ("efficiencyBonus", .number 5),
   ("lengthPenalty", .number 0.1)]

def finite (reward : String) (settings : Json.Members Json) : Except Fault (Json.Members Float) :=
  settings.mapM fun (name, value) =>
    match value with
    | .number x =>
      if x.isFinite then .ok (name, x) else .error (.configuration (.notFinite reward name.toString))
    | _ => .error (.configuration (.notFinite reward name.toString))

def setting (settings : Json.Members Float) (name : Text) : Float :=
  (settings.get? name).getD Number.absent

def terms (settings : Json.Members Float) : RewardTerms Float where
  success := setting settings "successReward"
  stepPenalty := setting settings "stepPenalty"
  errorPenalty := setting settings "errorPenalty"
  partialCredit := setting settings "partialCreditWeight"

def requirePartialCredit (t : RewardTerms Float) : Except Fault Unit :=
  if t.partialCredit < 0 then
    .error (.configuration (.negativeWeight "correctness" "partialCreditWeight"))
  else .ok ()

/-- The default terms with other settings over them; every setting, known or not, has to be a
finite number. -/
def correctness (settings : Json.Members Json) : Except Fault RewardDesign := do
  let settings ← finite "correctness" (correctnessDefaults.override settings)
  requirePartialCredit (terms settings)
  pure ⟨.correctness (terms settings), settings⟩

def efficiency (settings : Json.Members Json) : Except Fault RewardDesign := do
  let settings ← finite "efficiency" (efficiencyDefaults.override settings)
  let bonus := setting settings "efficiencyBonus"
  let penalty := setting settings "lengthPenalty"
  match Number.toNat? (setting settings "targetLength") with
  | none | some 0 => .error (.configuration .targetNotPositive)
  | some target =>
    if penalty < 0 || bonus < 0 then
      .error (.configuration (.negativeWeight "efficiency" "lengthPenalty and efficiencyBonus"))
    else do
      requirePartialCredit (terms settings)
      pure ⟨.efficiency (terms settings) target bonus penalty, settings⟩

/-- By name. The plain kind takes no settings but its own. -/
def named (name : String) (settings : Json.Members Json) : Except Fault RewardDesign :=
  if name == "correctness" then
    correctness (settings.filter fun (n, _) => correctnessDefaults.contains n)
  else if name == "efficiency" then efficiency settings
  else .error (.configuration (.unknownReward name))

def default : RewardDesign where
  reward := .correctness ⟨10, -0.1, -1, 2⟩
  settings := [("successReward", 10), ("stepPenalty", -0.1), ("errorPenalty", -1),
    ("partialCreditWeight", 2)]

end RewardDesign
end ProgramGym
