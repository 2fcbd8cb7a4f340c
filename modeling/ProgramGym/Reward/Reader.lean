import ProgramGym.Json.Wording
import ProgramGym.Reward

/-! Rewards from JSON: by name with options, or of a class with settings. -/
namespace ProgramGym.RewardDesign

/-- By a name of any kind. The plain kind looks its settings up in the options, the other one
spreads them over its defaults. -/
def asked (name : Json) (options : Option Json) : Except Fault RewardDesign :=
  match name with
  | .text t =>
    if t == "correctness" then
      match options with
      | some .null => .error .wrongKind
      | options => named "correctness" ((options.bind Json.members?).getD [])
    else named t.toString (Json.spread options)
  | name => .error (.configuration (.unknownReward name.plain))

/-- Without a specification the default. -/
def ofJson : Option Json → Except Fault RewardDesign
  | none => .ok .default
  | some j =>
    match j.get? "name" with
    | some name => asked name (j.get? "options")
    | none =>
      let settings := Json.spread (j.get? "config")
      if (j.get? "class").bind Json.text? == some "efficiency" then efficiency settings
      else correctness settings

/-- What a step learned, from a document; what is left out is false, null or zero. Only a missing
error is none, and an output counts by whether it holds. -/
def outcomeOf (j : Json) : Outcome Float where
  attempted := Json.holdsOf (j.get? "attempted")
  success := Json.holdsOf (j.get? "success")
  matched := Json.holdsOf (j.get? "matched")
  output := ((j.get? "output").filter Json.holds).map Json.word
  error := ((j.get? "error").filter fun e => !e.isNull).map fun e => .reported e.plain
  similarity := ((j.get? "similarity").map Json.toNumber).getD 0

/-- The reward of a step after so many tokens, where the step is given as a document. A match that
is scored by its length has none after what has no elements. -/
def rewardOf (design : RewardDesign) (tokens : Option Json) (execution : Json) :
    Except Fault Float :=
  let outcome := outcomeOf execution
  let after (n : Nat) : Except Fault Float := .ok (design.reward.compute n outcome)
  match design.reward, outcome.matched, tokens with
  | .efficiency .., true, some .null => .error .wrongKind
  | .efficiency .., true, some j =>
    match j.elements? with
    | some xs => after xs.length
    | none => .ok Number.absent
  | _, _, tokens => after ((tokens.bind Json.elements?).getD []).length

end ProgramGym.RewardDesign
