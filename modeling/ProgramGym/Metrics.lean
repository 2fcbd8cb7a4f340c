import ProgramGym.Episode
import ProgramGym.Json.Basic

/-! Records of episodes and the figures drawn from them. No records give zeros. -/
namespace ProgramGym

structure EpisodeRecord (α : Type) where
  episode : Nat
  totalReward : α
  success : Bool
  steps : Nat
  reason : Option TerminalReason
  program : Text

/-- How many episodes ended for each reason. -/
structure OutcomeCounts where
  success : Nat
  maxSteps : Nat
  naturalStop : Nat
  invalidAction : Nat
  deriving DecidableEq, Repr

namespace OutcomeCounts

def of (counts : OutcomeCounts) : TerminalReason → Nat
  | .success => counts.success
  | .maxSteps => counts.maxSteps
  | .naturalStop => counts.naturalStop
  | .invalidAction => counts.invalidAction

def ofReasons (reasons : List (Option TerminalReason)) : OutcomeCounts :=
  let count (r : TerminalReason) := (reasons.filter (· == some r)).length
  ⟨count .success, count .maxSteps, count .naturalStop, count .invalidAction⟩

/-- The reasons that occurred with their counts. -/
def text (counts : OutcomeCounts) : String :=
  let parts := (TerminalReason.all.filter (counts.of · > 0)).map fun r =>
    r.name ++ "=" ++ (Quantity.count (counts.of r)).text
  if parts.isEmpty then "none" else ", ".intercalate parts

end OutcomeCounts

structure Metrics (α : Type) where
  numEpisodes : Nat
  successRate : α
  meanReward : α
  rewardVariance : α
  stdReward : α
  meanLength : α
  stdLength : α
  outcomes : OutcomeCounts
  samplePrograms : List Text

namespace Metrics

/-- Whether so many samples are enough. -/
def enough (limit : Quantity Float) (found : Nat) : Bool :=
  match limit with
  | .count n => n ≤ found
  | .other x => x ≤ Float.ofNat found
  | .foreign _ => false

/-- Different programs in the order of their first appearance, until there are enough. -/
def samples (enough : Nat → Bool) : (found : List Text) → List Text → List Text
  | found, [] => found
  | found, program :: rest =>
    if enough found.length then found
    else samples enough (if found.contains program then found else found ++ [program]) rest

variable {α : Type} [Scalar α]

@[specialize] def compute (records : List (EpisodeRecord α)) (limit : Quantity Float) : Metrics α :=
  let rewards := records.map (·.totalReward)
  let lengths : List α := records.map fun r => Scalar.nat r.steps
  let rewardVariance := Scalar.variance rewards
  { numEpisodes := records.length
    successRate :=
      if records.isEmpty then Scalar.nat 0
      else Scalar.nat (records.filter (·.success)).length / Scalar.nat records.length
    meanReward := Scalar.mean rewards
    rewardVariance
    stdReward := Scalar.sqrt rewardVariance
    meanLength := Scalar.mean lengths
    stdLength := Scalar.sqrt (Scalar.variance lengths)
    outcomes := .ofReasons (records.map (·.reason))
    samplePrograms := samples (enough limit) [] (records.map (·.program)) }

/-- The number of sample programs that evaluations keep. -/
def sampleLimit : Quantity Float := .count 5

/-- Two figures and the change between them in percent of the first one's size; from zero any
rise counts as a hundred percent. -/
structure Comparison (α : Type) where
  baseline : α
  learned : α
  improvement : α

def improvement (baseline learned : α) : α :=
  if !Scalar.eq baseline (Scalar.nat 0) then
    (learned - baseline) / Scalar.abs baseline * Scalar.nat 100
  else if Scalar.lt (Scalar.nat 0) learned then Scalar.nat 100
  else Scalar.nat 0

def compareFigures (baseline learned : α) : Comparison α :=
  ⟨baseline, learned, improvement baseline learned⟩

structure Comparisons (α : Type) where
  meanReward : Comparison α
  successRate : Comparison α
  meanLength : Comparison α

def compare (baseline learned : Metrics α) : Comparisons α where
  meanReward := compareFigures baseline.meanReward learned.meanReward
  successRate := compareFigures baseline.successRate learned.successRate
  meanLength := compareFigures baseline.meanLength learned.meanLength

/-- A report of five lines. -/
def text (m : Metrics Float) : String :=
  "\n".intercalate
    ["Episodes: " ++ (Quantity.count m.numEpisodes).text,
     "Success Rate: " ++ Number.percent m.successRate,
     "Mean Reward: " ++ Number.fixedText m.meanReward 3 ++ " ± " ++ Number.fixedText m.stdReward 3,
     "Mean Length: " ++ Number.fixedText m.meanLength 1 ++ " steps",
     "Outcomes: " ++ m.outcomes.text]

def json (m : Metrics Float) : Json :=
  .object
    [("numEpisodes", .nat m.numEpisodes), ("successRate", .number m.successRate),
     ("meanReward", .number m.meanReward), ("rewardVariance", .number m.rewardVariance),
     ("stdReward", .number m.stdReward), ("meanLength", .number m.meanLength),
     ("stdLength", .number m.stdLength),
     ("outcomes", .object (TerminalReason.all.map fun r => (Text.ofString r.name, .nat (m.outcomes.of r)))),
     ("samplePrograms", .array (m.samplePrograms.map .text))]

end Metrics
end ProgramGym
