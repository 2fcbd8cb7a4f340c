import ProgramGym.Episode

/-! What a learner sees of an episode: its last actions, latest first, and how far it has come.
The features are one block per place of the window, all zero where no action stands, then
the progress, the share of steps that emitted a token, the last similarity and a constant one.
The window, its blocks and the features are lists of any length. That a vector of 2^32 entries or
more cannot be made is not said here; it is where vectors are asked for by their length, and sizes
that need such a vector are refused there (`Observation.Documents.encode`). -/
namespace ProgramGym

structure Observation (α : Type) where
  /-- Nothing stands where the episode is younger than the window. -/
  window : List (Option (Quantity α))
  progress : α
  emitted : α
  similarity : α
  features : List α

namespace Observation

/-- The sizes that an encoding hangs on. -/
structure Shape where
  vocabularySize : Nat
  windowLength : Nat
  maxSteps : Nat

def Shape.featureCount (s : Shape) : Nat := s.windowLength * s.vocabularySize + 4

/-- The last so many entries, latest first, filled up with nothing. -/
def recent {β : Type} (length : Nat) (entries : List β) : List (Option β) :=
  let latest := (entries.reverse.take length).map some
  latest ++ List.replicate (length - latest.length) none

variable {α : Type} [Scalar α]

/-- All zero but for a one at an index. -/
@[specialize] def oneHot (size : Nat) (index : Option Nat) : List α :=
  (List.range size).map fun i => Scalar.ofBool (index == some i)

@[specialize] def encode (s : Shape) (e : Episode α) : Observation α :=
  let window := recent s.windowLength e.actions
  let progress : α := Scalar.nat e.stepCount / Scalar.nat s.maxSteps
  let emitted : α := Scalar.nat e.tokens.length / Scalar.nat s.maxSteps
  { window, progress, emitted
    similarity := e.similarity
    features := window.flatMap (fun a => oneHot s.vocabularySize (a.bind Quantity.index?))
      ++ [progress, emitted, e.similarity, Scalar.nat 1] }

end Observation
end ProgramGym
