import ProgramGym.Linear.Reader
import ProgramGym.Observation

/-! Observations of episodes and sizes that are given as documents. The features are a vector of
zeros that is written to at computed places: a place that is no index is passed over, and one
behind the end makes the vector longer, with nothing in between. -/
namespace ProgramGym.Observation.Documents
open Json

def field (j : Option Json) (name : Text) : Except Fault (Option Json) :=
  match j with
  | none | some .null => .error .wrongKind
  | some j => .ok (j.get? name)

/-- The number of features for sizes. -/
def featureCount (shape : Option Json) : Except Fault Float := do
  let window := numberOf (← field shape "observationLength")
  let vocabulary := numberOf (← field shape "vocabularySize")
  pure (window * vocabulary + 1 + 2 + 1)

/-- Stands where the window has no action. -/
def padding : Json := .number (-1)

/-- The last actions, latest first, in a window made for a length. -/
def recent (actions length : Option Json) : Except Fault (List Json) := do
  let size ← Linear.lengthFor length
  let shown := Linear.stepsBelow (numberOf length)
  match actions with
  | none | some .null =>
    if shown == 0 then pure (List.replicate size padding) else throw .wrongKind
  | some actions =>
    let latest := ((actions.elements?.getD []).reverse).take shown
    pure (latest ++ List.replicate (size - latest.length) padding)

/-- Entries of a vector, nothing where none was written. -/
abbrev Entries := List (Option Json)

def write (entries : Entries) (place : Text) (value : Json) : Entries :=
  match Members.index? place with
  | some i =>
    if i < entries.length then entries.set i (some value)
    else entries ++ List.replicate (i - entries.length) none ++ [some value]
  | none => entries

/-- A one for every action of the window, in the block of its place. -/
def writeWindow (vocabulary : Float) (entries : Entries) (window : List Json) : Entries :=
  window.zipIdx.foldl (fun entries (action, i) =>
    if same (some action) (some padding) then entries
    else
      let place := add (some (.number (Float.ofNat i * vocabulary))) (some action)
      write entries place.word (.number 1)) entries

/-- The values at places one after the other. -/
def writeFrom (entries : Entries) (place : Float) (values : List Json) : Entries :=
  (values.foldl (fun (p : Entries × Float) value =>
    (write p.1 (Number.text p.2) value, p.2 + 1)) (entries, place)).1

/-- The observation of an episode for sizes. -/
def encode (episode shape : Option Json) : Except Fault Json := do
  let window ← recent (← field episode "actions") (← field shape "observationLength")
  let steps := numberOf (← field shape "maxSteps")
  let progress := numberOf (← field episode "stepCount") / steps
  let tokens ← match ← field episode "tokens" with
    | none | some .null => throw .wrongKind
    | some tokens => pure (tokens.elements?.map fun xs => Float.ofNat xs.length)
  let emitted := tokens.getD Number.absent / steps
  let similarity := (← field episode "lastSimilarity").getD .null
  let size ← Linear.lengthFor (some (.number (← featureCount shape)))
  let vocabulary := numberOf (← field shape "vocabularySize")
  let offset := numberOf (← field shape "observationLength") * vocabulary
  let zeros : Entries := List.replicate size (some (.number 0))
  let features := writeFrom (writeWindow vocabulary zeros window) offset
    [.number progress, .number emitted, similarity, .number 1]
  pure (.object
    [("tokenIds", .array window), ("progress", .number progress),
     ("context", .array [.number emitted, similarity]),
     ("features", .array (features.map (·.getD .null)))])

end ProgramGym.Observation.Documents
