import ProgramGym.Agent

/-! What sizes and settings have to be, where they are given as JSON of any kind. -/
namespace ProgramGym.LearnerSettings
open Json

/-- A whole number of at least one. -/
def requirePositive (name value : Option Json) : Except Fault Unit :=
  (Settings.positive (wording name) (.ofJson value)).map fun _ => ()

/-- A number in a range whose ends count as numbers and are shown as they are. -/
def requireWithin (name value low high bounds : Option Json) : Except Fault Unit :=
  match bounds with
  | some .null => .error .wrongKind
  | bounds =>
    let isOpen (side : Text) : Bool := holdsOf (bounds.bind (·.get? side))
    let range : Range := ⟨numberOf low, numberOf high, isOpen "minExclusive", isOpen "maxExclusive"⟩
    if (value.bind number?).any range.contains then .ok ()
    else .error (.configuration (.outOfRange (wording name)
      (Range.between range.lowOpen range.highOpen (wording low) (wording high)) (wording value)))

/-- The names that a value has of its own, the length of lists and texts among them. -/
def ownNames? (j : Json) : Option (List Text) :=
  let length : List Text := if j.elements?.isSome then ["length"] else []
  j.ownMembers?.map fun members => members.names ++ length

/-- Settings that are not among the known ones are refused together. -/
def requireKnownNames (agent known settings : Option Json) : Except Fault Unit :=
  match settings.bind ownMembers? with
  | none => .error .wrongKind
  | some [] => .ok ()
  | some members =>
    match known.bind ownNames? with
    | none => .error .wrongKind
    | some known => requireKnown (wording agent) known members.names

/-- The sizes of spaces. -/
def spacesOf : Option Json → Except Fault (Quantity Float × Quantity Float)
  | none | some .null => .error .wrongKind
  | some j => .ok (.ofJson (j.get? "actionSpaceSize"), .ofJson (j.get? "featureDimension"))

def requireSpaces (spaces : Option Json) : Except Fault Unit := do
  let (actions, features) ← spacesOf spaces
  let _ ← Spaces.check actions features
  pure ()

end ProgramGym.LearnerSettings
