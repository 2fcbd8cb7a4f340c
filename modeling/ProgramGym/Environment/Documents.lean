import ProgramGym.Environment.Settings
import ProgramGym.Json.Wording

/-! Vocabularies that are given as documents. An array has its items as tokens, which are told
apart by kind and value; a text has its characters, but its length is counted in units and any
piece of it passes as a token. Anything else has no tokens, and is refused as empty only if it
calls itself so. -/
namespace ProgramGym.Environment.Documents

def repeats : List Json → Bool
  | [] => false
  | j :: rest => rest.any (fun k => Json.alike (some j) (some k)) || repeats rest

/-- Whether units stand within others, side by side. -/
def within (piece : List UInt16) : List UInt16 → Bool
  | [] => piece.isEmpty
  | u :: rest => piece.isPrefixOf (u :: rest) || within piece rest

/-- Settings that pass against a vocabulary of any kind. -/
def settings (vocabulary : Json) (request : SettingsRequest) : Except Fault Settings :=
  match vocabulary with
  | .array items =>
    Settings.check items.isEmpty (repeats items)
      (fun j => items.any fun item => Json.alike (some item) (some j)) request
  | .text t =>
    Settings.check t.isEmpty (t.points.eraseDups.length != t.length) (fun j => within j.word.units t.units)
      request
  | j =>
    if Json.same (j.get? "length") (some (.number 0)) then
      .error (.configuration .emptyVocabulary)
    else .error .wrongKind

end ProgramGym.Environment.Documents
