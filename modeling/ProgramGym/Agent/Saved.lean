import ProgramGym.Fault
import ProgramGym.Json.Printer
import ProgramGym.Json.Reader

/-! The stored form of an agent: a JSON object with eight fields. Reading checks the kinds of
the fields and nothing else; whether a state suits an agent is for the agent to say. -/
namespace ProgramGym

structure SavedAgent where
  kind : AgentKind
  actions : Float
  features : Float
  settings : Json.Members Float
  weights : List (List Float)
  state : Json.Members Float
  episodes : Float
  updated : String

namespace SavedAgent

/-- The settings as values that are still to be checked. -/
def settingsGiven (s : SavedAgent) : Json.Members Json :=
  s.settings.map fun (name, x) => (name, .number x)

def numbers? (members : Json.Members Json) : Option (Json.Members Float) :=
  members.mapM fun (name, value) => value.number?.map (name, ·)

def matrix? (j : Json) : Option (List (List Float)) :=
  j.items?.bind fun rows => rows.mapM fun row => row.items?.bind (·.mapM Json.number?)

def ofMembers? (members : Json.Members Json) : Option SavedAgent := do
  let kind ← ((members.get? "type").bind Json.text?).bind (AgentKind.ofName? ·.toString)
  let actions ← (members.get? "actionSpaceSize").bind Json.number?
  let features ← (members.get? "featureDimension").bind Json.number?
  let settings ← ((members.get? "config").bind Json.members?).bind numbers?
  let weights ← (members.get? "weights").bind matrix?
  let state ← ((members.get? "state").bind Json.members?).bind numbers?
  let episodes ← (members.get? "episodesTrained").bind Json.number?
  let updated := (← (members.get? "lastUpdated").bind Json.text?).toString
  pure ⟨kind, actions, features, settings, weights, state, episodes, updated⟩

def read (text : String) : Except Fault SavedAgent :=
  match Json.parse? text with
  | none => .error (.configuration .stateNotJson)
  | some j =>
    match j.members? with
    | none => .error (.configuration .stateNotObject)
    | some members =>
      match ofMembers? members with
      | some saved => .ok saved
      | none => .error (.configuration .stateIncomplete)

def numberMembers (members : Json.Members Float) : Json :=
  .object (members.map fun (name, x) => (name, .number x))

def matrix (rows : List (List Float)) : Json := .array (rows.map fun row => .array (row.map .number))

def json (s : SavedAgent) : Json :=
  .object
    [("type", .text s.kind.name), ("actionSpaceSize", .number s.actions),
     ("featureDimension", .number s.features), ("episodesTrained", .number s.episodes),
     ("lastUpdated", .text s.updated), ("config", numberMembers s.settings),
     ("weights", matrix s.weights), ("state", numberMembers s.state)]

def write (s : SavedAgent) : String := s.json.compact

end SavedAgent
end ProgramGym
