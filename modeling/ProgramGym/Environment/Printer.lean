import ProgramGym.Catalog.Printer
import ProgramGym.Environment

/-! What an environment shows, as JSON: settings, spaces, observations, steps and trajectories.
A place of the window without an action is written as minus one. -/
namespace ProgramGym

/-- A value that was left out is written null in a list. -/
def Quantity.json (q : Quantity Float) : Json := q.json?.getD .null

def TerminalReason.json (r : TerminalReason) : Json := .text r.name

def Spaces.json (s : Spaces) : Json :=
  .object [("actionSpaceSize", .nat s.actions), ("featureDimension", .nat s.features)]

def Settings.members (s : Settings) : Json.Members Json :=
  [("maxSteps", .nat s.maxSteps), ("endToken", Json.ofOption .text s.endToken),
   ("observationLength", .nat s.windowLength), ("separator", .text s.separator),
   ("executionPolicy", .text s.executionPolicy.name),
   ("invalidActionPolicy", .text s.invalidActionPolicy.name)]

def Settings.json (s : Settings) : Json := .object (s.members.override s.others)

def Verdict.json (v : Verdict) : Json :=
  .object
    [("success", .bool v.success), ("output", Json.ofOption .text v.output),
     ("error", Json.ofOption (fun e => .text e) v.error)]

/-- Whether the program ran, with what output and what error. -/
def Outcome.members (o : Outcome Float) : Json.Members Json :=
  o.given.getD
    [("executionSucceeded", .bool o.success), ("output", Json.ofOption .text o.output),
     ("error", Json.ofOption (fun c => .text (Complaint.message c)) o.error)]

namespace Observation

def windowJson (window : List (Option (Quantity Float))) : Json :=
  .array (window.map fun a => (a.map Quantity.json).getD (.number (-1)))

/-- All but the features. -/
def members (o : Observation Float) : Json.Members Json :=
  [("tokenIds", windowJson o.window), ("progress", .number o.progress),
   ("context", .array [.number o.emitted, .number o.similarity])]

def json (o : Observation Float) : Json :=
  Json.joined o.members [("features", .array (o.features.map .number))]

end Observation

/-- The reason is written only at the end of an episode. -/
def StepInfo.json (i : StepInfo Float) : Json :=
  let before : Json.Members Json :=
    [("step", .nat i.step), ("token", Json.ofOption .text i.token),
     ("invalidAction", .bool i.token.isNone), ("program", .text i.program),
     ("executionAttempted", .bool i.outcome.attempted)]
  let after : Json.Members Json :=
    [("similarity", .number i.outcome.similarity), ("success", .bool i.outcome.matched)]
  Json.joined (before ++ i.outcome.members)
    (after ++ .optional "terminalReason" (i.reason.map TerminalReason.json))

def StepResult.json (r : StepResult Float) : Json :=
  .object
    [("observation", r.observation.json), ("reward", .number r.reward), ("done", .bool r.done),
     ("info", r.info.json)]

def Transition.json (t : Transition Float) : Json :=
  let after : Json.Members Json :=
    [("reward", .number t.reward), ("nextObservation", .object t.nextObservation.members),
     ("done", .bool t.done), ("info", t.info.json)]
  Json.joined [("observation", .object t.observation.members)]
    (.optional "action" t.action.json? ++ after)

namespace Environment

def Trajectory.json (t : Trajectory Float) : Json :=
  .object
    [("transitions", .array (t.transitions.map Transition.json)),
     ("totalReturn", .number t.totalReturn), ("length", .nat t.transitions.length),
     ("outcome", Json.ofOption TerminalReason.json t.outcome), ("program", .text t.program)]

/-- The task and the episode so far. -/
def stateJson (env : Environment Float) : Json :=
  let e := env.episode
  .object
    [("task", env.rules.task.json), ("tokens", .array (e.tokens.map .text)),
     ("actions", .array (e.actions.map Quantity.json)), ("stepCount", .nat e.stepCount),
     ("done", .bool e.done), ("terminalReason", Json.ofOption TerminalReason.json e.reason),
     ("lastSimilarity", .number e.similarity)]

end Environment
end ProgramGym
