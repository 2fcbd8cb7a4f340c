import ProgramGym.Json.Wording
import ProgramGym.Storage.Checkpoints

/-! Requests to a store of files whose keys and payloads may be of any kind. A key is looked at
as text first, and only a text goes further; only a text can be written. -/
namespace ProgramGym.Checkpoints
open Json

/-- The key as a text, or why there is none. -/
def keyOf (key : Option Json) : Except Fault String :=
  match key with
  | some (.text t) => .ok t.toString
  | key =>
    let w := wording key
    if !w.isEmpty && w.toList.all isKeyChar then .error .wrongKind
    else .error (.foreignKey key .invalidKey)

/-- What is said of a payload that is no text. -/
def payloadComplaint (payload : Option Json) : String :=
  let received := match payload with
    | none => "undefined"
    | some .null => "null"
    | some (.number x) =>
      "type number (" ++ (if x == 0 && x.toBits != 0 then "-0" else Number.text x) ++ ")"
    | some (.bool b) => s!"type boolean ({b})"
    | some (.array _) => "an instance of Array"
    | some _ => "an instance of Object"
  "The \"data\" argument must be of type string or an instance of Buffer, TypedArray, or "
    ++ "DataView. Received " ++ received

/-- The directory is made before the payload is looked at. -/
def refusePayload (directory : Location) (key complaint : String) : Op Disk Unit := fun d =>
  if isKey key then
    match d.ensureDirectories directory with
    | (.error e, d) => (.error (.checkpoint key (.writeFailed e.message)), d)
    | (.ok (), d) => (.error (.checkpoint key (.writeFailed complaint)), d)
  else (.error (.checkpoint key .invalidKey), d)

def saveAny (directory : Location) (key payload : Option Json) : Op Disk Unit := do
  let k ← Op.ofExcept (keyOf key)
  match payload with
  | some (.text t) => (files directory).save k t.toString
  | payload => refusePayload directory k (payloadComplaint payload)

def loadAny (directory : Location) (key : Option Json) : Op Disk String := do
  (files directory).load (← Op.ofExcept (keyOf key))

end ProgramGym.Checkpoints
