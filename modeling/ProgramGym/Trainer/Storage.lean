import ProgramGym.Storage.Database
import ProgramGym.Trainer

/-! Where trainers write: a directory for checkpoints and curve alike, or a namespace of the
database for the checkpoints and a directory for the curve. -/
namespace ProgramGym

/-- The files and tables that runs leave behind. -/
structure Archive where
  disk : Disk
  database : Database

namespace Archive
variable {β : Type}

def onDisk (op : Op Disk β) : Op Archive β := op.onPart (·.disk) fun a disk => { a with disk }

def onDatabase (op : Op Database β) : Op Archive β :=
  op.onPart (·.database) fun a database => { a with database }

end Archive

namespace TrainingStorage

def writeCurveFile (directory : Location) (content : String) : Op Disk Unit := fun d =>
  match d.replaceFile directory curveFile content with
  | (.ok (), d) => (.ok (), d)
  | (.error e, d) => (.error (.system e), d)

def loadCurve (directory : Location) : Op Disk String := fun d =>
  match d.readFile (directory.below curveFile) with
  | .ok content => (.ok content, d)
  | .error e => (.error (.system e), d)

/-- The folder for checkpoints within a directory. -/
def checkpointFolder : String := "checkpoints"

def inDirectory (directory : Location) : TrainingStorage Archive where
  checkpoints := (Checkpoints.files (directory.below checkpointFolder)).onPart (·.disk) fun a disk => { a with disk }
  writeCurve content := Archive.onDisk (writeCurveFile directory content)

def inDatabase (namespace_ : String) (directory : Location) : TrainingStorage Archive where
  checkpoints :=
    (Database.store namespace_).onPart (·.database) fun a database => { a with database }
  writeCurve content := Archive.onDisk (writeCurveFile directory content)

end TrainingStorage
end ProgramGym
