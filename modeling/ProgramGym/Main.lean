import ProgramGym.CommandLine
import ProgramGym.Storage.Database.Rows
import Std.Time.DateTime.Timestamp

/-! The program. One run works on values: the files that it may look at and the stored tables
are read before it, what it printed is shown and what it wrote is stored after it. -/
namespace ProgramGym.CommandLine

def content? (path : String) : IO (Option String) := do
  try
    let content ← IO.FS.readFile path
    pure (some content)
  catch _ => pure none

def variableNames : List String := ["RL_SEED", "RL_LOG_DIR", "RL_TASKS_PATH", "RL_DB_PATH"]

def readVariables : IO Variables := do
  let given ← variableNames.filterMapM fun name => do
    let v ← IO.getEnv name
    pure (v.map (name, ·))
  let file ← content? ".env.local"
  pure (Variables.fill given (Variables.read (file.getD "")))

/-- The disk with the file at a path, if there is one. -/
def place (d : Disk) (path : List String) : IO Disk := do
  match ← content? (Path.absolute path) with
  | some content =>
    pure (match d.makeDirectories (.ofPath path.dropLast) with
      | .ok d => d.put path (.file content)
      | .error _ => d)
  | none => pure d

/-- A path and all above it. -/
def ancestors (path : List String) : List (List String) :=
  (List.range path.length).map fun n => path.take (n + 1)

/-- The file with tasks, and files that stand where the log directory is to be. -/
def readDisk (working : List String) (arguments : List String) (vars : Variables) :
    IO Disk := do
  let directory := match Options.parse arguments vars with
    | .ok o => o.directory
    | .error _ => ""
  let tasks := ((vars.nonempty? "RL_TASKS_PATH").map (Path.components working)).toList
  let paths := tasks ++ ancestors (Path.components working directory)
  let d := match Disk.empty.makeDirectories (.ofPath working) with
    | .ok d => d
    | .error _ => Disk.empty
  paths.foldlM place d

def writeContent (path : List String) (content : String) : IO Unit := do
  IO.FS.createDirAll (Path.absolute path.dropLast)
  IO.FS.writeFile (Path.absolute path) content

/-- Stores the files that a run wrote. -/
def writeDisk (before after : Disk) : IO Unit :=
  after.entries.forM fun (path, e) =>
    match e with
    | .file content =>
      if before.entry? path == some e then pure () else writeContent path content
    | .directory => pure ()

def databasePath (working : List String) (vars : Variables) : List String :=
  Path.components working ((vars.nonempty? "RL_DB_PATH").getD "output/training.json")

/-- The stored tables, or empty ones. -/
def readDatabase (now : Instant) (path : List String) : IO Database := do
  let content ← content? (Path.absolute path)
  pure (((content.bind Json.parse?).bind (Database.ofJson? now)).getD (.empty now))

def display (e : Entry) : IO Unit :=
  match e.level with
  | .log => IO.println e.text
  | .warn | .error => IO.eprintln e.text

end ProgramGym.CommandLine

open ProgramGym CommandLine

def main (arguments : List String) : IO UInt32 := do
  let working := Path.parts ((← IO.getEnv "PWD").getD "/")
  let vars ← readVariables
  let now := Instant.ofMilliseconds (← Std.Time.Timestamp.now).toMillisecondsSinceUnixEpoch.val
  let disk ← readDisk working arguments vars
  let path := databasePath working vars
  let database ← readDatabase now path
  let seed ← IO.rand 0 0xFFFFFFFF
  let before : Session :=
    { clock := now, working, archive := ⟨disk, database⟩, console := []
      entropy := .ofSeed (UInt32.ofNat seed) }
  let (code, after) := CommandLine.run arguments vars before
  after.console.forM display
  writeDisk disk after.archive.disk
  let tables := after.archive.database.json.indented
  if tables != database.json.indented then writeContent path tables
  pure (UInt32.ofNat code)
