import ProgramGym.Fault
import ProgramGym.Storage.Path

/-! A file system as a value: files and directories by their path components below a root
that is always there. An operation that fails changes nothing, except that directories which were
made on the way to a place stay. Names and whole paths have a greatest length, and an error shows a
path as it was named. -/
namespace ProgramGym

inductive DiskEntry where
  | file (content : String)
  | directory
  deriving DecidableEq, Repr

/-- A place in the file system and the way it is named. -/
structure Location where
  path : List String
  text : String

namespace Location

/-- Named by its path from the root. -/
def ofPath (path : List String) : Location := ⟨path, Path.absolute path⟩

/-- As a text names it, a relative one below a working directory. -/
def ofText (working : List String) (text : String) : Location :=
  ⟨Path.components working text, text⟩

def below (l : Location) (name : String) : Location := ⟨l.path ++ [name], Path.join [l.text, name]⟩

def error (l : Location) (cause : SystemCause) (action : String) : SystemError :=
  ⟨cause, action, l.text⟩

/-- The greatest number of bytes in a name, and one more than that in a path. -/
def nameLimit : Nat := 255

def textLimit : Nat := 4096

def isTooLong (l : Location) : Bool := textLimit ≤ l.text.utf8ByteSize

end Location

/-- Each path has at most one entry; the root has none and is a directory. -/
structure Disk where
  entries : List (List String × DiskEntry)
  deriving Repr

namespace Disk

def empty : Disk := ⟨[]⟩

def entry? (d : Disk) (path : List String) : Option DiskEntry :=
  if path.isEmpty then some .directory else d.entries.lookup path

def nameTooLong (path : List String) : Bool :=
  path.getLast?.any fun name => Location.nameLimit < name.utf8ByteSize

/-- Checks that the parts of a path above its last one are directories and that no name is too
long. -/
def checkParents (d : Disk) (action : String) (l : Location) : Except SystemError Unit := do
  if l.isTooLong then throw (l.error .nameTooLong action)
  (List.range l.path.length).forM fun n =>
    match d.entry? (l.path.take n) with
    | some .directory =>
      if nameTooLong (l.path.take (n + 1)) then .error (l.error .nameTooLong action) else .ok ()
    | some (.file _) => .error (l.error .notDirectory action)
    | none => .error (l.error .missing action)

def lookup (d : Disk) (action : String) (l : Location) : Except SystemError DiskEntry := do
  d.checkParents action l
  match d.entry? l.path with
  | some e => pure e
  | none => throw (l.error .missing action)

def contains (d : Disk) (l : Location) : Bool := (d.lookup "stat" l).isOk

def erase (d : Disk) (path : List String) : Disk := ⟨d.entries.filter (·.1 != path)⟩

def put (d : Disk) (path : List String) (e : DiskEntry) : Disk :=
  ⟨(path, e) :: (d.erase path).entries⟩

/-- Makes one part of a path a directory, the parts before it being directories. -/
def makePart (l : Location) (d : Disk) (n : Nat) : Except SystemError Disk :=
  let path := l.path.take (n + 1)
  if nameTooLong path then .error (l.error .nameTooLong "mkdir")
  else match d.entry? path with
    | some .directory => .ok d
    | some (.file _) =>
      if n + 1 == l.path.length then .error (l.error .occupied "mkdir")
      else .error (l.error .notDirectory "mkdir")
    | none => .ok (d.put path .directory)

/-- Makes so many parts of a path directories. A failure leaves those before it. -/
def makeParts (d : Disk) (l : Location) : (parts : Nat) → Except SystemError Unit × Disk
  | 0 => (.ok (), d)
  | n + 1 =>
    match d.makeParts l n with
    | (.error e, d) => (.error e, d)
    | (.ok (), d) =>
      match makePart l d n with
      | .error e => (.error e, d)
      | .ok d => (.ok (), d)

/-- Makes a directory and those above it; directories that exist already are kept. -/
def ensureDirectories (d : Disk) (l : Location) : Except SystemError Unit × Disk :=
  if l.isTooLong then (.error (l.error .nameTooLong "mkdir"), d)
  else d.makeParts l l.path.length

/-- The same for those who give up at a failure. -/
def makeDirectories (d : Disk) (l : Location) : Except SystemError Disk :=
  match d.ensureDirectories l with
  | (.error e, _) => .error e
  | (.ok (), d) => .ok d

def writeFile (d : Disk) (l : Location) (content : String) : Except SystemError Disk := do
  d.checkParents "open" l
  match d.entry? l.path with
  | some .directory => throw (l.error .isDirectory "open")
  | _ => pure (d.put l.path (.file content))

def readFile (d : Disk) (l : Location) : Except SystemError String := do
  match ← d.lookup "open" l with
  | .file content => pure content
  | .directory => throw (l.error .isDirectory "read")

/-- Moves a file over another one or to a free path. -/
def renameFile (d : Disk) (source target : Location) : Except SystemError Disk := do
  let content ← d.readFile source
  d.checkParents "rename" target
  match d.entry? target.path with
  | some .directory => throw (target.error .isDirectory "rename")
  | _ => pure ((d.erase source.path).put target.path (.file content))

/-- The names in a directory. -/
def names (d : Disk) (l : Location) : Except SystemError (List String) := do
  match ← d.lookup "scandir" l with
  | .file _ => throw (l.error .notDirectory "scandir")
  | .directory =>
    pure (d.entries.filterMap fun (p, _) =>
      if p.length == l.path.length + 1 && p.take l.path.length == l.path then p.getLast? else none)

/-- The files below a directory by their paths relative to it, sorted. -/
def filesBelow (d : Disk) (path : List String) : List String :=
  (d.entries.filterMap fun (p, e) =>
    match e with
    | .file _ =>
      if path.length < p.length && p.take path.length == path then
        some ("/".intercalate (p.drop path.length))
      else none
    | .directory => none).mergeSort Text.le

/-- The files below a directory, which may be missing but not be a file itself. -/
def listFiles (d : Disk) (l : Location) : Except SystemError (List String) :=
  match d.entry? l.path with
  | some (.file _) => .error (l.error .notDirectory "scandir")
  | _ => .ok (d.filesBelow l.path)

/-- Writes a file beside its target and moves it there, the directory made if need be. A
failure leaves what was done before it: directories, and at most the file beside the target. -/
def replaceFile (d : Disk) (directory : Location) (name content : String) :
    Except SystemError Unit × Disk :=
  let temporary := directory.below (name ++ ".tmp")
  match d.ensureDirectories directory with
  | (.error e, d) => (.error e, d)
  | (.ok (), d) =>
    match d.writeFile temporary content with
    | .error e => (.error e, d)
    | .ok d =>
      match d.renameFile temporary (directory.below name) with
      | .error e => (.error e, d)
      | .ok d => (.ok (), d)

end Disk
end ProgramGym
