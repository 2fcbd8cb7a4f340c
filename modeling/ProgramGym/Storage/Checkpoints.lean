import ProgramGym.Storage.Disk

/-! Stores of checkpoints. A store is what can be done with it on a state of the world: files in
a directory, keys in memory, or a memory whose writes fail. -/
namespace ProgramGym

structure CheckpointStore (ω : Type) where
  save : String → String → Op ω Unit
  load : String → Op ω String
  list : Op ω (List String)

namespace CheckpointStore
variable {ω υ : Type}

/-- The same store on a part of a larger world. -/
def onPart (get : υ → ω) (set : υ → ω → υ) (s : CheckpointStore ω) : CheckpointStore υ where
  save key payload := (s.save key payload).onPart get set
  load key := (s.load key).onPart get set
  list := s.list.onPart get set

end CheckpointStore

namespace Checkpoints

/-- Keys are letters, digits, underscores, dots and dashes, at least one and no dot in front. -/
def isKeyChar (c : Char) : Bool := c.isAlphanum || c == '_' || c == '.' || c == '-'

def isKey (key : String) : Bool :=
  !key.isEmpty && key.toList.all isKeyChar && key.toList.head? != some '.'

def fileName (key : String) : String := key ++ ".json"

/-- The key that a file name stands for. -/
def keyOf? (name : String) : Option String :=
  let cs := name.toList
  let suffix := ".json".toList
  if suffix.isSuffixOf cs then some (String.ofList (cs.take (cs.length - suffix.length))) else none

/-- Files in a directory. A write that fails becomes an error of the store. -/
def files (directory : Location) : CheckpointStore Disk where
  save key payload := fun d =>
    if !isKey key then (.error (.checkpoint key .invalidKey), d)
    else match d.replaceFile directory (fileName key) payload with
      | (.ok (), d) => (.ok (), d)
      | (.error e, d) => (.error (.checkpoint key (.writeFailed e.message)), d)
  load key := fun d =>
    let path := directory.below (fileName key)
    if !isKey key then (.error (.checkpoint key .invalidKey), d)
    else if !d.contains path then (.error (.checkpoint key .notFound), d)
    else match d.readFile path with
      | .ok content => (.ok content, d)
      | .error e => (.error (.checkpoint key (.readFailed e.message)), d)
  list := fun d =>
    if !d.contains directory then (.ok [], d)
    else match d.names directory with
      | .ok names => (.ok ((names.filterMap keyOf?).mergeSort Text.le), d)
      | .error e => (.error (.system e), d)

/-- Keys in the order in which they were first saved. -/
abbrev Memory := List (String × String)

def Memory.put (key payload : String) : Memory → Memory
  | [] => [(key, payload)]
  | (k, p) :: rest => if k == key then (k, payload) :: rest else (k, p) :: put key payload rest

def memory : CheckpointStore Memory where
  save key payload := fun m => (.ok (), m.put key payload)
  load key := fun m =>
    match m.lookup key with
    | some payload => (.ok payload, m)
    | none => (.error (.failure s!"missing {key}"), m)
  list := fun m => (.ok (m.map (·.1)), m)

/-- A memory that refuses to write some keys. -/
def refusing (refuse : String → Option Fault) : CheckpointStore Memory :=
  { memory with
    save := fun key payload =>
      match refuse key with
      | some fault => fun m => (.error fault, m)
      | none => memory.save key payload }

end Checkpoints
end ProgramGym
