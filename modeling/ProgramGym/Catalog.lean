import ProgramGym.Fault

/-! Tasks and the vocabularies of their languages. A task is found by its language and
identifier joined with a slash, so a catalog admits no two tasks that join to one text. -/
namespace ProgramGym

/-- Tokens that may be emitted; an action is an index into them. -/
abbrev Vocabulary := List Text

/-- A program to be found, known by what it prints. -/
structure Task where
  id : Text
  language : Text
  source : Text
  expectedOutput : Text
  description : Option Text
  /-- The document that the task was given as, if it is to be shown as it is; the fields above
  are the wordings of the members that count. -/
  given : Option Json := none

def Task.keyOf (language id : Text) : Text := language ++ "/" ++ id

/-- The expected output as it was given, if it was. -/
def Task.expected? (t : Task) : Option Json :=
  match t.given with
  | some j => j.get? "expectedOutput"
  | none => some (.text t.expectedOutput)

def Task.key (t : Task) : Text := keyOf t.language t.id

structure Catalog where
  tasks : List Task
  vocabularies : Json.Members Vocabulary

namespace Catalog

def firstRepeated? : (seen : List Text) → List Task → Option Text
  | _, [] => none
  | seen, t :: ts => if seen.contains t.key then some t.key else firstRepeated? (t.key :: seen) ts

def ofTasks (tasks : List Task) (vocabularies : Json.Members Vocabulary) : Except Fault Catalog :=
  match firstRepeated? [] tasks with
  | some key => .error (.configuration (.duplicateTask key.toString))
  | none => .ok ⟨tasks, vocabularies⟩

def findTask (c : Catalog) (language id : Text) : Except Fault Task :=
  match c.tasks.find? (·.key == Task.keyOf language id) with
  | some t => .ok t
  | none => .error (.unknownTask (some (.text language)) (some (.text id)))

/-- All tasks in order when no language, or the empty one, is asked for. -/
def listTasks (c : Catalog) (language : Option Text) : List Task :=
  match language with
  | none => c.tasks
  | some l => if l.isEmpty then c.tasks else c.tasks.filter (·.language == l)

def vocabulary (c : Catalog) (language : Text) : Except Fault Vocabulary :=
  match c.vocabularies.get? language with
  | some v => .ok v
  | none => .error (.configuration (.noVocabulary language.toString))

def languages (c : Catalog) : List Text := c.vocabularies.names

end Catalog
end ProgramGym
