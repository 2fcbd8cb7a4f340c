import ProgramGym.Catalog.Bundled
import ProgramGym.Json.Flaw

/-! Catalogs written as JSON: an object with the vocabularies by language and the list of tasks.
A document is checked member by member; parts that are taken as they are need only be lists. -/
namespace ProgramGym.Catalog

/-- The name that no vocabulary can be kept under. -/
def reservedName : Text := "__proto__"

/-- What a catalog document holds before tasks are checked against each other. -/
structure Contents where
  vocabularies : Json.Members Vocabulary
  tasks : List Task

def readStrings? (j : Json) : Option (List Text) := j.items?.bind (·.mapM Json.text?)

def readTask (index : Nat) (j : Json) : Except Misconfiguration Task :=
  match j.members? with
  | none => .error (.taskNotObject index)
  | some members =>
    let field (name : Text) : Option Text := (members.get? name).bind Json.text?
    match field "id", field "dslName", field "source", field "expectedOutput" with
    | some id, some language, some source, some expectedOutput =>
      .ok { id, language, source, expectedOutput, description := field "description" }
    | _, _, _, _ => .error (.taskFieldsMissing index)

def readTasks : (index : Nat) → List Json → Except Misconfiguration (List Task)
  | _, [] => .ok []
  | index, j :: rest => do
    let t ← readTask index j
    let ts ← readTasks (index + 1) rest
    pure (t :: ts)

def readVocabularies : Json.Members Json → Except Misconfiguration (Json.Members Vocabulary)
  | [] => .ok []
  | (language, j) :: rest =>
    match readStrings? j with
    | none => .error (.vocabularyNotStrings language.toString)
    | some tokens => do
      let vs ← readVocabularies rest
      pure (if language == reservedName then vs else (language, tokens) :: vs)

/-- Vocabularies may be left out or null; tasks may not. The first thing wrong from the front
is the error. -/
def read (j : Json) : Except Misconfiguration Contents :=
  match j.members? with
  | none => .error .catalogNotObject
  | some members =>
    let vocabularies :=
      match members.get? "vocabularies" with
      | none | some .null => some []
      | some v => v.members?
    match vocabularies with
    | none => .error .vocabulariesNotObject
    | some vs => do
      let vocabularies ← readVocabularies vs
      match (members.get? "tasks").bind Json.items? with
      | none => .error .tasksNotArray
      | some items =>
        let tasks ← readTasks 0 items
        pure ⟨vocabularies, tasks⟩

def ofJson (j : Json) : Except Fault Catalog :=
  match read j with
  | .ok contents => ofTasks contents.tasks contents.vocabularies
  | .error cause => .error (.configuration cause)

/-- A task that is taken as it is, whatever its members are. -/
def takeTask (j : Json) : Task :=
  let field (name : Text) : Text := Json.wordOf (j.get? name)
  { id := field "id", language := field "dslName", source := field "source"
    expectedOutput := field "expectedOutput", description := none, given := some j }

/-- A task of the members that a value has; null has none. -/
def takeTask? (j : Json) : Option Task := j.ownMembers?.map fun members => takeTask (.object members)

/-- The words of tokens that are taken as they are; a text is taken apart. -/
def takeTokens (j : Json) : Except Fault Vocabulary :=
  match j with
  | .array items => .ok (items.map Json.word)
  | .text t => .ok t.points
  | _ => .error .wrongKind

/-- Items that are gone through one after the other. -/
def takeItems (j : Option Json) : Except Fault (List Json) :=
  match j with
  | some (.array items) => .ok items
  | some (.text t) => .ok (t.points.map .text)
  | _ => .error .wrongKind

/-- A catalog of parts that are not checked. -/
def ofParts (j : Json) : Except Fault Catalog := do
  let items := (← takeItems (j.get? "tasks")).map takeTask?
  let tasks := items.takeWhile (·.isSome)
  let checked ← ofTasks (tasks.filterMap id) []
  if tasks.length < items.length then throw .wrongKind
  match (j.get? "vocabularies").bind Json.ownMembers? with
  | none => throw .wrongKind
  | some members =>
    let vocabularies ← members.mapM fun (language, tokens) => do
      let tokens ← takeTokens tokens
      pure (language, tokens)
    pure { checked with vocabularies }

/-- A catalog from the content of a file, or from what kept the file from being read. -/
def ofFile (path : String) (content : Except SystemError String) : Except Fault Catalog :=
  match content with
  | .error e => .error (.configuration (.catalogUnreadable path e.message))
  | .ok text =>
    match Json.parse? text with
    | none => .error (.configuration (.catalogUnreadable path (Json.complaint text)))
    | some j => ofJson j

/-- A catalog by its specification: a file's content, parts that are not checked, a document, or
else the tasks that come with the library. -/
def ofSpecification (j : Json) : Except Fault Catalog :=
  match j.get? "text", j.get? "raw", j.get? "data" with
  | some content, _, _ => ofFile "catalog.json" (.ok content.plain)
  | none, some parts, _ => ofParts parts
  | none, none, some data => ofJson data
  | none, none, none => .ok bundled

/-- A task by names of any kind, which count by their wordings. -/
def findAsked (c : Catalog) (language id : Option Json) : Except Fault Task :=
  match c.findTask (Json.wordOf language) (Json.wordOf id) with
  | .error (.unknownTask ..) => .error (.unknownTask language id)
  | found => found

/-- Only a text names a vocabulary. -/
def vocabularyAsked (c : Catalog) (language : Option Json) : Except Fault Vocabulary :=
  match language with
  | some (.text l) => c.vocabulary l
  | _ => .error (.configuration (.noVocabulary (Json.wording language)))

/-- The tasks whose language is the value asked for; without one that holds, all tasks. -/
def listAsked (c : Catalog) (language : Option Json) : List Task :=
  if Json.holdsOf language then
    c.tasks.filter fun t => Json.same language <|
      match t.given with
      | some j => j.get? "dslName"
      | none => some (.text t.language)
  else c.tasks

end ProgramGym.Catalog
