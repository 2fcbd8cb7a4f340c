import ProgramGym.Catalog.Reader

/-! Catalogs as JSON, in the form that the reader takes. -/
namespace ProgramGym

/-- The document that was given, or else the fields; a description is written only where
there is one. -/
def Task.json (t : Task) : Json :=
  match t.given with
  | some j => j
  | none =>
    Json.joined
      [("id", .text t.id), ("dslName", .text t.language), ("source", .text t.source),
       ("expectedOutput", .text t.expectedOutput)]
      (.optional "description" (t.description.map .text))

def Catalog.Contents.json (c : Catalog.Contents) : Json :=
  .object
    [("vocabularies", .object (c.vocabularies.map fun (language, tokens) =>
      (language, .array (tokens.map .text)))),
     ("tasks", .array (c.tasks.map Task.json))]

end ProgramGym
