import ProgramGym.Proofs.Catalog
import ProgramGym.Proofs.Checks
import ProgramGym.Proofs.Lookup

/-! Documents of catalogs. What a document gives is said by its members alone, and it is accepted
exactly if it gives tasks and no vocabulary that is something else than a list of texts. Main
statement: an accepted document becomes a catalog of its tasks in order and of its vocabularies, all
but the one under the reserved name. -/
namespace ProgramGym

/-- An object that gives four texts, and a description if it gives a text for that as well. -/
structure Task.DescribedBy (t : Task) (j : Json) : Prop where
  id : j.get? "id" = some (.text t.id)
  language : j.get? "dslName" = some (.text t.language)
  source : j.get? "source" = some (.text t.source)
  expectedOutput : j.get? "expectedOutput" = some (.text t.expectedOutput)
  description : ∀ text, t.description = some text ↔ j.get? "description" = some (.text text)
  fields : t.given = none

namespace Catalog
variable {t : Task} {ts : List Task}

/-- Vocabularies as a document has them. -/
def written (vs : Json.Members Vocabulary) : Json.Members Json :=
  vs.map fun v => (v.1, .array (v.2.map .text))

/-- Vocabularies may be left out or null, which gives none. -/
inductive GivesVocabularies (j : Json) : Json.Members Vocabulary → Prop where
  | absent : j.get? "vocabularies" = none → GivesVocabularies j []
  | null : j.get? "vocabularies" = some .null → GivesVocabularies j []
  | object {vs} : j.get? "vocabularies" = some (.object (written vs)) → GivesVocabularies j vs

/-- An object of vocabularies and of tasks. -/
structure Gives (j : Json) (vs : Json.Members Vocabulary) (ts : List Task) : Prop where
  vocabularies : GivesVocabularies j vs
  tasks : ∃ items, j.get? "tasks" = some (.array items) ∧ List.Forall₂ Task.DescribedBy ts items

/-- Those that are not under the reserved name. -/
def kept (vs : Json.Members Vocabulary) : Json.Members Vocabulary :=
  vs.filter (·.1 != reservedName)

/-! Parts of documents. -/

theorem text?_eq_some_iff {j : Json} {text : Text} : j.text? = some text ↔ j = .text text := by
  cases j <;> simp [Json.text?]

theorem items?_eq_some_iff {j : Json} {items : List Json} :
    j.items? = some items ↔ j = .array items := by
  cases j <;> simp [Json.items?]

theorem bind_text?_eq_some_iff {member : Option Json} {text : Text} :
    member.bind Json.text? = some text ↔ member = some (.text text) := by
  simp [Option.bind_eq_some_iff, text?_eq_some_iff]

theorem bind_items?_eq_some_iff {member : Option Json} {items : List Json} :
    member.bind Json.items? = some items ↔ member = some (.array items) := by
  simp [Option.bind_eq_some_iff, items?_eq_some_iff]

theorem readTask_eq_ok_iff (index : Nat) (j : Json) :
    readTask index j = .ok t ↔ t.DescribedBy j := by
  cases j with
  | object members =>
    have member (name : Text) :
        Json.Members.get? name members = (Json.object members).get? name := rfl
    simp only [readTask, Json.members?, member]
    constructor
    · intro read
      split at read
      · next id language source expectedOutput =>
        cases read
        exact ⟨bind_text?_eq_some_iff.mp id, bind_text?_eq_some_iff.mp language,
          bind_text?_eq_some_iff.mp source, bind_text?_eq_some_iff.mp expectedOutput,
          fun _ => bind_text?_eq_some_iff, rfl⟩
      · cases read
    · rintro ⟨id, language, source, expectedOutput, description, fields⟩
      have given : ((Json.object members).get? "description").bind Json.text? = t.description :=
        Option.ext fun text => bind_text?_eq_some_iff.trans (description text).symm
      have read (text : Text) : (Json.text text).text? = some text := rfl
      simp only [id, language, source, expectedOutput, given, Option.bind_some, read, ← fields]
  | null | bool _ | number _ | text _ | array _ =>
    constructor
    · nofun
    · rintro ⟨_, _⟩
      contradiction

theorem readTasks_eq_ok_iff (index : Nat) (items : List Json) :
    readTasks index items = .ok ts ↔ List.Forall₂ Task.DescribedBy ts items := by
  induction items generalizing index ts with
  | nil => simp [readTasks, eq_comm]
  | cons item items ih =>
    simp only [readTasks, bind_eq_ok, readTask_eq_ok_iff, ih]
    constructor
    · rintro ⟨t, described, ts, others, made⟩
      cases made
      exact .cons described others
    · intro described
      cases described with
      | cons described others => exact ⟨_, described, _, others, rfl⟩

theorem mapM_text?_eq_some_iff (items : List Json) (tokens : List Text) :
    items.mapM Json.text? = some tokens ↔ items = tokens.map .text := by
  induction items generalizing tokens with
  | nil => cases tokens <;> simp
  | cons item items ih =>
    rw [List.mapM_cons]
    simp only [Option.bind_eq_bind, Option.bind_eq_some_iff, text?_eq_some_iff, ih, Option.pure_def,
      Option.some.injEq]
    constructor
    · rintro ⟨token, rfl, rest, rfl, rfl⟩
      rfl
    · intro same
      cases tokens with
      | nil => cases same
      | cons token tokens =>
        rw [List.map_cons, List.cons.injEq] at same
        exact ⟨token, same.1, tokens, same.2, rfl⟩

theorem readStrings?_eq_some_iff (j : Json) (tokens : List Text) :
    readStrings? j = some tokens ↔ j = .array (tokens.map .text) := by
  simp [readStrings?, Option.bind_eq_some_iff, items?_eq_some_iff, mapM_text?_eq_some_iff]

theorem cons_eq_written {name : Text} {j : Json} {members : Json.Members Json}
    {vs : Json.Members Vocabulary} : (name, j) :: members = written vs ↔
      ∃ tokens rest, readStrings? j = some tokens ∧ members = written rest ∧
        vs = (name, tokens) :: rest := by
  simp only [readStrings?_eq_some_iff]
  constructor
  · intro same
    obtain ⟨⟨_, tokens⟩, rest, rfl, given, others⟩ := List.map_eq_cons_iff.mp same.symm
    cases given
    exact ⟨tokens, rest, rfl, others.symm, rfl⟩
  · rintro ⟨tokens, rest, rfl, rfl, rfl⟩
    rfl

theorem kept_cons (name : Text) (tokens : Vocabulary) (vs : Json.Members Vocabulary) :
    kept ((name, tokens) :: vs) =
      if name == reservedName then kept vs else (name, tokens) :: kept vs := by
  rw [kept, List.filter_cons]
  by_cases reserved : name = reservedName <;> simp [reserved, kept]

/-- The reserved name is dropped, but its tokens are looked at like all others. -/
theorem readVocabularies_eq_ok_iff (members : Json.Members Json) (found : Json.Members Vocabulary) :
    readVocabularies members = .ok found ↔ ∃ vs, members = written vs ∧ found = kept vs := by
  induction members generalizing found with
  | nil =>
    constructor
    · rintro ⟨⟩
      exact ⟨[], rfl, rfl⟩
    · rintro ⟨vs, same, rfl⟩
      rw [written, eq_comm, List.map_eq_nil_iff] at same
      rw [same]
      rfl
  | cons member members ih =>
    obtain ⟨name, j⟩ := member
    simp only [readVocabularies, cons_eq_written]
    cases readStrings? j with
    | none => simp
    | some tokens =>
      simp only [bind_eq_ok, ih]
      constructor
      · rintro ⟨_, ⟨vs, rfl, rfl⟩, made⟩
        exact ⟨_, ⟨tokens, vs, rfl, rfl, rfl⟩, (Except.ok.inj made).symm.trans (kept_cons ..).symm⟩
      · rintro ⟨_, ⟨_, rest, given, rfl, rfl⟩, rfl⟩
        cases given
        exact ⟨_, ⟨rest, rfl, rfl⟩, congrArg Except.ok (kept_cons ..).symm⟩

/-- The members that vocabularies are read from. -/
def vocabularyMembers? : Option Json → Option (Json.Members Json)
  | none | some .null => some []
  | some j => j.members?

theorem givesVocabularies_iff (j : Json) (vs : Json.Members Vocabulary) :
    GivesVocabularies j vs ↔
      vocabularyMembers? (j.get? "vocabularies") = some (written vs) := by
  constructor
  · rintro (missing | missing | given)
    · rw [missing]
      rfl
    · rw [missing]
      rfl
    · rw [given]
      rfl
  · intro found
    match given : j.get? "vocabularies" with
    | none =>
      rw [given] at found
      obtain rfl := List.map_eq_nil_iff.mp (Option.some.inj found).symm
      exact .absent given
    | some .null =>
      rw [given] at found
      obtain rfl := List.map_eq_nil_iff.mp (Option.some.inj found).symm
      exact .null given
    | some (.object members) =>
      rw [given] at found
      cases found
      exact .object given
    | some (.bool _) | some (.number _) | some (.text _) | some (.array _) =>
      rw [given] at found
      cases found

theorem read_object (members : Json.Members Json) : read (.object members) =
    (match vocabularyMembers? ((Json.object members).get? "vocabularies") with
    | none => .error .vocabulariesNotObject
    | some vs => do
      let vocabularies ← readVocabularies vs
      match ((Json.object members).get? "tasks").bind Json.items? with
      | none => .error .tasksNotArray
      | some items =>
        let tasks ← readTasks 0 items
        pure ⟨vocabularies, tasks⟩) := rfl

/-- What is read from a document. -/
theorem read_eq_ok_iff (j : Json) (contents : Contents) :
    read j = .ok contents ↔ ∃ vs, Gives j vs contents.tasks ∧
      contents.vocabularies = kept vs := by
  cases j with
  | object members =>
    rw [read_object]
    constructor
    · intro accepted
      split at accepted
      · cases accepted
      · next found =>
        obtain ⟨kept, vocabularies, accepted⟩ := bind_eq_ok.mp accepted
        obtain ⟨vs, rfl, rfl⟩ := (readVocabularies_eq_ok_iff _ kept).mp vocabularies
        split at accepted
        · cases accepted
        · next items listed =>
          obtain ⟨tasks, described, made⟩ := bind_eq_ok.mp accepted
          cases made
          refine ⟨vs, ⟨(givesVocabularies_iff _ vs).mpr found, items, ?_, ?_⟩, rfl⟩
          · exact bind_items?_eq_some_iff.mp listed
          · exact (readTasks_eq_ok_iff 0 items).mp described
    · rintro ⟨vs, ⟨vocabularies, items, given, described⟩, same⟩
      obtain ⟨_, tasks⟩ := contents
      obtain rfl : _ = kept vs := same
      rw [(givesVocabularies_iff _ vs).mp vocabularies, bind_items?_eq_some_iff.mpr given]
      refine bind_eq_ok.mpr ⟨_, (readVocabularies_eq_ok_iff _ _).mpr ⟨vs, rfl, rfl⟩, ?_⟩
      exact bind_eq_ok.mpr ⟨tasks, (readTasks_eq_ok_iff 0 items).mpr described, rfl⟩
  | null | bool _ | number _ | text _ | array _ =>
    constructor
    · nofun
    · rintro ⟨vs, ⟨_, _, missing, _⟩, _⟩
      cases missing

/-! What is asked of a catalog. -/

theorem get?_kept (vs : Json.Members Vocabulary) (name : Text) :
    (kept vs).get? name = if name = reservedName then none else vs.get? name :=
  lookup_erased reservedName name vs

theorem names_kept (vs : Json.Members Vocabulary) :
    (kept vs).names = vs.names.filter (· != reservedName) := by
  rw [kept, Json.Members.names, Json.Members.names, List.filter_map]
  rfl

theorem get?_eq_none_iff {vs : Json.Members Vocabulary} {name : Text} :
    vs.get? name = none ↔ name ∉ vs.names := by
  rw [Json.Members.get?, List.lookup_eq_none_iff, Json.Members.names, List.mem_map]
  simp only [bne_iff_ne, not_exists, not_and, ne_comm (a := name)]

theorem vocabulary_eq_ok_iff (c : Catalog) (name : Text) (tokens : Vocabulary) :
    c.vocabulary name = .ok tokens ↔ c.vocabularies.get? name = some tokens := by
  rw [vocabulary]
  cases c.vocabularies.get? name <;> simp

theorem vocabulary_of_missing {c : Catalog} {name : Text}
    (missing : c.vocabularies.get? name = none) :
    c.vocabulary name = .error (.configuration (.noVocabulary name.toString)) := by
  rw [vocabulary, missing]

/-- What a document gives decides what becomes of it. -/
theorem ofJson_of_gives {j : Json} {vs : Json.Members Vocabulary} (gives : Gives j vs ts) :
    ofJson j = ofTasks ts (kept vs) := by
  have accepted : read j = .ok ⟨kept vs, ts⟩ := (read_eq_ok_iff j _).mpr ⟨vs, gives, rfl⟩
  rw [ofJson, accepted]

theorem exists_gives {j : Json} {c : Catalog} (built : ofJson j = .ok c) :
    ∃ vs ts, Gives j vs ts := by
  rw [ofJson] at built
  split at built
  · next contents accepted =>
    obtain ⟨vs, gives, _⟩ := (read_eq_ok_iff j contents).mp accepted
    exact ⟨vs, contents.tasks, gives⟩
  · cases built

/-- Documents of catalogs, for any value. A document is read exactly if it gives vocabularies and
tasks, and becomes a catalog exactly if moreover no two of the tasks meet in one text. The catalog
has all of the tasks, in order; under every name but the reserved one it has the tokens that are
given for it, and none under a name that nothing is given for. Under the reserved name it has none
either: so no vocabulary is lost exactly if that name is not among those given. -/
theorem documents_kept (j : Json) :
    ((∃ contents, read j = .ok contents) ↔ ∃ vs ts, Gives j vs ts) ∧
    ((∃ c, ofJson j = .ok c) ↔
      ∃ vs ts, Gives j vs ts ∧ ts.Pairwise fun s t => ¬ s.Meets t.language t.id) ∧
    ∀ vs ts c, Gives j vs ts → ofJson j = .ok c →
      c.listTasks none = ts ∧
      c.languages = vs.names.filter (· != reservedName) ∧
      (∀ name, name ≠ reservedName → ∀ tokens,
        c.vocabulary name = .ok tokens ↔ vs.get? name = some tokens) ∧
      (∀ name, name ∉ vs.names ∨ name = reservedName →
        c.vocabulary name = .error (.configuration (.noVocabulary name.toString))) ∧
      (((∀ name tokens, c.vocabulary name = .ok tokens ↔ vs.get? name = some tokens) ∧
        c.languages = vs.names) ↔ reservedName ∉ vs.names) := by
  refine ⟨?_, ?_, ?_⟩
  · constructor
    · rintro ⟨contents, accepted⟩
      obtain ⟨vs, gives, _⟩ := (read_eq_ok_iff j contents).mp accepted
      exact ⟨vs, contents.tasks, gives⟩
    · rintro ⟨vs, ts, gives⟩
      exact ⟨⟨kept vs, ts⟩, (read_eq_ok_iff j _).mpr ⟨vs, gives, rfl⟩⟩
  · constructor
    · rintro ⟨c, built⟩
      obtain ⟨vs, ts, gives⟩ := exists_gives built
      rw [ofJson_of_gives gives] at built
      exact ⟨vs, ts, gives, (ofTasks_succeeds_iff _).mp ⟨c, built⟩⟩
    · rintro ⟨vs, ts, gives, apart⟩
      rw [ofJson_of_gives gives]
      exact (ofTasks_succeeds_iff _).mpr apart
  · intro vs ts c gives built
    rw [ofJson_of_gives gives] at built
    obtain ⟨_, rfl⟩ := (ofTasks_eq_ok_iff _).mp built
    refine ⟨rfl, names_kept vs, fun name other tokens => ?_, fun name lost => ?_, ?_⟩
    · rw [vocabulary_eq_ok_iff, get?_kept, if_neg other]
    · apply vocabulary_of_missing
      rw [get?_kept, ite_eq_left_iff]
      intro other
      exact get?_eq_none_iff.mpr (lost.resolve_right other)
    · constructor
      · rintro ⟨_, all⟩ inside
        rw [← all] at inside
        change reservedName ∈ (kept vs).names at inside
        simp [names_kept] at inside
      · intro absent
        have all : kept vs = vs := by
          refine List.filter_eq_self.mpr fun v inside => ?_
          rw [bne_iff_ne]
          exact fun reserved => absent (reserved ▸ List.mem_map_of_mem inside)
        rw [all]
        exact ⟨fun name tokens => vocabulary_eq_ok_iff _ name tokens, rfl⟩

/-- Two vocabularies, one of them under the reserved name. -/
def sampleVocabularies : Json.Members Vocabulary := [(reservedName, ["x"]), ("echo", ["a", "b"])]

/-- A document of these and of a task whose description is no text. -/
def sampleDocument : Json :=
  .object [("vocabularies", .object (written sampleVocabularies)),
    ("tasks", .array [.object [("id", .text "1"), ("dslName", .text "echo"), ("source", .text "a"),
      ("expectedOutput", .text "a"), ("description", .null)]])]

def sampleTask : Task := ⟨"1", "echo", "a", "a", none, none⟩

theorem sampleDocument_gives : Gives sampleDocument sampleVocabularies [sampleTask] where
  vocabularies := .object rfl
  tasks := by
    refine ⟨_, rfl, .cons ⟨rfl, rfl, rfl, rfl, fun text => ?_, rfl⟩ .nil⟩
    constructor
    · nofun
    · intro given
      cases (Option.some.inj given : Json.null = .text text)

theorem documents_kept_sample : ∃ c, ofJson sampleDocument = .ok c ∧
    c.listTasks none = [sampleTask] ∧ c.languages = ["echo"] ∧
    c.vocabulary "echo" = .ok ["a", "b"] ∧
    c.vocabulary "calc" = .error (.configuration (.noVocabulary "calc")) := by
  obtain ⟨_, succeeds, answers⟩ := documents_kept sampleDocument
  obtain ⟨c, built⟩ := succeeds.mpr ⟨_, _, sampleDocument_gives, List.pairwise_singleton _ _⟩
  obtain ⟨tasks, languages, found, missing, _⟩ := answers _ _ c sampleDocument_gives built
  refine ⟨c, built, tasks, languages.trans (by decide), ?_, missing "calc" (.inl (by decide))⟩
  exact (found "echo" (by decide) _).mpr rfl

/-- A vocabulary that a document gives is not in its catalog. -/
theorem vocabulary_is_lost : ∃ j c, Gives j [(reservedName, ["x"])] [] ∧ ofJson j = .ok c ∧
    c.languages = [] ∧
    c.vocabulary reservedName = .error (.configuration (.noVocabulary "__proto__")) := by
  have gives : Gives (.object [("vocabularies", .object (written [(reservedName, ["x"])])),
      ("tasks", .array [])]) [(reservedName, ["x"])] [] := ⟨.object rfl, [], rfl, .nil⟩
  exact ⟨_, ⟨[], []⟩, gives, ofJson_of_gives gives, rfl, rfl⟩

end Catalog
end ProgramGym
