import Mathlib.Data.List.Nodup
import ProgramGym.Catalog.Reader

/-! What a catalog finds. A task is kept under its language and its identifier joined with a slash,
and what was joined can be cut at any slash: two tasks with different names may shut each other out,
and one may be found in place of the other. A listing compares the language alone, and takes the
empty one for none. Main statement: which tasks make a catalog and which task it finds, for any
names, and that it finds by names what was asked for exactly if no name has a slash in it. -/
namespace ProgramGym

namespace Task

/-- The unit between the two names of a task. -/
def slash : UInt16 := 47

theorem units_keyOf (language id : Text) :
    (keyOf language id).units = language.units ++ slash :: id.units := by
  change (language.units ++ [slash]) ++ id.units = _
  rw [List.append_assoc, List.singleton_append]

theorem eq_keyOf_of_units {t d i : Text} (same : t.units = d.units ++ slash :: i.units) :
    t = keyOf d i := by
  rw [← units_keyOf] at same
  exact congrArg Text.mk same

theorem keyOf_assoc (a b c : Text) : keyOf (keyOf a b) c = keyOf a (keyOf b c) := by
  apply eq_keyOf_of_units
  simp only [units_keyOf, List.append_assoc, List.cons_append]

/-- The second pair of names joins to the text of the first one, cut at a later slash. -/
def Recut (d i l j : Text) : Prop := ∃ middle, l = keyOf d middle ∧ i = keyOf middle j

theorem Recut.keyOf_eq {d i l j : Text} (recut : Recut d i l j) : keyOf d i = keyOf l j := by
  obtain ⟨middle, rfl, rfl⟩ := recut
  exact (keyOf_assoc d middle j).symm

theorem recut_of_longer {d i l j : Text} {middle : List UInt16}
    (longer : l.units = d.units ++ middle) (rest : slash :: i.units = middle ++ slash :: j.units) :
    (d = l ∧ i = j) ∨ Recut d i l j := by
  cases middle with
  | nil =>
    left
    rw [List.append_nil] at longer
    rw [List.nil_append, List.cons.injEq] at rest
    exact ⟨congrArg Text.mk longer.symm, congrArg Text.mk rest.2⟩
  | cons u middle =>
    right
    rw [List.cons_append, List.cons.injEq] at rest
    obtain ⟨rfl, rest⟩ := rest
    exact ⟨⟨middle⟩, eq_keyOf_of_units longer, eq_keyOf_of_units rest⟩

theorem keyOf_eq_iff (d i l j : Text) :
    keyOf d i = keyOf l j ↔ (d = l ∧ i = j) ∨ Recut d i l j ∨ Recut l j d i := by
  constructor
  · intro same
    have units := congrArg Text.units same
    rw [units_keyOf, units_keyOf] at units
    rcases List.append_eq_append_iff.mp units with ⟨middle, longer, rest⟩ | ⟨middle, longer, rest⟩
    · rcases recut_of_longer longer rest with equal | recut
      · exact .inl equal
      · exact .inr (.inl recut)
    · rcases recut_of_longer longer rest with ⟨rfl, rfl⟩ | recut
      · exact .inl ⟨rfl, rfl⟩
      · exact .inr (.inr recut)
  · rintro (⟨rfl, rfl⟩ | recut | recut)
    · rfl
    · exact recut.keyOf_eq
    · exact recut.keyOf_eq.symm

/-- Names without a slash are joined to a text that no other names join to. -/
theorem keyOf_injective {d i l j : Text} (language : slash ∉ d.units) (id : slash ∉ i.units)
    (same : keyOf d i = keyOf l j) : d = l ∧ i = j := by
  rcases (keyOf_eq_iff d i l j).mp same with equal | ⟨middle, _, rfl⟩ | ⟨middle, rfl, _⟩
  · exact equal
  · simp [units_keyOf] at id
  · simp [units_keyOf] at language

/-- Names with a slash share their text with others. -/
theorem exists_other_names {d i : Text} (slashed : slash ∈ d.units ∨ slash ∈ i.units) :
    ∃ l j, keyOf l j = keyOf d i ∧ ¬ (d = l ∧ i = j) := by
  rcases slashed with inside | inside
  · obtain ⟨front, back, cut⟩ := List.append_of_mem inside
    obtain rfl : d = keyOf ⟨front⟩ ⟨back⟩ := eq_keyOf_of_units cut
    refine ⟨⟨front⟩, keyOf ⟨back⟩ i, (keyOf_assoc _ _ _).symm, fun ⟨same, _⟩ => ?_⟩
    simpa [units_keyOf] using congrArg (·.units.length) same
  · obtain ⟨front, back, cut⟩ := List.append_of_mem inside
    obtain rfl : i = keyOf ⟨front⟩ ⟨back⟩ := eq_keyOf_of_units cut
    refine ⟨keyOf d ⟨front⟩, ⟨back⟩, keyOf_assoc _ _ _, fun ⟨same, _⟩ => ?_⟩
    simpa [units_keyOf] using congrArg (·.units.length) same

/-- The task has these names, or names that join to the same text. -/
def Meets (t : Task) (language id : Text) : Prop :=
  (t.language = language ∧ t.id = id) ∨ Recut t.language t.id language id ∨
    Recut language id t.language t.id

theorem key_eq_iff (t : Task) (language id : Text) :
    t.key = keyOf language id ↔ t.Meets language id :=
  keyOf_eq_iff t.language t.id language id

/-- Neither name has a slash in it. -/
def Plain (t : Task) : Prop := slash ∉ t.language.units ∧ slash ∉ t.id.units

theorem Plain.meets_iff {t : Task} (plain : t.Plain) (language id : Text) :
    t.Meets language id ↔ t.language = language ∧ t.id = id := by
  constructor
  · intro meets
    exact keyOf_injective plain.1 plain.2 ((t.key_eq_iff language id).mpr meets)
  · exact .inl

/-- Other names than its own find a task that is not plain. -/
theorem exists_meets (t : Task) (slashed : ¬ t.Plain) :
    ∃ language id, t.Meets language id ∧ ¬ (t.language = language ∧ t.id = id) := by
  have slashed : slash ∈ t.language.units ∨ slash ∈ t.id.units := by
    rw [Plain] at slashed
    tauto
  obtain ⟨language, id, same, other⟩ := exists_other_names slashed
  exact ⟨language, id, (t.key_eq_iff language id).mp same.symm, other⟩

end Task

namespace Catalog
variable {tasks seen : List Task} {t : Task} {c : Catalog}

theorem firstRepeated?_eq_none_iff (seen : List Text) (tasks : List Task) :
    firstRepeated? seen tasks = none ↔
      (tasks.map Task.key).Nodup ∧ ∀ t ∈ tasks, t.key ∉ seen := by
  induction tasks generalizing seen with
  | nil => simp [firstRepeated?]
  | cons t ts ih =>
    by_cases known : t.key ∈ seen
    · simp [firstRepeated?, known]
    · have fresh : seen.contains t.key = false := by simpa using known
      simp only [firstRepeated?, fresh, Bool.false_eq_true, if_false, ih, List.map_cons,
        List.nodup_cons, List.mem_map, List.mem_cons, forall_eq_or_imp, not_or, not_exists, not_and]
      constructor
      · rintro ⟨apart, others⟩
        exact ⟨⟨fun s inside => (others s inside).1, apart⟩, known,
          fun s inside => (others s inside).2⟩
      · rintro ⟨⟨here, apart⟩, _, others⟩
        exact ⟨apart, fun s inside => ⟨here s inside, others s inside⟩⟩

theorem ofTasks_eq_ok_iff (vocabularies : Json.Members Vocabulary) :
    ofTasks tasks vocabularies = .ok c ↔
      (tasks.map Task.key).Nodup ∧ c = ⟨tasks, vocabularies⟩ := by
  have none := firstRepeated?_eq_none_iff [] tasks
  simp only [List.not_mem_nil, not_false_eq_true, implies_true, and_true] at none
  rw [← none, ofTasks]
  cases firstRepeated? [] tasks with
  | none => simp [eq_comm]
  | some key => simp

/-- At most one task has the text, so the first one found is the one. -/
theorem findTask_eq_ok_iff (apart : (c.tasks.map Task.key).Nodup) (language id : Text) :
    c.findTask language id = .ok t ↔ t ∈ c.tasks ∧ t.Meets language id := by
  rw [← Task.key_eq_iff, findTask]
  cases found : c.tasks.find? (·.key == Task.keyOf language id) with
  | none =>
    rw [List.find?_eq_none] at found
    constructor
    · nofun
    · rintro ⟨inside, same⟩
      exact absurd (beq_iff_eq.mpr same) (found t inside)
  | some s =>
    have inside := List.mem_of_find?_eq_some found
    have same : s.key = Task.keyOf language id := by simpa using List.find?_some found
    constructor
    · rintro ⟨⟩
      exact ⟨inside, same⟩
    · rintro ⟨member, equal⟩
      rw [List.inj_on_of_nodup_map apart inside member (same.trans equal.symm)]

theorem findTask_eq_error_iff {language id : Text} {fault : Fault} :
    c.findTask language id = .error fault ↔
      fault = .unknownTask (some (.text language)) (some (.text id)) ∧
        ∀ t ∈ c.tasks, ¬ t.Meets language id := by
  have missing := List.find?_eq_none (p := (·.key == Task.keyOf language id)) (l := c.tasks)
  simp only [beq_iff_eq, Task.key_eq_iff] at missing
  rw [← missing, findTask]
  cases c.tasks.find? (·.key == Task.keyOf language id) with
  | none => simp [eq_comm]
  | some t => simp

theorem findTask_succeeds_iff {language id : Text} :
    (∃ t, c.findTask language id = .ok t) ↔ ∃ t ∈ c.tasks, t.Meets language id := by
  have fails : c.findTask language id =
      .error (.unknownTask (some (.text language)) (some (.text id))) ↔ _ := findTask_eq_error_iff
  constructor
  · rintro ⟨t, found⟩
    by_contra none
    rw [found] at fails
    exact nomatch fails.mpr ⟨rfl, fun s inside meets => none ⟨s, inside, meets⟩⟩
  · rintro ⟨s, inside, meets⟩
    cases found : c.findTask language id with
    | ok t => exact ⟨t, rfl⟩
    | error fault => exact absurd meets ((findTask_eq_error_iff.mp found).2 s inside)

theorem listTasks_some (c : Catalog) (language : Text) :
    c.listTasks (some language) =
      if language.isEmpty then c.tasks else c.tasks.filter (·.language == language) := rfl

theorem ofTasks_succeeds_iff (vocabularies : Json.Members Vocabulary) :
    (∃ c, ofTasks tasks vocabularies = .ok c) ↔
      tasks.Pairwise fun s t => ¬ s.Meets t.language t.id := by
  simp only [ofTasks_eq_ok_iff, exists_and_left, exists_eq, and_true, List.Nodup, List.pairwise_map,
    ← Task.key_eq_iff]
  rfl

theorem pairwise_plain (plain : ∀ t ∈ tasks, t.Plain) :
    (tasks.Pairwise fun s t => ¬ s.Meets t.language t.id) ↔
      tasks.Pairwise fun s t => ¬ (s.language = t.language ∧ s.id = t.id) := by
  constructor
  · intro apart
    exact apart.imp_of_mem fun {s t} inside _ other same =>
      other (((plain s inside).meets_iff t.language t.id).mpr same)
  · intro apart
    exact apart.imp_of_mem fun {s t} inside _ other meets =>
      other (((plain s inside).meets_iff t.language t.id).mp meets)

/-- The finding is by names exactly if no task can be met under other names than its own. -/
theorem finds_by_names_iff (apart : (c.tasks.map Task.key).Nodup) :
    (∀ language id t, c.findTask language id = .ok t ↔
      t ∈ c.tasks ∧ t.language = language ∧ t.id = id) ↔ ∀ t ∈ c.tasks, t.Plain := by
  simp only [findTask_eq_ok_iff apart]
  constructor
  · intro law t inside
    by_contra slashed
    obtain ⟨language, id, meets, other⟩ := t.exists_meets slashed
    exact other ((law language id t).mp ⟨inside, meets⟩).2
  · intro plain language id t
    exact and_congr_right fun inside => (plain t inside).meets_iff language id

theorem lists_by_language_iff :
    (∀ language, c.listTasks (some language) = c.tasks.filter (·.language == language)) ↔
      ∀ t ∈ c.tasks, t.language.isEmpty = true := by
  have empty (t : Text) : t.isEmpty = true ↔ t = ⟨[]⟩ := by
    rw [Text.isEmpty, List.isEmpty_iff]
    exact ⟨congrArg Text.mk, congrArg Text.units⟩
  constructor
  · intro lists t inside
    have all : c.tasks = c.tasks.filter (·.language == ⟨[]⟩) := lists ⟨[]⟩
    rw [all, List.mem_filter, beq_iff_eq] at inside
    exact (empty t.language).mpr inside.2
  · intro unnamed language
    rw [listTasks_some]
    split
    · next none =>
      rw [(empty language).mp none]
      refine (List.filter_eq_self.mpr fun t inside => ?_).symm
      rw [beq_iff_eq]
      exact (empty t.language).mp (unnamed t inside)
    · rfl

/-- A document may ask for any value; a text asks for the language that it names. -/
theorem findAsked_text (c : Catalog) (language id : Text) :
    c.findAsked (some (.text language)) (some (.text id)) = c.findTask language id := by
  have word (name : Text) : Json.wordOf (some (.text name)) = name := rfl
  rw [findAsked, word, word]
  cases found : c.findTask language id with
  | ok t => rfl
  | error fault => rw [(findTask_eq_error_iff.mp found).1]

theorem listAsked_text (read : ∀ t ∈ c.tasks, t.given = none) (language : Text) :
    c.listAsked (some (.text language)) = c.listTasks (some language) := by
  rw [listAsked, listTasks_some]
  cases empty : language.isEmpty with
  | true => simp [Json.holdsOf, Json.holds, empty]
  | false =>
    have holds : Json.holdsOf (some (.text language)) = true := by
      simp [Json.holdsOf, Json.holds, empty]
    rw [if_pos holds]
    refine List.filter_congr fun t inside => ?_
    simp only [read t inside, Json.same, eq_comm, Bool.beq_eq_decide_eq]

/-- The names of a catalog's tasks, for any names. Tasks make a catalog exactly if no two of them
meet in one text; it then finds the task that meets the names it is asked for, and lists the tasks
of a language, or all of them for the empty one. So it finds nothing but what it was asked for
exactly if its names are free of slashes. -/
theorem names_meet (tasks : List Task) (vocabularies : Json.Members Vocabulary) :
    ((∃ c, ofTasks tasks vocabularies = .ok c) ↔
      tasks.Pairwise fun s t => ¬ s.Meets t.language t.id) ∧
    ((∀ t ∈ tasks, t.Plain) → ((∃ c, ofTasks tasks vocabularies = .ok c) ↔
      tasks.Pairwise fun s t => ¬ (s.language = t.language ∧ s.id = t.id))) ∧
    ∀ c, ofTasks tasks vocabularies = .ok c → c.tasks = tasks ∧
      (∀ language id,
        (∀ t, c.findTask language id = .ok t ↔ t ∈ tasks ∧ t.Meets language id) ∧
        (∀ fault, c.findTask language id = .error fault ↔
          fault = .unknownTask (some (.text language)) (some (.text id)) ∧
            ∀ t ∈ tasks, ¬ t.Meets language id)) ∧
      ((∀ language id t, c.findTask language id = .ok t ↔
          t ∈ tasks ∧ t.language = language ∧ t.id = id) ↔ ∀ t ∈ tasks, t.Plain) ∧
      (∀ language, c.listTasks (some language) =
        if language.isEmpty then tasks else tasks.filter (·.language == language)) ∧
      ((∀ language, c.listTasks (some language) = tasks.filter (·.language == language)) ↔
        ∀ t ∈ tasks, t.language.isEmpty = true) ∧
      ((∀ t ∈ tasks, t.Plain) → ∀ language id, language.isEmpty = false →
        ((∃ t, c.findTask language id = .ok t) ↔
          ∃ t ∈ c.listTasks (some language), t.id = id)) := by
  refine ⟨ofTasks_succeeds_iff vocabularies, fun plain => ?_, ?_⟩
  · rw [ofTasks_succeeds_iff, pairwise_plain plain]
  intro c built
  obtain ⟨apart, rfl⟩ := (ofTasks_eq_ok_iff vocabularies).mp built
  refine ⟨rfl, ?_, finds_by_names_iff apart, listTasks_some _, lists_by_language_iff, ?_⟩
  · intro language id
    exact ⟨fun t => findTask_eq_ok_iff apart language id, fun fault => findTask_eq_error_iff⟩
  · intro plain language id named
    rw [findTask_succeeds_iff, listTasks_some, named]
    simp only [Bool.false_eq_true, if_false, List.mem_filter, beq_iff_eq, and_assoc]
    refine exists_congr fun t => and_congr_right fun inside => ?_
    exact (plain t inside).meets_iff language id

/-- A task whose identifier has a slash in it. -/
def sampleNested : Task := ⟨"b/c", "a", "", "1", none, none⟩

theorem names_meet_sample : ∃ c, ofTasks [sampleNested] [] = .ok c ∧
    c.findTask "a" "b/c" = .ok sampleNested ∧ c.findTask "a/b" "c" = .ok sampleNested ∧
    c.findTask "a" "b" = .error (.unknownTask (some (.text "a")) (some (.text "b"))) := by
  obtain ⟨_, _, finds⟩ := names_meet [sampleNested] []
  have built : ofTasks [sampleNested] [] = .ok ⟨[sampleNested], []⟩ := rfl
  obtain ⟨_, found, _⟩ := finds _ built
  have own : sampleNested.Meets "a" "b/c" := .inl ⟨rfl, rfl⟩
  have other : sampleNested.Meets "a/b" "c" := .inr (.inl ⟨"b", rfl, rfl⟩)
  refine ⟨_, built, ?_, ?_, ?_⟩
  · exact ((found "a" "b/c").1 sampleNested).mpr ⟨List.mem_cons_self, own⟩
  · exact ((found "a/b" "c").1 sampleNested).mpr ⟨List.mem_cons_self, other⟩
  · refine ((found "a" "b").2 _).mpr ⟨rfl, ?_⟩
    simp only [List.mem_singleton, forall_eq, ← Task.key_eq_iff]
    decide

/-- A task is found under names that are not its own and that no listing shows it under, tasks of
different names are taken for one, and the empty language lists the tasks of another. -/
theorem names_are_confused :
    let other : Task := ⟨"c", "a/b", "", "1", none, none⟩
    (∃ c, ofTasks [sampleNested] [] = .ok c ∧ c.findTask "a/b" "c" = .ok sampleNested ∧
      ¬ (sampleNested.language = "a/b" ∧ sampleNested.id = "c") ∧
      c.listTasks (some "a/b") = [] ∧ c.listTasks (some "") = [sampleNested]) ∧
    ¬ (sampleNested.language = other.language ∧ sampleNested.id = other.id) ∧
      ofTasks [sampleNested, other] [] = .error (.configuration (.duplicateTask "a/b/c")) := by
  refine ⟨⟨_, rfl, rfl, by decide, rfl, rfl⟩, by decide, rfl⟩

end Catalog
end ProgramGym
