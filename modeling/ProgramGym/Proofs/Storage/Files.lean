import ProgramGym.Proofs.Storage.Disk
import ProgramGym.Storage.Checkpoints

/-! What can be told of a directory of checkpoints by its listing and its loads. Both look only at
the files that keys stand for, and the file beside a target stands for none. So a save that fails
shows nowhere, for all that it may leave behind, and one that ends well shows under its key alone.
Main statement: both of these, in any tree and after any saves. -/
namespace ProgramGym.Checkpoints
variable {directory : Location} {d d' : Disk} {key payload : String}

/-! Names of files. -/

theorem keyOf?_eq_some_iff (name key : String) : keyOf? name = some key ↔ name = fileName key := by
  rw [keyOf?, fileName]
  constructor
  · intro found
    split at found
    · next suffixed =>
      obtain ⟨front, whole⟩ := List.isSuffixOf_iff_suffix.mp suffixed
      cases found
      apply String.toList_injective
      rw [String.toList_append, String.toList_ofList, ← whole, List.length_append,
        Nat.add_sub_cancel, List.take_left]
    · cases found
  · rintro rfl
    rw [String.toList_append, if_pos (List.isSuffixOf_iff_suffix.mpr (List.suffix_append _ _)),
      List.length_append, Nat.add_sub_cancel, List.take_left, String.ofList_toList]

theorem fileName_injective {key other : String} (same : fileName key = fileName other) :
    key = other := by
  have found := (keyOf?_eq_some_iff (fileName key) other).mpr same
  rw [(keyOf?_eq_some_iff (fileName key) key).mpr rfl] at found
  exact Option.some.inj found

/-- The file beside a target stands for no key. -/
theorem keyOf?_draft (name : String) : keyOf? (name ++ ".tmp") = none := by
  rw [Option.eq_none_iff_forall_ne_some]
  intro key found
  rw [keyOf?_eq_some_iff, fileName] at found
  have last := congrArg (fun s => s.toList.getLast?) found
  simp at last

/-! Answers. -/

/-- The answer of a load. -/
def loaded (directory : Location) (key : String) (d : Disk) : Except Fault String :=
  (((files directory).load key).run d).1

def listed (directory : Location) (d : Disk) : Except Fault (List String) :=
  ((files directory).list.run d).1

theorem loaded_of_invalid (invalid : isKey key = false) :
    ((files directory).load key).run d = (.error (.checkpoint key .invalidKey), d) := by
  change (if !isKey key then _ else _ : Except Fault String × Disk) = _
  rw [invalid]
  rfl

theorem saved_of_invalid (invalid : isKey key = false) :
    ((files directory).save key payload).run d = (.error (.checkpoint key .invalidKey), d) := by
  change (if !isKey key then _ else _ : Except Fault Unit × Disk) = _
  rw [invalid]
  rfl

theorem run_load (valid : isKey key = true) (directory : Location) (d : Disk) :
    ((files directory).load key).run d =
      if !d.contains (directory.below (fileName key)) then (.error (.checkpoint key .notFound), d)
      else match d.readFile (directory.below (fileName key)) with
        | .ok content => (.ok content, d)
        | .error e => (.error (.checkpoint key (.readFailed e.message)), d) := by
  change (if !isKey key then _ else _ : Except Fault String × Disk) = _
  rw [valid]
  rfl

theorem loaded_unnamed (wf : d.WellFormed) (valid : isKey key = true)
    (unnamed : ¬ (directory.below (fileName key)).Named) :
    loaded directory key d = .error (.checkpoint key .notFound) := by
  have missing : d.contains (directory.below (fileName key)) = false :=
    Bool.eq_false_iff.mpr fun there => unnamed ((Disk.contains_iff wf _).mp there).1
  rw [loaded, run_load valid, missing]
  rfl

theorem loaded_named (wf : d.WellFormed) (valid : isKey key = true)
    (named : (directory.below (fileName key)).Named) :
    loaded directory key d = match d.entry? (directory.below (fileName key)).path with
      | some (.file payload) => .ok payload
      | some .directory => .error (.checkpoint key (.readFailed
        ((directory.below (fileName key)).error .isDirectory "read").message))
      | none => .error (.checkpoint key .notFound) := by
  have contains := Disk.contains_iff wf (directory.below (fileName key))
  rw [loaded, run_load valid]
  cases there : d.entry? (directory.below (fileName key)).path with
  | none =>
    have missing : d.contains (directory.below (fileName key)) = false :=
      Bool.eq_false_iff.mpr fun found => by simpa [there] using contains.mp found
    rw [missing]
    rfl
  | some e =>
    rw [contains.mpr ⟨named, by rw [there]; rfl⟩]
    cases e with
    | file payload =>
      rw [Disk.readFile_file wf named there]
      rfl
    | directory =>
      rw [Disk.readFile_directory wf named there]
      rfl

/-- The keys that files in a directory stand for. -/
def keysIn (d : Disk) (path : List String) : List String := (d.children path).filterMap keyOf?

theorem mem_keysIn_iff : key ∈ keysIn d directory.path ↔
    (d.entry? (directory.below (fileName key)).path).isSome = true := by
  rw [keysIn, List.mem_filterMap]
  constructor
  · rintro ⟨name, inside, found⟩
    rw [(keyOf?_eq_some_iff name key).mp found] at inside
    exact Disk.mem_children_iff.mp inside
  · intro there
    exact ⟨fileName key, Disk.mem_children_iff.mpr there, (keyOf?_eq_some_iff _ _).mpr rfl⟩

theorem run_list (directory : Location) (d : Disk) : (files directory).list.run d =
    if !d.contains directory then (.ok [], d)
    else match d.names directory with
      | .ok names => (.ok ((names.filterMap keyOf?).mergeSort Text.le), d)
      | .error e => (.error (.system e), d) := rfl

theorem listed_missing (wf : d.WellFormed)
    (missing : ¬ (directory.Named ∧ (d.entry? directory.path).isSome = true)) :
    listed directory d = .ok [] := by
  rw [← Disk.contains_iff wf, Bool.not_eq_true] at missing
  rw [listed, run_list, missing]
  rfl

theorem listed_directory (wf : d.WellFormed) (named : directory.Named)
    (there : d.entry? directory.path = some .directory) :
    listed directory d = .ok ((keysIn d directory.path).mergeSort Text.le) := by
  have contains := (Disk.contains_iff wf _).mpr ⟨named, by rw [there]; rfl⟩
  rw [listed, run_list, contains, Disk.names_directory wf named there]
  rfl

theorem keysIn_missing (wf : d.WellFormed) {path : List String} (missing : d.entry? path = none) :
    keysIn d path = [] := by
  have none : d.children path = [] := by
    rw [List.eq_nil_iff_forall_not_mem]
    intro name inside
    have parent := wf.parents path name (Disk.mem_children_iff.mp inside)
    rw [missing] at parent
    cases parent
  rw [keysIn, none]
  rfl

theorem run_save (valid : isKey key = true) (directory : Location) (payload : String) (d : Disk) :
    ((files directory).save key payload).run d =
      match d.replaceFile directory (fileName key) payload with
      | (.ok (), d) => (.ok (), d)
      | (.error e, d) => (.error (.checkpoint key (.writeFailed e.message)), d) := by
  change (if !isKey key then _ else _ : Except Fault Unit × Disk) = _
  rw [valid]
  rfl

/-- Where all names are accepted and nothing is in the way, a save ends well. -/
theorem save_ok (usable : d.Usable directory) (valid : isKey key = true)
    (beside : (Disk.draft directory (fileName key)).Named)
    (target : (directory.below (fileName key)).Named)
    (leaf : d.entry? (Disk.draft directory (fileName key)).path ≠ some .directory)
    (free : d.entry? (directory.below (fileName key)).path ≠ some .directory) (payload : String) :
    ∃ d', ((files directory).save key payload).run d = (.ok (), d') := by
  obtain ⟨d', replaced⟩ := Disk.replaceFile_ok usable beside target leaf free payload
  refine ⟨d', ?_⟩
  rw [run_save valid, replaced]

theorem fileName_ne_draft (key other : String) : fileName other ≠ fileName key ++ ".tmp" := by
  intro same
  have none := keyOf?_draft (fileName key)
  rw [← same, (keyOf?_eq_some_iff _ other).mpr rfl] at none
  cases none

theorem target_ne_draft (directory : Location) (key other : String) :
    (directory.below (fileName other)).path ≠ (Disk.draft directory (fileName key)).path := by
  intro same
  have last := (List.append_inj' (show directory.path ++ [fileName other] =
    directory.path ++ [fileName key ++ ".tmp"] from same) rfl).2
  exact fileName_ne_draft key other (List.singleton_inj.mp last)

theorem target_injective {other : String} (same : (directory.below (fileName other)).path =
    (directory.below (fileName key)).path) : other = key := by
  have last := (List.append_inj' (show directory.path ++ [fileName other] =
    directory.path ++ [fileName key] from same) rfl).2
  exact fileName_injective (List.singleton_inj.mp last)

/-- A tree has changed where no answer looks. -/
structure Unseen (directory : Location) (d d' : Disk) : Prop where
  wellFormed : d'.WellFormed
  listed : listed directory d' = listed directory d
  loaded : ∀ key, loaded directory key d' = loaded directory key d

theorem Unseen.trans {d'' : Disk} (first : Unseen directory d d') (second : Unseen directory d' d'') :
    Unseen directory d d'' :=
  ⟨second.wellFormed, second.listed.trans first.listed,
    fun key => (second.loaded key).trans (first.loaded key)⟩

/-- A save that ends well has moved its file into the directory. -/
theorem save_done (wf : d.WellFormed)
    (done : ((files directory).save key payload).run d = (.ok (), d')) :
    isKey key = true ∧ directory.Named ∧ (directory.below (fileName key)).Named ∧
      d.entry? (directory.below (fileName key)).path ≠ some .directory ∧
      ∃ made, d.Extends directory.path made ∧ made.WellFormed ∧ d'.WellFormed ∧
        d' = made.moved directory (fileName key) payload := by
  cases valid : isKey key with
  | false =>
    rw [saved_of_invalid valid] at done
    cases done
  | true =>
    have cases := Disk.replaceFile_cases wf directory (fileName key) payload
    rw [run_save valid] at done
    rcases replaced : d.replaceFile directory (fileName key) payload with ⟨e | _, left⟩ <;>
      rw [replaced] at cases done <;> cases done
    obtain ⟨made, named, ext, target, leaf, free, rfl⟩ := cases
    have there : made.entry? directory.path = some .directory := by
      rw [ext.entries, if_pos (List.prefix_refl _)]
    have wf := ext.wellFormed wf
    refine ⟨rfl, named, target, ?_, made, ext, wf, wf.moved there leaf free payload, rfl⟩
    rw [← ext.entry?_below]
    exact free

def sampleDirectory : Location := .ofPath ["c"]

theorem named_sample : ∀ name ∈ ["a.json.tmp", "a.json", "a.json.json.tmp", "a.json.json"],
    (sampleDirectory.below name).Named := by
  simp only [Location.Named, Location.isTooLong, Location.below, Path.join, Path.normalize,
    Path.parts_eq]
  decide

end ProgramGym.Checkpoints
