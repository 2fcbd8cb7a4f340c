import ProgramGym.Proofs.Json.Strings
import ProgramGym.Proofs.Lookup
import ProgramGym.Proofs.Storage.Stores
import ProgramGym.Storage.Checkpoints.Requests

/-! What a directory lists against what can be loaded from it. A listing takes the name of a key
from every file that ends as checkpoints do, and a load first asks whether the name is one that a
key may have: a file from elsewhere can be listed under a name that no load takes. Main statement: of the
names that are listed exactly those load that are keys and that the file system has a file name for,
and so listing and loading agree in the directories where all of them are. -/
namespace ProgramGym

namespace Text

/-- Units that spell no replacement character spell whole characters alone. -/
theorem unitsOfChars_ofUnits {us : List UInt16} (whole : replacement ∉ ofUnits us) :
    unitsOfChars (ofUnits us) = us := by
  have single {u : UInt16} (shown : replacement ≠ ofUnit u) : unitsOf (ofUnit u) = [u] := by
    by_cases half : (isHighHalf u || isLowHalf u) = true
    · exact absurd (if_pos half).symm shown
    · rw [Bool.not_eq_true, Bool.or_eq_false_iff] at half
      exact Json.Reader.unitsOf_ofUnit half.1 half.2
  induction us using ofUnits.induct with
  | case1 => rfl
  | case2 u =>
    rw [ofUnits, List.mem_singleton] at whole
    exact (List.append_nil _).trans (single whole)
  | case3 u v rest pair ih =>
    rw [ofUnits, if_pos pair, List.mem_cons, not_or] at whole
    rw [Bool.and_eq_true] at pair
    rw [ofUnits, if_pos (by simpa using pair), unitsOfChars, List.flatMap_cons, ← unitsOfChars,
      ih whole.2, Json.Reader.unitsOf_ofPair pair.1 pair.2]
    rfl
  | case4 u v rest alone ih =>
    rw [ofUnits, if_neg alone, List.mem_cons, not_or] at whole
    rw [ofUnits, if_neg alone, unitsOfChars, List.flatMap_cons, ← unitsOfChars, ih whole.2,
      single whole.1]
    rfl

end Text

namespace Checkpoints
variable {directory : Location} {d : Disk} {key payload : String}

/-- A text with half a character in it is shown as one that is no key. -/
theorem ofString_toString_of_isKey {t : Text} (valid : isKey t.toString = true) :
    Text.ofString t.toString = t := by
  have whole : Text.replacement ∉ Text.ofUnits t.units := by
    intro shown
    rw [isKey, Bool.and_eq_true, Bool.and_eq_true, List.all_eq_true, Text.toString,
      String.toList_ofList] at valid
    exact absurd (valid.1.2 _ shown) (by decide)
  rw [Text.ofString, Text.ofChars, Text.toString, String.toList_ofList, Text.chars,
    Text.unitsOfChars_ofUnits whole]

/-- A key that the store takes, whose file the file system has a name for. -/
def Served (directory : Location) (key : String) : Prop :=
  isKey key = true ∧ (directory.below (fileName key)).Named

theorem loaded_eq_ok_iff (wf : d.WellFormed) : loaded directory key d = .ok payload ↔
    Served directory key ∧
      d.entry? (directory.below (fileName key)).path = some (.file payload) := by
  cases valid : isKey key with
  | false => simp [loaded, loaded_of_invalid valid, Served, valid]
  | true =>
    by_cases named : (directory.below (fileName key)).Named
    · rw [loaded_named wf valid named]
      rcases d.entry? (directory.below (fileName key)).path with _ | content | _ <;>
        simp [Served, valid, named]
    · simp [loaded_unnamed wf valid named, Served, named]

theorem exists_listed (wf : d.WellFormed) (named : directory.Named)
    (there : d.entry? directory.path = some .directory) :
    ∃ keys, listed directory d = .ok keys ∧ ∀ key, key ∈ keys ↔
      (d.entry? (directory.below (fileName key)).path).isSome = true := by
  refine ⟨_, listed_directory wf named there, fun key => ?_⟩
  rw [List.mem_mergeSort, mem_keysIn_iff]

/-- Where no directory stands among the files, what is listed loads if it is served. -/
theorem loads_iff_listed (wf : d.WellFormed)
    (regular : ∀ name, d.entry? (directory.below name).path ≠ some .directory) :
    (∃ payload, loaded directory key d = .ok payload) ↔
      (d.entry? (directory.below (fileName key)).path).isSome = true ∧ Served directory key := by
  simp only [loaded_eq_ok_iff wf, exists_and_left, and_comm (b := Served directory key)]
  refine and_congr_right fun _ => ?_
  cases found : d.entry? (directory.below (fileName key)).path with
  | none => simp
  | some e =>
    cases e with
    | file content => simp
    | directory => exact absurd found (regular _)

/-- A load of a text that spells no string of characters is refused. -/
theorem loadAny_of_halves {t : Text} (halves : ∀ key, Text.ofString key ≠ t)
    (directory : Location) (d : Disk) : ((loadAny directory (some (.text t))).run d).1 =
      .error (.checkpoint t.toString .invalidKey) := by
  have invalid : isKey t.toString = false := by
    rw [← Bool.not_eq_true]
    exact fun valid => halves _ (ofString_toString_of_isKey valid)
  change (((files directory).load t.toString).run d).1 = _
  rw [loaded_of_invalid invalid]

/-- A directory of regular files, whatever they are called. Everything that loads is listed; what is
listed loads its file if it is a key that is served, and is refused as no key if it is none. So the
listing is of what loads exactly if only such keys are in it. -/
theorem lists_what_loads (wf : d.WellFormed) (named : directory.Named)
    (there : d.entry? directory.path = some .directory)
    (regular : ∀ name, d.entry? (directory.below name).path ≠ some .directory) :
    let store := files directory
    ∃ keys, (store.list.run d).1 = .ok keys ∧
      (∀ key, key ∈ keys ↔ fileName key ∈ d.children directory.path) ∧
      (∀ key payload, ((store.load key).run d).1 = .ok payload ↔ Served directory key ∧
        d.entry? (directory.below (fileName key)).path = some (.file payload)) ∧
      (∀ key, (∃ payload, ((store.load key).run d).1 = .ok payload) ↔
        key ∈ keys ∧ Served directory key) ∧
      (∀ key, isKey key = false →
        ((store.load key).run d).1 = .error (.checkpoint key .invalidKey)) ∧
      (∀ t : Text, (∀ key, Text.ofString key ≠ t) →
        ((loadAny directory (some (.text t))).run d).1 =
          .error (.checkpoint t.toString .invalidKey)) ∧
      ((∀ key, key ∈ keys ↔ ∃ payload, ((store.load key).run d).1 = .ok payload) ↔
        ∀ key ∈ keys, Served directory key) := by
  intro store
  obtain ⟨keys, answer, members⟩ := exists_listed wf named there
  have loads (key : String) : (∃ payload, ((store.load key).run d).1 = .ok payload) ↔
      key ∈ keys ∧ Served directory key :=
    (loads_iff_listed wf regular).trans (and_congr_left fun _ => (members key).symm)
  refine ⟨keys, answer, fun key => ?_, fun key payload => loaded_eq_ok_iff wf, loads,
    fun key invalid => ?_, fun t halves => loadAny_of_halves halves directory d, ?_⟩
  · rw [members, Disk.mem_children_iff]
    rfl
  · rw [loaded_of_invalid invalid]
  · simp only [loads, iff_self_and]

/-- A directory with a hidden file beside a checkpoint. -/
def foreignDisk : Disk :=
  ⟨[(["c"], .directory), (["c", "a.json"], .file "1"), (["c", ".b.json"], .file "2")]⟩

theorem foreignDisk_wellFormed : foreignDisk.WellFormed :=
  Disk.wellFormed_of_entries (by decide) (by decide)

theorem foreignDisk_regular (name : String) :
    foreignDisk.entry? (sampleDirectory.below name).path ≠ some .directory := by
  change foreignDisk.entry? (["c"] ++ [name]) ≠ _
  rw [Disk.entry?_child, foreignDisk, lookup_cons, lookup_cons, lookup_cons, if_neg (by simp)]
  split
  · nofun
  · split
    · nofun
    · nofun

theorem lists_what_loads_hidden : ∃ keys,
    ((files sampleDirectory).list.run foreignDisk).1 = .ok keys ∧
      "a" ∈ keys ∧
      (∃ payload, (((files sampleDirectory).load "a").run foreignDisk).1 = .ok payload) ∧
      ".b" ∈ keys ∧ (((files sampleDirectory).load ".b").run foreignDisk).1 =
        .error (.checkpoint ".b" .invalidKey) := by
  obtain ⟨keys, answer, members, _, loads, refused, _⟩ :=
    lists_what_loads foreignDisk_wellFormed ⟨by decide, by decide⟩
      (show foreignDisk.entry? sampleDirectory.path = _ by decide) foreignDisk_regular
  have own : "a" ∈ keys := (members "a").mpr (by decide)
  have served : Served sampleDirectory "a" := ⟨by decide, named_sample _ (by decide)⟩
  exact ⟨keys, answer, own, (loads "a").mpr ⟨own, served⟩, (members ".b").mpr (by decide),
    refused ".b" (by decide)⟩

/-- A file that no save could have left is listed under a name that no load takes. -/
theorem hidden_file_is_listed :
    foreignDisk.WellFormed ∧ foreignDisk.entry? sampleDirectory.path = some .directory ∧
      (∀ name, foreignDisk.entry? (sampleDirectory.below name).path ≠ some .directory) ∧
      ∃ keys, ((files sampleDirectory).list.run foreignDisk).1 = .ok keys ∧ ".b" ∈ keys ∧
        ∀ payload, (((files sampleDirectory).load ".b").run foreignDisk).1 ≠ .ok payload := by
  have there : foreignDisk.entry? sampleDirectory.path = some .directory := by decide
  obtain ⟨keys, answer, members⟩ :=
    exists_listed foreignDisk_wellFormed ⟨by decide, by decide⟩ there
  refine ⟨foreignDisk_wellFormed, there, foreignDisk_regular, keys, answer,
    (members ".b").mpr (by decide), fun payload => ?_⟩
  rw [loaded_of_invalid (by decide)]
  nofun

end Checkpoints
end ProgramGym
