import Mathlib.Data.List.Basic
import ProgramGym.Json.Basic

/-! What is found under a key in a list of pairs. A value that is put takes the place of one that is
there, so that of values put under one name the last one is found, and an object with another over
it has the names of both. -/
namespace ProgramGym
variable {κ β : Type}

theorem lookup_cons [BEq κ] [LawfulBEq κ] [DecidableEq κ] (key other : κ) (value : β)
    (rest : List (κ × β)) :
    ((other, value) :: rest).lookup key = if key = other then some value else rest.lookup key := by
  rw [List.lookup_cons]
  by_cases same : key = other
  · rw [if_pos same, beq_iff_eq.mpr same]
  · rw [if_neg same, beq_false_of_ne same]

theorem lookup_map {γ : Type} [BEq κ] [LawfulBEq κ] [DecidableEq κ] [DecidableEq β] {key : β → κ}
    {f : β → γ} {xs : List β} {x : β} (apart : ∀ other ∈ xs, key other = key x → other = x) :
    (xs.map fun other => (key other, f other)).lookup (key x) =
      if x ∈ xs then some (f x) else none := by
  induction xs with
  | nil => rfl
  | cons other xs ih =>
    rw [List.forall_mem_cons] at apart
    rw [List.map_cons, lookup_cons, ih apart.2]
    by_cases same : key x = key other
    · obtain rfl := apart.1 same.symm
      simp
    · have differ : x ≠ other := fun equal => same (congrArg key equal)
      simp [same, differ]

theorem lookup_erased [BEq κ] [LawfulBEq κ] [DecidableEq κ] (erased key : κ)
    (entries : List (κ × β)) : (entries.filter (·.1 != erased)).lookup key =
      if key = erased then none else entries.lookup key := by
  induction entries with
  | nil => simp
  | cons entry entries ih =>
    obtain ⟨other, value⟩ := entry
    by_cases gone : other = erased
    · rw [List.filter_cons_of_neg (by simpa using gone), ih, lookup_cons, gone]
      split <;> rfl
    · rw [List.filter_cons_of_pos (by simpa using gone), lookup_cons, lookup_cons, ih]
      by_cases here : key = other
      · rw [if_pos here, if_pos here, if_neg (here ▸ gone)]
      · rw [if_neg here, if_neg here]

namespace Json.Members

theorem get?_put (name other : Text) (value : β) (members : Members β) :
    (put other value members).get? name =
      if name = other then some value else members.get? name := by
  induction members with
  | nil => exact lookup_cons name other value []
  | cons member rest ih =>
    obtain ⟨n, v⟩ := member
    unfold get? at ih ⊢
    rw [put]
    split
    · next here =>
      rw [lookup_cons, lookup_cons, beq_iff_eq.mp here]
      split <;> rfl
    · next elsewhere =>
      rw [lookup_cons, lookup_cons, ih]
      split
      · next found =>
        rw [if_neg fun same => elsewhere (beq_iff_eq.mpr (found.symm.trans same))]
      · rfl

theorem get?_foldl_put {name : Text} {entries : List (Text × β)}
    (absent : ∀ entry ∈ entries, entry.1 ≠ name) (members : Members β) :
    (entries.foldl (fun members entry => put entry.1 entry.2 members) members).get? name =
      members.get? name := by
  induction entries generalizing members with
  | nil => rfl
  | cons entry rest ih =>
    obtain ⟨other, absent⟩ := List.forall_mem_cons.mp absent
    rw [List.foldl_cons, ih absent, get?_put, if_neg other.symm]

/-- What was put last under a name is found there. -/
theorem get?_foldl_put_last {before after : List (Text × β)} {name : Text} {value : β}
    (last : ∀ entry ∈ after, entry.1 ≠ name) :
    ((before ++ (name, value) :: after).foldl (fun members entry => put entry.1 entry.2 members)
      []).get? name = some value := by
  rw [List.foldl_append, List.foldl_cons, get?_foldl_put last, get?_put, if_pos rfl]

theorem exists_get? {name : Text} {members : Members β} (inside : name ∈ members.names) :
    ∃ value, (name, value) ∈ members ∧ members.get? name = some value := by
  induction members with
  | nil => cases inside
  | cons member rest ih =>
    obtain ⟨other, value⟩ := member
    unfold get? at ih ⊢
    rw [lookup_cons]
    by_cases same : name = other
    · exact ⟨value, by simp [same], if_pos same⟩
    · obtain ⟨found, there, its⟩ := ih ((List.mem_cons.mp inside).resolve_left same)
      exact ⟨found, .tail _ there, (if_neg same).trans its⟩

theorem mem_names_put {name other : Text} {value : β} {members : Members β} :
    name ∈ (put other value members).names ↔ name = other ∨ name ∈ members.names := by
  induction members with
  | nil => simp [put, names]
  | cons member rest ih =>
    obtain ⟨n, v⟩ := member
    unfold names at ih ⊢
    rw [put]
    split
    · next here => simp [beq_iff_eq.mp here]
    · simp [ih, or_left_comm]

theorem mem_names_foldl_put {name : Text} {entries members : Members β} :
    name ∈ (entries.foldl (fun members (name, value) => put name value members) members).names ↔
      name ∈ entries.names ∨ name ∈ members.names := by
  induction entries generalizing members with
  | nil => simp [names]
  | cons entry rest ih =>
    rw [List.foldl_cons, ih, mem_names_put]
    simp [names, or_left_comm, or_assoc]

theorem mem_names_sortIndices {name : Text} {members : Members β} :
    name ∈ members.sortIndices.names ↔ name ∈ members.names := by
  have member {m : Text × β} : m ∈ members.sortIndices ↔ m ∈ members := by
    simp only [sortIndices, List.mem_append, List.mem_mergeSort, List.mem_filter, ← and_or_left]
    cases index? m.1 <;> simp
  simp only [names, List.mem_map, member]

/-- An object with another over it has the names of both. -/
theorem mem_names_override {name : Text} {base extra : Members β} :
    name ∈ (base.override extra).names ↔ name ∈ base.names ∨ name ∈ extra.names := by
  rw [override, ofEntries, mem_names_sortIndices, mem_names_foldl_put]
  simp [names]

end Json.Members
end ProgramGym
