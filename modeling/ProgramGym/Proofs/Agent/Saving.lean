import ProgramGym.Agent.Saved
import ProgramGym.Proofs.Json.RoundTrip

/-! The stored form of an agent, written and read. The eight fields have names of their own that
are no indices, so an object keeps their order. Main statement: a state can be read again exactly
if its numbers are finite, and then each number is what its text is read as. -/
namespace ProgramGym

/-- A finite number that its text is read as. -/
def Number.Kept (x : Float) : Prop := x.isFinite = true ∧ Number.reread x = x

namespace Json

theorem reread_number {x : Float} (finite : x.isFinite = true) :
    reread (.number x) = .number (Number.reread x) := by
  simp [reread, mapValues, rereadValue, finite]

/-- A number that is not finite is written as null. -/
theorem finite_of_number? {x y : Float} (read : (reread (.number x)).number? = some y) :
    x.isFinite = true := by
  by_contra infinite
  simp [reread, mapValues, rereadValue, infinite, number?] at read

theorem mapItems_eq_map (f : Json → Json) (items : List Json) :
    mapItems f items = items.map (mapValues f) := by
  induction items with
  | nil => rfl
  | cons j rest ih => rw [mapItems, ih, List.map_cons]

theorem mapMembers_eq_map (f : Json → Json) (members : Members Json) :
    mapMembers f members = members.map fun m => (m.1, mapValues f m.2) := by
  induction members with
  | nil => rfl
  | cons m rest ih => rw [mapMembers, ih, List.map_cons]

/-- The members of an object are read one by one. -/
theorem reread_object {members : Members Json} (ordered : members.Ordered) :
    reread (.object members) = .object (members.map fun m => (m.1, reread m.2)) := by
  have again : Members.Ordered (members.map fun m => (m.1, reread m.2)) :=
    ordered.of_names (by simp [Members.names])
  rw [reread, mapValues, mapMembers_eq_map]
  exact congrArg Json.object again.ofEntries

theorem reread_array (items : List Json) : reread (.array items) = .array (items.map reread) := by
  rw [reread, mapValues, mapItems_eq_map]
  rfl

theorem reread_text (t : Text) : reread (.text t) = .text t := rfl

end Json

namespace SavedAgent
open Json

/-- The numbers that a state is written with. -/
def numbers (s : SavedAgent) : List Float :=
  [s.actions, s.features, s.episodes] ++ s.settings.map (·.2) ++ s.weights.flatten
    ++ s.state.map (·.2)

/-- Each number as its text is read. -/
def readBackMembers (members : Members Float) : Members Float :=
  members.map fun m => (m.1, Number.reread m.2)

/-- A state as it is read from what it is written as. -/
def readBack (s : SavedAgent) : SavedAgent where
  kind := s.kind
  actions := Number.reread s.actions
  features := Number.reread s.features
  settings := readBackMembers s.settings
  weights := s.weights.map (·.map Number.reread)
  state := readBackMembers s.state
  episodes := Number.reread s.episodes
  updated := s.updated

theorem reread_numberMembers {members : Members Float} (ordered : members.Ordered) :
    Json.reread (numberMembers members) =
      .object (members.map fun m => (m.1, Json.reread (.number m.2))) := by
  have named : Members.Ordered (members.map fun m => (m.1, Json.number m.2)) :=
    ordered.of_names (by simp [Members.names])
  have single := reread_object named
  rw [List.map_map] at single
  exact single

theorem reread_matrix (rows : List (List Float)) :
    Json.reread (matrix rows) =
      .array (rows.map fun row => .array (row.map fun x => Json.reread (.number x))) := by
  rw [matrix, reread_array, List.map_map]
  refine congrArg Json.array (List.map_congr_left fun row _ => ?_)
  rw [Function.comp_apply, reread_array, List.map_map]
  rfl

theorem reread_numberMembers_finite {members : Members Float} (ordered : members.Ordered)
    (finite : ∀ m ∈ members, m.2.isFinite = true) :
    Json.reread (numberMembers members) = numberMembers (readBackMembers members) := by
  rw [reread_numberMembers ordered, numberMembers, readBackMembers, List.map_map]
  refine congrArg Json.object (List.map_congr_left fun m inside => ?_)
  exact congrArg (Prod.mk m.1) (reread_number (finite m inside))

theorem reread_matrix_finite {rows : List (List Float)}
    (finite : ∀ row ∈ rows, ∀ x ∈ row, x.isFinite = true) :
    Json.reread (matrix rows) = matrix (rows.map (·.map Number.reread)) := by
  rw [reread_matrix, matrix, List.map_map]
  refine congrArg Json.array (List.map_congr_left fun row inside => ?_)
  rw [Function.comp_apply, List.map_map]
  exact congrArg Json.array
    (List.map_congr_left fun x member => reread_number (finite row inside x member))

/-- The members of the stored form. -/
def members (s : SavedAgent) : Members Json :=
  [("type", .text s.kind.name), ("actionSpaceSize", .number s.actions),
   ("featureDimension", .number s.features), ("episodesTrained", .number s.episodes),
   ("lastUpdated", .text s.updated), ("config", numberMembers s.settings),
   ("weights", matrix s.weights), ("state", numberMembers s.state)]

theorem ordered_members (s : SavedAgent) : s.members.Ordered := by
  have names : s.members.names = ["type", "actionSpaceSize", "featureDimension", "episodesTrained",
    "lastUpdated", "config", "weights", "state"] := rfl
  exact ⟨by rw [names]; decide, by rw [names]; decide⟩

theorem mapM_map {β γ : Type} {f : β → Option γ} {g : γ → β} (back : ∀ y, f (g y) = some y)
    (ys : List γ) : (ys.map g).mapM f = some ys := by
  induction ys with
  | nil => rfl
  | cons y ys ih => simp [back, ih]

theorem numbers?_numberMembers (members : Members Float) :
    numbers? (members.map fun (name, x) => (name, .number x)) = some members := by
  refine mapM_map ?_ members
  exact fun _ => rfl

theorem matrix?_matrix (rows : List (List Float)) : matrix? (matrix rows) = some rows := by
  refine mapM_map ?_ rows
  intro row
  refine mapM_map ?_ row
  exact fun _ => rfl

theorem ofMembers?_members (s : SavedAgent) : ofMembers? s.members = some s := by
  have type : s.members.get? "type" = some (.text s.kind.name) := rfl
  have actions : s.members.get? "actionSpaceSize" = some (.number s.actions) := rfl
  have features : s.members.get? "featureDimension" = some (.number s.features) := rfl
  have settings : s.members.get? "config" = some (numberMembers s.settings) := rfl
  have weights : s.members.get? "weights" = some (matrix s.weights) := rfl
  have state : s.members.get? "state" = some (numberMembers s.state) := rfl
  have episodes : s.members.get? "episodesTrained" = some (.number s.episodes) := rfl
  have updated : s.members.get? "lastUpdated" = some (.text s.updated) := rfl
  simp [ofMembers?, type, actions, features, settings, weights, state, episodes, updated,
    Json.text?, Json.number?, numberMembers, Json.members?, numbers?_numberMembers,
    matrix?_matrix, Text.toString_ofString, AgentKind.ofName?_name]

theorem parse?_write (s : SavedAgent) :
    Json.parse? s.write = some (.object (s.members.map fun m => (m.1, reread m.2))) := by
  rw [write, Json.parse?_compact]
  exact congrArg some (reread_object s.ordered_members)

theorem forall_numbers {s : SavedAgent} {property : Float → Prop} :
    (∀ x ∈ s.numbers, property x) ↔
      (property s.actions ∧ property s.features ∧ property s.episodes) ∧
      (∀ m ∈ s.settings, property m.2) ∧ (∀ row ∈ s.weights, ∀ x ∈ row, property x) ∧
      ∀ m ∈ s.state, property m.2 := by
  have rows : (∀ x ∈ s.weights.flatten, property x) ↔ ∀ row ∈ s.weights, ∀ x ∈ row, property x :=
    ⟨fun all row inside x member => all x (List.mem_flatten_of_mem inside member),
      fun all x member =>
        have ⟨row, inside, member⟩ := List.mem_flatten.mp member
        all row inside x member⟩
  simp only [numbers, List.forall_mem_append, List.forall_mem_cons, List.forall_mem_map, rows,
    List.not_mem_nil, false_imp_iff, implies_true, and_true, and_assoc]

/-- A state whose numbers are finite is read, each number as its text. -/
theorem read_write_finite {s : SavedAgent} (settings : s.settings.Ordered)
    (state : s.state.Ordered) (finite : ∀ x ∈ s.numbers, x.isFinite = true) :
    read s.write = .ok s.readBack := by
  obtain ⟨⟨actions, features, episodes⟩, settingsFinite, weightsFinite, stateFinite⟩ :=
    forall_numbers.mp finite
  have whole : s.members.map (fun m => (m.1, Json.reread m.2)) = s.readBack.members := by
    simp only [members, List.map_cons, List.map_nil, reread_text]
    rw [reread_number actions, reread_number features, reread_number episodes,
      reread_numberMembers_finite settings settingsFinite, reread_matrix_finite weightsFinite,
      reread_numberMembers_finite state stateFinite]
    rfl
  rw [read, parse?_write, whole]
  simp only [Json.members?, ofMembers?_members]

theorem readBack_self {s : SavedAgent} (kept : ∀ x ∈ s.numbers, Number.Kept x) : s.readBack = s := by
  obtain ⟨⟨actions, features, episodes⟩, settings, weights, state⟩ := forall_numbers.mp kept
  have members {members : Members Float} (kept : ∀ m ∈ members, Number.Kept m.2) :
      readBackMembers members = members :=
    (List.map_congr_left fun m inside => congrArg (Prod.mk m.1) (kept m inside).2).trans
      (List.map_id members)
  have rows : s.weights.map (·.map Number.reread) = s.weights :=
    (List.map_congr_left fun row inside =>
      (List.map_congr_left fun x member => (weights row inside x member).2).trans
        (List.map_id row)).trans (List.map_id s.weights)
  rw [readBack, actions.2, features.2, episodes.2, members settings, rows, members state]

/-- A state whose numbers are kept is read as itself. -/
theorem read_write {s : SavedAgent} (settings : s.settings.Ordered) (state : s.state.Ordered)
    (kept : ∀ x ∈ s.numbers, Number.Kept x) : read s.write = .ok s := by
  rw [read_write_finite settings state fun x inside => (kept x inside).1, readBack_self kept]

/-- Every entry of a list that is taken over has been taken over. -/
theorem isSome_of_mapM {β γ : Type} {f : β → Option γ} {xs : List β} {ys : List γ}
    (taken : xs.mapM f = some ys) : ∀ x ∈ xs, ∃ y, f x = some y := by
  induction xs generalizing ys with
  | nil => exact fun _ inside => nomatch inside
  | cons x xs ih =>
    simp only [List.mapM_cons, Option.bind_eq_bind, Option.bind_eq_some_iff] at taken
    obtain ⟨y, first, rest, others, _⟩ := taken
    exact List.forall_mem_cons.mpr ⟨⟨y, first⟩, ih others⟩

/-- Where the fields of a state that has been read were found. -/
structure Found (members : Members Json) (saved : SavedAgent) : Prop where
  actions : (members.get? "actionSpaceSize").bind Json.number? = some saved.actions
  features : (members.get? "featureDimension").bind Json.number? = some saved.features
  settings : ((members.get? "config").bind Json.members?).bind numbers? = some saved.settings
  weights : (members.get? "weights").bind matrix? = some saved.weights
  state : ((members.get? "state").bind Json.members?).bind numbers? = some saved.state
  episodes : (members.get? "episodesTrained").bind Json.number? = some saved.episodes
  updated : ∃ t, (members.get? "lastUpdated").bind Json.text? = some t ∧ saved.updated = t.toString

theorem found_of_ofMembers? {members : Members Json} {saved : SavedAgent}
    (read : ofMembers? members = some saved) : Found members saved := by
  obtain ⟨_, _, read⟩ := Option.bind_eq_some_iff.mp read
  obtain ⟨_, actions, read⟩ := Option.bind_eq_some_iff.mp read
  obtain ⟨_, features, read⟩ := Option.bind_eq_some_iff.mp read
  obtain ⟨_, settings, read⟩ := Option.bind_eq_some_iff.mp read
  obtain ⟨_, weights, read⟩ := Option.bind_eq_some_iff.mp read
  obtain ⟨_, state, read⟩ := Option.bind_eq_some_iff.mp read
  obtain ⟨_, episodes, read⟩ := Option.bind_eq_some_iff.mp read
  obtain ⟨t, time, read⟩ := Option.bind_eq_some_iff.mp read
  cases read
  exact ⟨actions, features, settings, weights, state, episodes, t, time, rfl⟩

theorem found_of_read {s saved : SavedAgent} (readable : read s.write = .ok saved) :
    Found (s.members.map fun m => (m.1, Json.reread m.2)) saved := by
  rw [read, parse?_write] at readable
  simp only [Json.members?] at readable
  split at readable
  · next found =>
    cases readable
    exact found_of_ofMembers? found
  · cases readable

/-- What is read from a written state has its time, whatever became of its numbers. -/
theorem updated_of_read {s saved : SavedAgent} (readable : read s.write = .ok saved) :
    saved.updated = s.updated := by
  obtain ⟨t, time, same⟩ := (found_of_read readable).updated
  have written : Members.get? "lastUpdated" (s.members.map fun m => (m.1, Json.reread m.2)) =
      some (.text s.updated) := rfl
  rw [written] at time
  cases time
  rw [same, Text.toString_ofString]

theorem finite_of_numbers? {members read : Members Float} (ordered : members.Ordered)
    (taken : (Json.reread (numberMembers members)).members?.bind numbers? = some read) :
    ∀ m ∈ members, m.2.isFinite = true := by
  intro m inside
  rw [reread_numberMembers ordered] at taken
  obtain ⟨_, found⟩ := isSome_of_mapM taken _ (List.mem_map_of_mem inside)
  obtain ⟨x, number, _⟩ := Option.map_eq_some_iff.mp found
  exact finite_of_number? number

theorem finite_of_matrix? {rows read : List (List Float)}
    (taken : matrix? (Json.reread (matrix rows)) = some read) :
    ∀ row ∈ rows, ∀ x ∈ row, x.isFinite = true := by
  intro row inside x member
  rw [reread_matrix] at taken
  obtain ⟨_, found⟩ := isSome_of_mapM taken _ (List.mem_map_of_mem inside)
  obtain ⟨_, number⟩ := isSome_of_mapM found _ (List.mem_map_of_mem member)
  exact finite_of_number? number

/-- A number that is not finite is lost, and with it the state. -/
theorem finite_of_read {s saved : SavedAgent} (settings : s.settings.Ordered)
    (state : s.state.Ordered) (readable : read s.write = .ok saved) :
    ∀ x ∈ s.numbers, x.isFinite = true := by
  have found := found_of_read readable
  exact forall_numbers.mpr
    ⟨⟨finite_of_number? found.actions, finite_of_number? found.features,
      finite_of_number? found.episodes⟩, finite_of_numbers? settings found.settings,
      finite_of_matrix? found.weights, finite_of_numbers? state found.state⟩

end SavedAgent
end ProgramGym
