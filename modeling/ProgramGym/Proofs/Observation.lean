import ProgramGym.Observation

/-! What an observation tells of an episode. The window holds the last actions, latest first, and
slides by one place with each action. The features are one block for each place of the window and a
tail, so every entry has a fixed place, whatever the history is. Main statement: features of one
shape are equal only where the indices in the window, the progress and the context are. -/
namespace ProgramGym.Observation

section
variable {β : Type} (length : Nat) (entries : List β)

theorem length_recent : (recent length entries).length = length := by
  simp only [recent, List.length_append, List.length_map, List.length_replicate, List.length_take]
  omega

/-- The last entries reversed, and nothing where there were fewer. -/
theorem recent_eq : recent length entries =
    (entries.drop (entries.length - length)).reverse.map some ++
      List.replicate (length - entries.length) none := by
  unfold recent
  rw [List.take_reverse]
  simp only [List.length_map, List.length_reverse, List.length_drop]
  congr 2
  omega

theorem mem_of_recent {entry : β} (stands : some entry ∈ recent length entries) :
    entry ∈ entries := by
  rw [recent_eq, List.mem_append] at stands
  rcases stands with stands | padding
  · obtain ⟨_, recently, same⟩ := List.mem_map.mp stands
    cases same
    exact List.mem_of_mem_drop (List.mem_reverse.mp recently)
  · cases List.eq_of_mem_replicate padding

end

variable {α : Type} [Scalar α]

/-- The indices of the actions in the window; none where no action stands. -/
def indices (o : Observation α) : List (Option Nat) := o.window.map (·.bind Quantity.index?)

theorem length_oneHot (size : Nat) (index : Option Nat) :
    (oneHot size index : List α).length = size := by simp [oneHot]

section
variable (s : Shape) (e : Episode α)

theorem length_encode : (encode s e).features.length = s.featureCount := by
  simp [encode, oneHot, List.length_flatMap, Shape.featureCount, List.map_const', length_recent]

theorem indices_encode :
    (encode s e).indices = (recent s.windowLength e.actions).map (·.bind Quantity.index?) := rfl

theorem length_indices : (encode s e).indices.length = s.windowLength := by
  rw [indices_encode, List.length_map, length_recent]

/-- The blocks, each of which hangs on an index alone. -/
theorem features_eq : (encode s e).features =
    (encode s e).indices.flatMap (oneHot s.vocabularySize) ++
      [(encode s e).progress, (encode s e).emitted, (encode s e).similarity, Scalar.nat 1] := by
  rw [indices_encode, List.flatMap_map]
  rfl

theorem length_blocks : ((encode s e).indices.flatMap (oneHot s.vocabularySize) : List α).length =
    s.windowLength * s.vocabularySize := by
  simp [oneHot, List.length_flatMap, List.map_const', length_indices]

end

end ProgramGym.Observation
