import Mathlib
import ProgramGym.Proofs.Agent.Choosing
import ProgramGym.Proofs.Agent.Updating
import ProgramGym.Proofs.Exact.Comparing

/-! The greedy choice. One loop looks for the first place of a greatest value and another one for
that value; where all values are numbers, infinities among them, they agree. Main statements: the
greedy index is the least one with a greatest value; and the value of the action that a Q-learner
chooses without exploring is the one that it looks ahead to, as the probability of the action that a
policy chooses is a greatest one. -/
namespace ProgramGym

/-- The greatest of values and the first place where it stands. -/
structure Foremost {L : Type} [LinearOrder L] (values : List L) (i : ℕ) (v : L) : Prop where
  found : values[i]? = some v
  greatest : ∀ w ∈ values, w ≤ v
  first : ∀ j < i, ∀ w, values[j]? = some w → w < v

section
variable {L : Type} [LinearOrder L] {values : List L} {i : ℕ} {v x : L}

theorem Foremost.inside (foremost : Foremost values i v) : i < values.length :=
  (List.getElem?_eq_some_iff.mp foremost.found).1

theorem foremost_singleton (x : L) : Foremost [x] 0 x :=
  ⟨rfl, fun _ member => (List.mem_singleton.mp member).le, nofun⟩

/-- A value that is not greater changes nothing. -/
theorem Foremost.keep (foremost : Foremost values i v) (le : x ≤ v) :
    Foremost (values ++ [x]) i v where
  found := by rw [List.getElem?_append_left foremost.inside, foremost.found]
  greatest w member := by
    rcases List.mem_append.mp member with before | last
    · exact foremost.greatest w before
    · exact (List.mem_singleton.mp last).trans_le le
  first j before := by
    rw [List.getElem?_append_left (before.trans foremost.inside)]
    exact foremost.first j before

/-- A greater value takes over. -/
theorem Foremost.exceed (foremost : Foremost values i v) (less : v < x) :
    Foremost (values ++ [x]) values.length x where
  found := List.getElem?_concat_length
  greatest w member := by
    rcases List.mem_append.mp member with before | last
    · exact (foremost.greatest w before).trans less.le
    · exact (List.mem_singleton.mp last).le
  first j before w here := by
    rw [List.getElem?_append_left before] at here
    exact (foremost.greatest w (List.mem_of_getElem? here)).trans_lt less

theorem foldl_max_le {b u : L} (values : List L) :
    values.foldl max b ≤ u ↔ b ≤ u ∧ ∀ v ∈ values, v ≤ u := by
  induction values generalizing b with
  | nil => simp
  | cons v values ih => rw [List.foldl_cons, ih, max_le_iff, List.forall_mem_cons, and_assoc]

end

namespace Exact
variable {values : List EReal} {i : ℕ} {v : EReal}

/-- What the loop has found so far, carried along to the end of the list. -/
theorem argmaxFrom_foremost (foremost : Foremost values i v) (more : List EReal) :
    ∃ w, Foremost (values ++ more)
      (Linear.argmaxFrom i (number v) values.length (more.map number)) w := by
  induction more generalizing values i v with
  | nil => exact ⟨v, by rwa [List.append_nil]⟩
  | cons x more ih =>
    rw [List.map_cons, Linear.argmaxFrom, ← List.singleton_append, ← List.append_assoc]
    have next : values.length + 1 = (values ++ [x]).length := by simp
    split
    · next less => exact next ▸ ih (foremost.exceed ((test_number _ v x).mp less))
    · next not => exact next ▸ ih (foremost.keep (not_lt.mp ((test_number _ v x).not.mp not)))

theorem argmax_foremost (nonempty : values ≠ []) :
    ∃ v, Foremost values (Linear.argmax (values.map number)) v := by
  cases values with
  | nil => exact absurd rfl nonempty
  | cons x values => exact argmaxFrom_foremost (foremost_singleton x) values

theorem maximum_of_foremost (foremost : Foremost values i v) :
    Scalar.maximum (values.map number) = number v := by
  have folded : Scalar.maximum (values.map number) = number (values.foldl max ⊥) := by
    rw [Scalar.maximum, List.foldl_map]
    exact List.foldl_hom number fun _ _ => rfl
  have least (u : EReal) := foldl_max_le (b := ⊥) (u := u) values
  refine folded.trans (congrArg number (le_antisymm ?_ ?_))
  · exact (least v).mpr ⟨bot_le, foremost.greatest⟩
  · exact ((least _).mp le_rfl).2 v (List.mem_of_getElem? foremost.found)

theorem argmax_ofFloat (xs : List Float) : Linear.argmax (xs.map ofFloat) = Linear.argmax xs := by
  have from_ (best index : ℕ) (x : Float) (xs : List Float) :
      Linear.argmaxFrom best (ofFloat x) index (xs.map ofFloat) =
        Linear.argmaxFrom best x index xs := by
    induction xs generalizing best index x with
    | nil => rfl
    | cons y xs ih => rw [List.map_cons, Linear.argmaxFrom, Linear.argmaxFrom, lt_ofFloat, ih, ih]
  cases xs with
  | nil => rfl
  | cons x xs => exact from_ 0 1 x xs

theorem ofFloat_numbers {xs : List Float} (numbers : ∀ x ∈ xs, x.isNaN = false) :
    ∃ values : List EReal, xs.map ofFloat = values.map number := by
  induction xs with
  | nil => exact ⟨[], rfl⟩
  | cons x xs ih =>
    obtain ⟨defined, others⟩ := List.forall_mem_cons.mp numbers
    obtain ⟨v, stands⟩ := exists_stands defined
    obtain ⟨values, same⟩ := ih others
    exact ⟨v :: values, by rw [List.map_cons, List.map_cons, stands.ofFloat, same]⟩

end Exact

namespace Linear
open Exact

/-- The greedy index is the least one with a greatest value, and that value is the maximum. -/
theorem argmax_greatest {values : List Float} (nonempty : values ≠ [])
    (numbers : ∀ x ∈ values, x.isNaN = false) :
    ∃ x, values[argmax values]? = some x ∧ (∀ y ∈ values, y ≤ x) ∧
      (∀ j < argmax values, ∀ y, values[j]? = some y → y < x) ∧
      (x == Scalar.maximum values) = true := by
  obtain ⟨exact, same⟩ := ofFloat_numbers numbers
  have filled : exact ≠ [] := by
    rintro rfl
    exact nonempty (List.map_eq_nil_iff.mp same)
  obtain ⟨v, foremost⟩ := argmax_foremost filled
  have greatest := maximum_of_foremost foremost
  rw [← same, argmax_ofFloat] at foremost
  rw [← same, maximum_ofFloat] at greatest
  -- place by place, the values stand for the exact ones
  have stands (j : ℕ) : values[j]?.map ofFloat = exact[j]?.map number := by
    rw [← List.getElem?_map, ← List.getElem?_map, same]
  have at_ {j : ℕ} {y : Float} (here : values[j]? = some y) :
      ∃ w, exact[j]? = some w ∧ number w = ofFloat y := by
    have := stands j
    rw [here] at this
    exact Option.map_eq_some_iff.mp this.symm
  obtain ⟨x, found, value⟩ : ∃ x, values[argmax values]? = some x ∧ ofFloat x = number v := by
    have := stands (argmax values)
    rw [foremost.found] at this
    exact Option.map_eq_some_iff.mp this
  refine ⟨x, found, fun y member => ?_, fun j before y here => ?_, ?_⟩
  · obtain ⟨j, here⟩ := List.mem_iff_getElem?.mp member
    obtain ⟨w, there, other⟩ := at_ here
    have le : Scalar.le y x = true := by
      rw [← le_ofFloat, value, ← other]
      exact (test_number _ w v).mpr (foremost.greatest w (List.mem_of_getElem? there))
    exact of_decide_eq_true le
  · obtain ⟨w, there, other⟩ := at_ here
    have less : Scalar.lt y x = true := by
      rw [← lt_ofFloat, value, ← other]
      exact (test_number _ w v).mpr (foremost.first j before w there)
    exact of_decide_eq_true less
  · have equal : Scalar.eq x (Scalar.maximum values) = true := by
      rw [← eq_ofFloat, value, greatest]
      exact (test_number _ v v).mpr rfl
    exact equal

end Linear

namespace Agent
variable {kind : AgentKind} {actions size : Quantity Float} {settings : Json.Members Json}
  {source : Source Float} {clock : Instant} {made : Agent}

theorem act_fitting {a : Agent} {features : List Float}
    (fits : features.length = a.spaces.features) (explore : Bool) :
    a.act features explore = (.ok (a.choose features explore).1,
      { a with source := (a.choose features explore).2 }) := by
  rcases a.act_cases features explore with ⟨_, acted⟩ | ⟨misfit, _⟩
  · exact acted
  · exact absurd fits misfit

/-- An agent that takes the first greatest of so many numbers as it has actions. -/
theorem act_greatest {a : Agent} {features values : List Float}
    (fits : features.length = a.spaces.features) (pos : 1 ≤ a.spaces.actions)
    (count : values.length = a.spaces.actions) (numbers : ∀ x ∈ values, x.isNaN = false)
    (chosen : a.choose features false = (.count (Linear.argmax values), a.source)) :
    ∃ i < a.spaces.actions, ∃ x, a.act features false = (.ok (.count i), a) ∧
      values[i]? = some x ∧ (∀ y ∈ values, y ≤ x) ∧ (x == Scalar.maximum values) = true := by
  have nonempty : values ≠ [] := List.ne_nil_of_length_pos (count ▸ pos)
  obtain ⟨x, found, greatest, _, maximum⟩ := Linear.argmax_greatest nonempty numbers
  refine ⟨_, count ▸ (List.getElem?_eq_some_iff.mp found).1, x, ?_, found, greatest, maximum⟩
  rw [act_fitting fits, chosen]

/-- The greedy choice among any numbers, and that of an agent of which anything has been asked
before. The index is the least one with a greatest value. An agent that does not explore draws
nothing; the value of the action that a Q-learner then chooses is the maximum of its values, with
which it looks ahead from a step that leads to these features, and the probability of the action
that a policy chooses is a greatest one. -/
theorem greedy_choice (created : create kind actions size settings source clock = .ok made)
    (calls : List Call) :
    let a := made.after calls
    (∀ values : List Float, values ≠ [] → (∀ x ∈ values, x.isNaN = false) →
      ∃ x, values[Linear.argmax values]? = some x ∧ (∀ y ∈ values, y ≤ x) ∧
        ∀ j < Linear.argmax values, ∀ y, values[j]? = some y → y < x) ∧
    (∀ q, a.learner = .qlearning q → ∀ features, features.length = a.spaces.features →
      (∀ x ∈ q.values features, x.isNaN = false) →
      (∃ i < a.spaces.actions, ∃ x, a.act features false = (.ok (.count i), a) ∧
        (q.values features)[i]? = some x ∧ (x == Scalar.maximum (q.values features)) = true) ∧
      ∀ before action reward, (a.learn before action reward features false).1 = .ok () →
        ∃ j, action.indexBelow? a.spaces.actions = some j ∧
          (a.learn before action reward features false).2.learner =
            .qlearning (q.moveToward before j
              (reward + q.settings.gamma * Scalar.maximum (q.values features)))) ∧
    ∀ p, a.learner = .policyGradient p → ∀ features, features.length = a.spaces.features →
      (∀ x ∈ p.probabilities features, x.isNaN = false) →
      ∃ i < a.spaces.actions, ∃ x, a.act features false = (.ok (.count i), a) ∧
        (p.probabilities features)[i]? = some x ∧ ∀ y ∈ p.probabilities features, y ≤ x := by
  intro a
  have shaped : a.Shaped := shaped_after created calls
  have pos := shaped.actions
  have suits := shaped.learner
  refine ⟨fun values nonempty numbers => ?_, fun q own features fits numbers => ⟨?_, ?_⟩,
    fun p own features fits numbers => ?_⟩
  · obtain ⟨x, found, greatest, first, _⟩ := Linear.argmax_greatest nonempty numbers
    exact ⟨x, found, greatest, first⟩
  · rw [own] at suits
    obtain ⟨_, _, shape⟩ := suits
    have chosen : a.choose features false =
        (.count (Linear.argmax (q.values features)), a.source) := by
      rw [choose, own]
      rfl
    obtain ⟨i, below, x, acted, found, _, maximum⟩ :=
      act_greatest fits pos (shape.length_values features) numbers chosen
    exact ⟨i, below, x, acted, found, maximum⟩
  · intro before action reward accepted
    obtain ⟨j, named, learned⟩ := learn_qlearning own accepted
    refine ⟨j, named, ?_⟩
    rw [learned]
    rfl
  · rw [own] at suits
    obtain ⟨_, _, shape, _⟩ := suits
    have chosen : a.choose features false =
        (.count (Linear.argmax (p.probabilities features)), a.source) := by
      rw [choose, own]
      rfl
    obtain ⟨i, below, x, acted, found, greatest, _⟩ :=
      act_greatest fits pos (shape.length_probabilities features) numbers chosen
    exact ⟨i, below, x, acted, found, greatest⟩

/-- An untrained Q-learner for two actions and one feature. -/
def chooserOfTwo : Agent :=
  { sample with spaces := ⟨2, 1⟩, learner := .qlearning ⟨.default, [[0], [0]], 1⟩ }

/-- The choice of an agent whose second action has been rewarded. -/
theorem greedy_choice_rewarded :
    let taught := chooserOfTwo.after [.learn [1] (.count 1) 1 [] true]
    create .qlearning (.count 2) (.count 1) [] (.ofSeed 0) (.moment 0) = .ok chooserOfTwo ∧
    ∃ q, taught.learner = .qlearning q ∧ [(1 : Float)].length = taught.spaces.features ∧
      (∀ x ∈ q.values [1], x.isNaN = false) ∧
      ∃ i < 2, ∃ x, taught.act [1] false = (.ok (.count i), taught) ∧
        (q.values [1])[i]? = some x ∧ (x == Scalar.maximum (q.values [1])) = true := by
  intro taught
  have created : create .qlearning (.count 2) (.count 1) [] (.ofSeed 0) (.moment 0) =
    .ok chooserOfTwo := rfl
  have own : taught.learner = .qlearning ((QLearner.mk .default [[0], [0]] 1).learn [1] 1 1 [] true) :=
    rfl
  have numbers : ∀ x ∈ ((QLearner.mk .default [[0], [0]] 1).learn [1] 1 1 [] true).values [1],
      x.isNaN = false := by
    decide +kernel
  obtain ⟨_, valued, _⟩ := greedy_choice created [.learn [1] (.count 1) 1 [] true]
  exact ⟨created, _, own, rfl, numbers, (valued _ own [1] rfl numbers).1⟩

end Agent
end ProgramGym
