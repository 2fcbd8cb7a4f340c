import Mathlib
import ProgramGym.Learner.QLearner
import ProgramGym.Proofs.Decimal.Values
import ProgramGym.Proofs.Learner.Settings

/-! How a Q-learner comes to explore less. At the end of an episode exploration is multiplied by a
factor that is at most one, and raised to its floor where the product lies below. Main statement:
the decay of a probability is a probability that is not below the floor, and it is no larger than
before exactly if exploration was not below the floor already. -/
namespace ProgramGym
open Binary64

theorem Range.not_lt_low {low high x : Float} {lowOpen highOpen : Bool}
    (inside : (Range.mk low high lowOpen highOpen).contains x = true) : ¬ x < low := by
  simp only [contains, Bool.and_eq_true] at inside
  obtain ⟨⟨_, above⟩, _⟩ := inside
  cases lowOpen with
  | false => simpa using above
  | true =>
    intro below
    rw [lt_iff_compare] at below
    simp [le_iff_compare, below] at above

theorem Range.probability {lowOpen highOpen : Bool} {x : Float}
    (inside : (Range.mk 0 1 lowOpen highOpen).contains x = true) : Probability x := by
  obtain ⟨v, worth⟩ := worth_of_finite (finite_of_contains inside) (not_lt_low inside)
  simp only [Range.contains, Bool.and_eq_true] at inside
  obtain ⟨_, high⟩ := inside
  refine worth.probability (not_lt.mp fun beyond => ?_)
  rw [← worth_one.lt_iff worth] at beyond
  cases highOpen with
  | false => simp [beyond] at high
  | true =>
    have reached := (worth_one.le_iff worth).mpr ((worth_one.lt_iff worth).mp beyond).le
    simp [reached] at high

/-- Exploration starts at its floor or above. -/
theorem QSettings.Valid.floor_le {s : QSettings Float} (valid : s.Valid) :
    s.epsilonMin ≤ s.epsilon := by
  obtain ⟨v, _, worth⟩ := (Range.probability valid.epsilon).worth
  obtain ⟨w, _, floor⟩ := (Range.probability valid.epsilonMin).worth
  rw [floor.le_iff worth, ← not_lt, ← worth.lt_iff floor]
  exact valid.floor

namespace QLearner
variable {q : QLearner Float}

theorem learn_epsilon (features : List Float) (action : Nat) (reward : Float) (next : List Float)
    (done : Bool) : (q.learn features action reward next done).epsilon =
      if done then q.decay.epsilon else q.epsilon := by
  cases done <;> rfl

section
variable (valid : q.settings.Valid) (probability : Probability q.epsilon)
include valid probability

/-- The decayed value is the product that is no larger, or the floor. -/
theorem worth_decay : ∃ floor before product, Worth q.settings.epsilonMin floor ∧ floor ≤ 1 ∧
    Worth q.epsilon before ∧ before ≤ 1 ∧ product ≤ before ∧
    Worth q.decay.epsilon (max floor product) := by
  obtain ⟨floor, low, worthFloor⟩ := (Range.probability valid.epsilonMin).worth
  obtain ⟨before, high, worthBefore⟩ := probability.worth
  obtain ⟨factor, small, worthFactor⟩ := (Range.probability valid.epsilonDecay).worth
  obtain ⟨product, less, worthProduct⟩ := worthBefore.mul worthFactor small
  exact ⟨floor, before, product, worthFloor, low, worthBefore, high, less,
    worthFloor.max worthProduct⟩

theorem probability_decay : Probability q.decay.epsilon := by
  obtain ⟨floor, before, product, _, low, _, high, less, decayed⟩ := worth_decay valid probability
  exact decayed.probability (max_le low (less.trans high))

theorem floor_le_decay : q.settings.epsilonMin ≤ q.decay.epsilon := by
  obtain ⟨floor, before, product, worthFloor, _, _, _, _, decayed⟩ := worth_decay valid probability
  exact (worthFloor.le_iff decayed).mpr (le_max_left floor product)

theorem decay_le_iff : q.decay.epsilon ≤ q.epsilon ↔ q.settings.epsilonMin ≤ q.epsilon := by
  obtain ⟨floor, before, product, worthFloor, _, worthBefore, _, less, decayed⟩ :=
    worth_decay valid probability
  rw [decayed.le_iff worthBefore, worthFloor.le_iff worthBefore, max_le_iff]
  exact and_iff_left less

end
end QLearner
end ProgramGym
