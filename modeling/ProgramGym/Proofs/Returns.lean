import Mathlib
import ProgramGym.Proofs.Exact.Averages

/-! Returns of an episode. They are written from the last step to the first, each from the one behind
it, and so those of a later part of an episode do not depend on what went before, whatever the
arithmetic. Main statement: the returns from a step on are those of the rewards from there on, number
by number, and in exact arithmetic a return is the sum of the rewards to come with a discount for
each step of delay. -/
namespace ProgramGym.Linear
open Exact

section
variable {α : Type} [Scalar α] (gamma : α)

theorem length_discountedReturns (rewards : List α) :
    (discountedReturns gamma rewards).length = rewards.length := by
  induction rewards with
  | nil => rfl
  | cons r rewards ih => exact congrArg (· + 1) ih

theorem drop_discountedReturns (rewards : List α) (t : Nat) :
    (discountedReturns gamma rewards).drop t = discountedReturns gamma (rewards.drop t) := by
  induction rewards generalizing t with
  | nil => rw [List.drop_nil, discountedReturns, List.drop_nil]
  | cons r rewards ih =>
    cases t with
    | zero => rfl
    | succ t => exact ih t

/-- A loop from the last of so many steps to the first that writes the return of each in its place.
It carries the return of the step behind. -/
def writeReturns (rewards : List α) : (steps : Nat) → (next : α) → List α → List α
  | 0, _, returns => returns
  | t + 1, next, returns =>
    let g := rewards.getD t Scalar.absent + gamma * next
    writeReturns rewards t g (returns.set t g)

omit [Scalar α] in
/-- The place behind so many others. -/
theorem set_replicate_append (t : Nat) (zero g : α) (returns : List α) :
    (List.replicate (t + 1) zero ++ returns).set t g = List.replicate t zero ++ g :: returns := by
  rw [List.replicate_succ', List.append_assoc, List.set_append_right _ _ (by simp)]
  simp

/-- Behind the steps that are still to come all returns are written. -/
theorem writeReturns_drop (zero : α) {rewards : List α} {steps : Nat}
    (within : steps ≤ rewards.length) :
    writeReturns gamma rewards steps
      ((discountedReturns gamma (rewards.drop steps)).headD (Scalar.nat 0))
      (List.replicate steps zero ++ discountedReturns gamma (rewards.drop steps)) =
      discountedReturns gamma rewards := by
  induction steps with
  | zero => rfl
  | succ t ih =>
    have here : rewards.drop t = rewards.getD t Scalar.absent :: rewards.drop (t + 1) := by
      rw [List.getD_eq_getElem _ _ within, List.drop_eq_getElem_cons within]
    have before := ih (Nat.le_of_succ_le within)
    rw [here] at before
    rw [writeReturns, set_replicate_append]
    exact before

theorem writeReturns_eq (rewards : List α) :
    writeReturns gamma rewards rewards.length (Scalar.nat 0)
      (List.replicate rewards.length (Scalar.nat 0)) = discountedReturns gamma rewards := by
  have all := writeReturns_drop gamma (Scalar.nat 0) (le_refl rewards.length)
  rw [List.drop_length, discountedReturns, List.append_nil] at all
  exact all

end

/-- Rewards of an episode, discounted by any factor. The returns are what a loop from the last step
to the first writes, one for each step. From any step on they are the returns of the rewards from
there on, as the same numbers, so that rewards in front of an episode change none of its returns; and
in exact arithmetic each is the discounted sum of the rewards to come. -/
theorem returns_causal :
    (∀ (gamma : Float) (rewards : List Float),
      writeReturns gamma rewards rewards.length 0 (List.replicate rewards.length 0) =
        discountedReturns gamma rewards ∧
      (discountedReturns gamma rewards).length = rewards.length ∧
      (∀ t, (discountedReturns gamma rewards).drop t = discountedReturns gamma (rewards.drop t)) ∧
      ∀ earlier, (discountedReturns gamma (earlier ++ rewards)).drop earlier.length =
        discountedReturns gamma rewards) ∧
    ∀ (gamma : ℝ) (rewards : List ℝ) (t : Fin rewards.length),
      (discountedReturns (real gamma) (rewards.map real))[t]? =
        some (real (∑ k ∈ Finset.Ici t, gamma ^ (k.val - t.val) * rewards[k])) := by
  refine ⟨fun gamma rewards => ⟨writeReturns_eq gamma rewards, length_discountedReturns gamma rewards,
    drop_discountedReturns gamma rewards, fun earlier => ?_⟩, fun gamma rewards t => ?_⟩
  · rw [drop_discountedReturns, List.drop_left]
  · rw [map_real_eq_row, discountedReturns_row, Fin.getElem?_fin,
      List.getElem?_eq_getElem (by simp), getElem_row]
    rfl

end ProgramGym.Linear
