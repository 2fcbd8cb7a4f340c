import Mathlib
import ProgramGym.Proofs.Decimal.Scientific
import ProgramGym.Quantity

/-! Whole numbers of either sign. A finite number is exactly one rational, both zeros zero. Main
statements: a number is whole if and only if it is exactly an integer, and the word of an integer
is its remainder by 2^32, however large it is. -/
namespace ProgramGym

/-- A magnitude with its sign. -/
def signed {α : Type} [Neg α] (negative : Bool) (v : α) : α := if negative then -v else v

namespace Number
open Binary64

/-- A finite number is exactly a rational. -/
def Exactly (x : Float) (v : ℚ) : Prop :=
  ∃ negative m e, ofFloat x = .finite negative m e ∧ v = signed negative ((m : ℚ) * 2 ^ e)

section
variable {x : Float} {z : ℤ}

/-- The magnitude of an integer is a natural number without a remainder. -/
theorem magnitude_integer {negative : Bool} {m : Nat} {e : Int}
    (value : (z : ℚ) = signed negative ((m : ℚ) * 2 ^ e)) :
    (magnitude m e).isWhole = true ∧ z = signed negative ((magnitude m e).whole : ℤ) := by
  have positive : (0 : ℚ) ≤ m * 2 ^ e := by positivity
  have size : ((z.natAbs : Nat) : ℚ) = m * 2 ^ e := by
    rw [Nat.cast_natAbs, Int.cast_abs, value]
    cases negative with
    | true => exact (abs_neg _).trans (abs_of_nonneg positive)
    | false => exact abs_of_nonneg positive
  have count := toNat?_eq_some.mpr size
  simp only [Binary64.toNat?, Option.ite_none_right_eq_some, Option.some_inj] at count
  refine ⟨count.1, ?_⟩
  rw [count.2]
  cases negative with
  | true =>
    have below : (z : ℚ) ≤ 0 := value ▸ neg_nonpos.mpr positive
    have below : z ≤ 0 := by exact_mod_cast below
    change z = -(z.natAbs : ℤ)
    omega
  | false =>
    have above : (0 : ℚ) ≤ z := value ▸ positive
    have above : 0 ≤ z := by exact_mod_cast above
    change z = (z.natAbs : ℤ)
    omega

theorem isWhole_iff : isWhole x = true ↔ ∃ z : ℤ, Exactly x z := by
  constructor
  · intro whole
    rw [isWhole] at whole
    cases pattern : ofFloat x with
    | notANumber | infinite =>
      rw [pattern] at whole
      cases whole
    | finite negative m e =>
      rw [pattern] at whole
      have count : Binary64.toNat? (.finite false m e) = some (magnitude m e).whole := if_pos whole
      refine ⟨signed negative (magnitude m e).whole, negative, m, e, pattern, ?_⟩
      rw [← toNat?_eq_some.mp count]
      cases negative <;> simp [signed]
  · rintro ⟨z, negative, m, e, pattern, value⟩
    rw [isWhole, pattern]
    exact (magnitude_integer value).1

/-- The word of an integer is its remainder. -/
theorem toNat_toWord (exact : Exactly x z) : ((toWord x).toNat : ℤ) = z % 2 ^ 32 := by
  obtain ⟨negative, m, e, pattern, value⟩ := exact
  have truncated : (ofFloat x).truncate? = some z := by
    rw [pattern, (magnitude_integer value).2]
    cases negative <;> rfl
  have positive := Int.emod_nonneg z (b := 2 ^ 32) (by decide)
  have below := Int.emod_lt_of_pos z (b := 2 ^ 32) (by decide)
  simp only [toWord, truncated]
  rw [UInt32.toNat_ofNat']
  change (((z % 2 ^ 32).toNat % 2 ^ 32 : Nat) : ℤ) = z % 2 ^ 32
  omega

end

end Number
end ProgramGym
