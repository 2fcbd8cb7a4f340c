import Mathlib
import ProgramGym.Proofs.Decimal.Conversion
import ProgramGym.Proofs.Decimal.Values

/-! Sums of numbers that are not negative, infinity among them. Such a number reaches a rational or
the top, and compares as what it reaches. Main statements: a sum is not below its first summand,
whatever is rounded and also where it overflows, and a summand of zero leaves it where it was. -/
namespace ProgramGym.Binary64
open Float.Model Float.Model.UnpackedFloat

/-- How far a number that is not negative reaches. -/
inductive Reaches (x : Float) : WithTop ℚ → Prop where
  | worth {v : ℚ} (worth : Worth x v) : Reaches x v
  | infinite (unpacked : x.toModel.unpack = .infinity .positive) : Reaches x ⊤

section
variable {x y : Float} {v w : WithTop ℚ}

theorem reaches_of_nonneg (nonneg : 0 ≤ x) : ∃ v, Reaches x v := by
  have rounded := rounded_unpack x.toModel.toBits.toBitVec
  change Rounded x.toModel.unpack at rounded
  rw [le_iff_compare, unpack_zero] at nonneg
  cases unpacked : x.toModel.unpack with
  | notANumber =>
    rw [unpacked] at nonneg
    cases nonneg
  | infinity s =>
    rw [unpacked] at nonneg
    cases s with
    | negative => cases nonneg
    | positive => exact ⟨⊤, .infinite unpacked⟩
  | zero s => exact ⟨_, .worth (.zero s unpacked)⟩
  | finite s m e pos =>
    rw [unpacked] at nonneg rounded
    cases s with
    | negative => cases nonneg
    | positive => exact ⟨_, .worth (.finite rounded unpacked)⟩

theorem Reaches.lt_iff (first : Reaches x v) (second : Reaches y w) : x < y ↔ v < w := by
  cases first with
  | worth first =>
    cases second with
    | worth second => rw [first.lt_iff second, WithTop.coe_lt_coe]
    | infinite unpacked =>
      rw [lt_iff_compare, unpacked]
      refine iff_of_true ?_ (WithTop.coe_lt_top _)
      cases first with
      | zero _ here | finite _ here =>
        rw [here]
        rfl
  | infinite unpacked =>
    rw [lt_iff_compare, unpacked]
    refine iff_of_false ?_ not_top_lt
    cases second with
    | worth second =>
      cases second with
      | zero _ here | finite _ here =>
        rw [here]
        exact fun same => by cases same
    | infinite here =>
      rw [here]
      exact fun same => by cases same

/-- What is not above zero reaches it. -/
theorem Reaches.zero_of_not_pos (reaches : Reaches x v) (not : ¬ 0 < x) :
    ∃ s, x.toModel.unpack = .zero s := by
  rw [(Reaches.worth worth_zero).lt_iff reaches] at not
  cases reaches with
  | worth worth =>
    cases worth with
    | zero s unpacked => exact ⟨s, unpacked⟩
    | @finite m e canonical unpacked =>
      have some : (0 : ℚ) < m := by exact_mod_cast canonical.pos
      have pos : (0 : ℚ) < m * 2 ^ e := by positivity
      exact absurd (WithTop.coe_lt_coe.mpr pos) not
  | infinite => exact absurd (WithTop.coe_lt_top _) not

/-- A zero that is added, of either sign, leaves a number where it was. -/
theorem Reaches.add_zero {t : Sign} (reaches : Reaches x v)
    (unpacked : y.toModel.unpack = .zero t) : Reaches (x + y) v := by
  cases reaches with
  | infinite here =>
    exact .infinite (unpack_add (u := .infinity .positive) trivial (by rw [here, unpacked]; rfl))
  | worth worth =>
    refine .worth ?_
    cases worth with
    | zero s here =>
      refine .zero (if s == t then s else .positive) (unpack_add (u := .zero _) trivial ?_)
      rw [here, unpacked]
      change (if s == t then UnpackedFloat.zero s else .zero .positive) = _
      split <;> rfl
    | finite canonical here =>
      refine .finite canonical (unpack_add (u := .finite _ _ _ _) canonical ?_)
      rw [here, unpacked]
      rfl

theorem Reaches.zero_add {s : Sign} (reaches : Reaches y w)
    (unpacked : x.toModel.unpack = .zero s) : Reaches (x + y) w := by
  cases reaches with
  | infinite here =>
    exact .infinite (unpack_add (u := .infinity .positive) trivial (by rw [here, unpacked]; rfl))
  | worth worth =>
    cases worth with
    | zero t here => exact (Reaches.worth (.zero s unpacked)).add_zero here
    | finite canonical here =>
      refine .worth (.finite canonical (unpack_add (u := .finite _ _ _ _) canonical ?_))
      rw [here, unpacked]
      rfl

theorem Reaches.nonneg (reaches : Reaches x v) : 0 ≤ v := by
  cases reaches with
  | worth worth => exact_mod_cast worth.nonneg
  | infinite => exact le_top

/-- Of two numbers above zero the sum is rounded, but not to less than the first one. It may be
infinite. -/
theorem Canonical.reaches_add {m n : Nat} {e t : Int} (first : Canonical m e)
    (second : Canonical n t)
    (unpacked₁ : x.toModel.unpack = .finite .positive m e first.pos)
    (unpacked₂ : y.toModel.unpack = .finite .positive n t second.pos) :
    ∃ u, Reaches (x + y) u ∧ ((m * 2 ^ e : ℚ) : WithTop ℚ) ≤ u := by
  have least : (1 : ℚ) ≤ m := by exact_mod_cast first.pos
  have place : (2 : ℚ) ^ (-1075 : Int) < 2 ^ e :=
    zpow_lt_zpow_right₀ (by norm_num) (by have := first.least; omega)
  have more : (m : ℚ) * 2 ^ e ≤ m * 2 ^ e + n * 2 ^ t := le_add_of_nonneg_right (by positivity)
  obtain ⟨k, f, placed, nearest⟩ :=
    exists_nearest ((place.trans_le (le_mul_of_one_le_left (by positivity) least)).trans_le more)
  have sum := add_nearest placed first.pos second.pos nearest
  rw [← unpacked₁, ← unpacked₂] at sum
  rcases le_or_gt f 971 with small | large
  · have canonical := placed.canonical small
    exact ⟨_, .worth (.finite canonical (unpack_add (u := .finite _ _ _ _) canonical sum)),
      WithTop.coe_le_coe.mpr (nearest.le placed first.placed more)⟩
  · have packed := placed.unpack_float_large large .positive
    exact ⟨⊤, .infinite ((unpack_sum sum).trans packed), le_top⟩

/-- A sum is not below its first summand. -/
theorem Reaches.add (first : Reaches x v) (second : Reaches y w) :
    ∃ u, Reaches (x + y) u ∧ v ≤ u := by
  cases first with
  | infinite unpacked₁ =>
    refine ⟨⊤, .infinite (unpack_add (u := .infinity .positive) trivial ?_), le_rfl⟩
    cases second with
    | infinite unpacked₂ =>
      rw [unpacked₁, unpacked₂]
      rfl
    | worth second =>
      cases second with
      | zero _ unpacked₂ | finite _ unpacked₂ =>
        rw [unpacked₁, unpacked₂]
        rfl
  | worth worth =>
    cases worth with
    | zero s unpacked₁ => exact ⟨w, second.zero_add unpacked₁, second.nonneg⟩
    | finite canonical₁ unpacked₁ =>
      cases second with
      | infinite unpacked₂ =>
        refine ⟨⊤, .infinite (unpack_add (u := .infinity .positive) trivial ?_), le_top⟩
        rw [unpacked₁, unpacked₂]
        rfl
      | worth second =>
        cases second with
        | zero t unpacked₂ =>
          exact ⟨_, (Reaches.worth (.finite canonical₁ unpacked₁)).add_zero unpacked₂, le_rfl⟩
        | finite canonical₂ unpacked₂ =>
          exact canonical₁.reaches_add canonical₂ unpacked₁ unpacked₂

end
end ProgramGym.Binary64
