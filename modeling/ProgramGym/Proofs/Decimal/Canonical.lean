import Mathlib
import ProgramGym.Decimal.Binary64

/-! Binary64 patterns one by one. A finite number other than zero has one mantissa and one
exponent: all 53 bits, or fewer of them at the least exponent. Main statements: reading the bits
of a number gives what the arithmetic unpacks, packing such a mantissa and exponent loses nothing,
and the pattern determines the number. -/
namespace ProgramGym
namespace Binary64
open Float.Model Float.Model.UnpackedFloat

def isNegative : Sign → Bool
  | .negative => true
  | .positive => false

/-- What an unpacked number stands for. -/
def ofUnpacked : UnpackedFloat → Binary64
  | .notANumber => .notANumber
  | .infinity s => .infinite (isNegative s)
  | .zero s => .finite (isNegative s) 0 (-1074)
  | .finite s m e _ => .finite (isNegative s) m e

/-- Mantissa and exponent of a finite number other than zero. -/
structure Canonical (m : Nat) (e : Int) : Prop where
  pos : 0 < m
  high : m < 2 * fractions
  least : -1074 ≤ e
  most : e ≤ 971
  full : fractions ≤ m ∨ e = -1074

/-- Mantissa and exponent as rounding leaves them, also where the exponent is too large to be
packed. -/
structure Placed (m : Nat) (e : Int) : Prop where
  pos : 0 < m
  high : m < 2 * fractions
  least : -1074 ≤ e
  full : fractions ≤ m ∨ e = -1074

theorem Canonical.placed {m : Nat} {e : Int} (canonical : Canonical m e) : Placed m e :=
  ⟨canonical.pos, canonical.high, canonical.least, canonical.full⟩

theorem Placed.canonical {m : Nat} {e : Int} (placed : Placed m e) (small : e ≤ 971) :
    Canonical m e :=
  ⟨placed.pos, placed.high, placed.least, small, placed.full⟩

/-- What the arithmetic can unpack from 64 bits. -/
def Rounded : UnpackedFloat → Prop
  | .finite _ m e _ => Canonical m e
  | _ => True

section
variable (b : BitVec 64)

theorem toNat_unpackMantissa :
    (@unpackMantissa Format.binary64 b).toNat = b.toNat % fractions := by
  simp only [unpackMantissa, BitVec.toNat_cast, BitVec.extractLsb_toNat, Nat.shiftRight_zero]
  rfl

theorem toNat_unpackExponent :
    (@unpackExponent Format.binary64 b).toNat = b.toNat / fractions % 0x800 := by
  simp only [unpackExponent, BitVec.toNat_cast, BitVec.extractLsb_toNat,
    Nat.shiftRight_eq_div_pow]
  rfl

theorem isNegative_unpackSign :
    isNegative (Sign.ofBitVec (@unpackSign Format.binary64 b)) =
      (b.toNat / (0x800 * fractions) == 1) := by
  have bit : (@unpackSign Format.binary64 b).toNat = b.toNat / (0x800 * fractions) % 2 := by
    simp only [unpackSign, BitVec.toNat_cast, BitVec.extractLsb_toNat, Nat.shiftRight_eq_div_pow]
    rfl
  have small : b.toNat / (0x800 * fractions) < 2 := by
    have := b.isLt
    simp only [fractions]
    omega
  rw [Nat.mod_eq_of_lt small] at bit
  unfold Sign.ofBitVec
  split
  · next zero =>
    rw [zero] at bit
    rw [← bit]
    rfl
  · next one =>
    have other : (@unpackSign Format.binary64 b).toNat ≠ 0 := fun zero =>
      one (BitVec.eq_of_toNat_eq zero)
    rw [bit] at other
    rw [show b.toNat / (0x800 * fractions) = 1 by omega]
    rfl

theorem unpackExponent_top : @unpackExponent Format.binary64 b = -1#11 ↔
    b.toNat / fractions % 0x800 = 2047 := by
  rw [← toNat_unpackExponent, BitVec.toNat_eq]
  rfl

theorem unpackExponent_bottom : @unpackExponent Format.binary64 b = 0#11 ↔
    b.toNat / fractions % 0x800 = 0 := by
  rw [← toNat_unpackExponent, BitVec.toNat_eq]
  rfl

theorem unpackMantissa_zero : @unpackMantissa Format.binary64 b = 0#52 ↔
    b.toNat % fractions = 0 := by
  rw [← toNat_unpackMantissa, BitVec.toNat_eq]
  rfl

end

/-- The bit that a mantissa keeps hidden. -/
theorem toNat_hidden (fraction : BitVec 52) :
    (1#1 ++ fraction).toNat = fraction.toNat + fractions := by
  rw [BitVec.toNat_append, ← Nat.shiftLeft_add_eq_or_of_lt fraction.isLt, Nat.shiftLeft_eq,
    Nat.add_comm]
  rfl

/-- The bits of a number, read one field after the other, are what the arithmetic unpacks. -/
theorem ofFloat_eq (x : Float) : ofFloat x = ofUnpacked x.toModel.unpack := by
  obtain ⟨b, bits⟩ : ∃ b : BitVec 64, b = x.toModel.toBits.toBitVec := ⟨_, rfl⟩
  have number : x.toBits.toNat = b.toNat := by
    rw [bits]
    rfl
  unfold ofFloat Float.Model.unpack UnpackedFloat.unpack
  rw [number, ← bits]
  simp only [beq_iff_eq, ← isNegative_unpackSign]
  by_cases top : b.toNat / fractions % 0x800 = 2047
  · rw [if_pos top, if_pos ((unpackExponent_top b).mpr top)]
    by_cases fraction : b.toNat % fractions = 0
    · rw [if_pos fraction, if_pos ((unpackMantissa_zero b).mpr fraction)]
      rfl
    · rw [if_neg fraction, if_neg (mt (unpackMantissa_zero b).mp fraction)]
      rfl
  rw [if_neg top, if_neg (mt (unpackExponent_top b).mp top)]
  by_cases bottom : b.toNat / fractions % 0x800 = 0
  · rw [if_pos bottom, if_pos ((unpackExponent_bottom b).mpr bottom)]
    by_cases fraction : b.toNat % fractions = 0
    · rw [dif_pos ((unpackMantissa_zero b).mpr fraction), fraction]
      rfl
    · rw [dif_neg (mt (unpackMantissa_zero b).mp fraction)]
      simp only [ofUnpacked, toNat_unpackMantissa, toNat_unpackExponent, bottom]
      rfl
  · rw [if_neg bottom, if_neg (mt (unpackExponent_bottom b).mp bottom)]
    simp only [ofUnpacked, toNat_hidden, toNat_unpackMantissa, toNat_unpackExponent]
    rfl

theorem rounded_unpack (b : BitVec 64) : Rounded (unpack Format.binary64 b) := by
  have fraction : b.toNat % fractions < fractions := Nat.mod_lt _ (by decide)
  have exponent := (@unpackExponent Format.binary64 b).isLt
  rw [toNat_unpackExponent] at exponent
  unfold UnpackedFloat.unpack
  dsimp only
  split
  · split <;> trivial
  next notTop =>
  have notTop := mt (unpackExponent_top b).mpr notTop
  split
  · next bottom =>
    have bottom := (unpackExponent_bottom b).mp bottom
    split
    · trivial
    · next some =>
      have some := mt (unpackMantissa_zero b).mpr some
      simp only [Rounded, toNat_unpackMantissa, toNat_unpackExponent, Format.exponentBias]
      exact ⟨by omega, by omega, by omega, by omega, by omega⟩
  · next notBottom =>
    have notBottom := mt (unpackExponent_bottom b).mpr notBottom
    simp only [Rounded, toNat_hidden, toNat_unpackMantissa, toNat_unpackExponent,
      Format.exponentBias]
    exact ⟨by omega, by omega, by omega, by omega, by omega⟩

section
variable {m : Nat} {e : Int}

theorem Placed.log2_full (placed : Placed m e) (full : fractions ≤ m) : m.log2 = 52 :=
  (Nat.log2_eq_iff placed.pos.ne').mpr ⟨full, placed.high⟩

theorem Placed.log2_short (placed : Placed m e) (short : m < fractions) : m.log2 < 52 :=
  (Nat.log2_lt placed.pos.ne').mpr short

/-- An exponent that rounding leaves is the target for its own mantissa. -/
theorem Placed.targetExponent (placed : Placed m e) :
    Format.binary64.targetExponent (totalExponent m e) = e := by
  have least := placed.least
  simp only [Format.targetExponent, totalExponent, Format.minExponent, Format.mantissaBits]
  by_cases full : fractions ≤ m
  · rw [placed.log2_full full]
    omega
  · have short := placed.log2_short (Nat.lt_of_not_le full)
    have bottom : e = -1074 := placed.full.resolve_left full
    omega

/-- The bits of a number with all its mantissa: the biased exponent above the fraction. -/
theorem Canonical.pack_full (canonical : Canonical m e) (s : Sign) (full : fractions ≤ m) :
    UnpackedFloat.pack Format.binary64 (.finite s m e canonical.pos) =
      packComponents Format.binary64 s (BitVec.ofNat 11 (e + 1075).toNat) (BitVec.ofNat 52 m) := by
  have most := canonical.most
  have least := canonical.least
  unfold UnpackedFloat.pack
  simp only [Format.exponentBias, canonical.placed.log2_full full, Format.mantissaBits]
  rw [if_neg (by omega), if_pos (by trivial)]
  congr 2
  omega

theorem Canonical.pack_short (canonical : Canonical m e) (s : Sign) (short : m < fractions) :
    UnpackedFloat.pack Format.binary64 (.finite s m e canonical.pos) =
      packComponents Format.binary64 s 0#11 (BitVec.ofNat 52 m) := by
  have log := canonical.placed.log2_short short
  have bottom : e = -1074 := canonical.full.resolve_left (Nat.not_le.mpr short)
  unfold UnpackedFloat.pack
  dsimp only
  split
  · next large =>
    simp only [Format.exponentBias] at large
    omega
  split
  · next full =>
    simp only [Format.mantissaBits] at full
    omega
  · rfl

theorem Canonical.unpack_full (canonical : Canonical m e) (s : Sign) (full : fractions ≤ m) :
    unpack Format.binary64 (UnpackedFloat.pack Format.binary64 (.finite s m e canonical.pos)) =
      .finite s m e canonical.pos := by
  have high := canonical.high
  have most := canonical.most
  have least := canonical.least
  have exponent : (BitVec.ofNat 11 (e + 1075).toNat).toNat = (e + 1075).toNat := by
    rw [BitVec.toNat_ofNat, Nat.mod_eq_of_lt (by omega)]
  have notTop : BitVec.ofNat 11 (e + 1075).toNat ≠ -1#11 := fun same => by
    have := congrArg BitVec.toNat same
    rw [exponent, show (-1#11).toNat = 2047 from rfl] at this
    omega
  have notBottom : BitVec.ofNat 11 (e + 1075).toNat ≠ 0#11 := fun same => by
    have := congrArg BitVec.toNat same
    rw [exponent, BitVec.toNat_zero] at this
    omega
  have mantissa : (1#1 ++ BitVec.ofNat 52 m).toNat = m := by
    rw [toNat_hidden, BitVec.toNat_ofNat]
    simp only [fractions] at full high ⊢
    omega
  rw [canonical.pack_full s full]
  unfold UnpackedFloat.unpack
  simp only [unpackMantissa_packComponents, unpackExponent_packComponents,
    unpackSign_packComponents]
  rw [if_neg notTop, if_neg notBottom]
  simp only [exponent, mantissa, Sign.ofBitVec_toBitVec, Format.exponentBias]
  congr 1
  omega

theorem Canonical.unpack_short (canonical : Canonical m e) (s : Sign) (short : m < fractions) :
    unpack Format.binary64 (UnpackedFloat.pack Format.binary64 (.finite s m e canonical.pos)) =
      .finite s m e canonical.pos := by
  have bottom : e = -1074 := canonical.full.resolve_left (Nat.not_le.mpr short)
  have fraction : (BitVec.ofNat 52 m).toNat = m := by
    rw [BitVec.toNat_ofNat]
    exact Nat.mod_eq_of_lt short
  have nonzero : BitVec.ofNat 52 m ≠ 0#52 := fun zero => by
    have := congrArg BitVec.toNat zero
    rw [fraction, BitVec.toNat_zero] at this
    exact canonical.pos.ne' this
  rw [canonical.pack_short s short]
  unfold UnpackedFloat.unpack
  simp only [unpackMantissa_packComponents, unpackExponent_packComponents,
    unpackSign_packComponents]
  rw [if_neg (by decide), if_pos trivial, dif_neg nonzero]
  simp only [fraction, Sign.ofBitVec_toBitVec, Format.exponentBias, bottom]
  rfl

end

/-- Packing what rounding leaves loses nothing. -/
theorem unpack_pack {u : UnpackedFloat} (rounded : Rounded u) :
    unpack Format.binary64 (UnpackedFloat.pack Format.binary64 u) = u := by
  cases u with
  | notANumber => rfl
  | infinity s => cases s <;> rfl
  | zero s => cases s <;> rfl
  | finite s m e pos =>
    have canonical : Canonical m e := rounded
    rcases Nat.lt_or_ge m fractions with short | full
    · exact canonical.unpack_short s short
    · exact canonical.unpack_full s full

/-- The fields of a finite pattern: its sign, and below it exponent and fraction. -/
theorem bits_of_ofFloat {x : Float} {negative : Bool} {m : Nat} {e : Int}
    (pattern : ofFloat x = .finite negative m e) :
    x.toBits.toNat = negative.toNat * (0x800 * fractions) +
      if m < fractions then m else (e + 1075).toNat * fractions + (m - fractions) := by
  have bound : x.toBits.toNat < 2 * (0x800 * fractions) := x.toBits.toNat_lt
  have fraction : x.toBits.toNat % fractions < fractions := Nat.mod_lt _ (by decide)
  have sign : (x.toBits.toNat / (0x800 * fractions) == 1).toNat =
      x.toBits.toNat / (0x800 * fractions) := by
    have small : x.toBits.toNat / (0x800 * fractions) < 2 := Nat.div_lt_of_lt_mul (by omega)
    rcases Nat.lt_succ_iff_lt_or_eq.mp small with below | one
    · rw [Nat.lt_one_iff.mp below]
      rfl
    · rw [one]
      rfl
  unfold ofFloat at pattern
  dsimp only at pattern
  split at pattern
  · split at pattern <;> cases pattern
  split at pattern
  · next bottom =>
    obtain ⟨rfl, rfl, _⟩ := Binary64.finite.inj pattern
    rw [beq_iff_eq] at bottom
    rw [if_pos fraction, sign]
    simp only [fractions] at bottom ⊢
    omega
  · next bottom =>
    obtain ⟨rfl, rfl, rfl⟩ := Binary64.finite.inj pattern
    rw [if_neg (by omega), sign]
    simp only [fractions, Int.ofNat_eq_natCast] at bottom ⊢
    omega

theorem eq_of_toBits {x y : Float} (bits : x.toBits = y.toBits) : x = y := by
  obtain ⟨⟨x, _⟩⟩ := x
  obtain ⟨⟨y, _⟩⟩ := y
  cases (show x = y from bits)
  rfl

/-- A finite pattern belongs to one number. -/
theorem eq_of_ofFloat {x y : Float} {negative : Bool} {m : Nat} {e : Int}
    (first : ofFloat x = .finite negative m e) (second : ofFloat y = .finite negative m e) :
    x = y :=
  eq_of_toBits (UInt64.toNat.inj ((bits_of_ofFloat first).trans (bits_of_ofFloat second).symm))

/-- Two numbers have no mantissa. -/
theorem zero_of_ofFloat {x : Float} {negative : Bool} {e : Int}
    (pattern : ofFloat x = .finite negative 0 e) : x = if negative then -0.0 else 0 := by
  refine eq_of_toBits (UInt64.toNat.inj ((bits_of_ofFloat pattern).trans ?_))
  rw [if_pos (by decide)]
  cases negative <;> decide +kernel

end Binary64
end ProgramGym
