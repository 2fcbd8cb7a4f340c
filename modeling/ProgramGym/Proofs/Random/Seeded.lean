import Mathlib
import ProgramGym.Proofs.Agent.Choosing
import ProgramGym.Proofs.Decimal.Integers
import ProgramGym.Proofs.Decimal.Values

/-! Seeded sources. The increment is odd, so that the counter goes through all its 2^32 values
before the first of them comes back. Main statement: the counter and its draws are known after
every number of draws, and the search for a draw that is not zero always ends, for some counter
gives one and every counter comes up. -/
namespace ProgramGym
open Binary64

namespace Source

section
variable {α : Type} [Scalar α]

/-- The draws to come, in turn. -/
def draw (s : Source α) (n : Nat) : α := (skip n s).next.1

theorem skip_add (m n : Nat) (s : Source α) : skip (m + n) s = skip n (skip m s) := by
  induction m generalizing s with
  | zero => rw [Nat.zero_add, skip]
  | succ m ih => rw [Nat.succ_add, skip, ih, skip]

theorem draw_skip (m n : Nat) (s : Source α) : (skip m s).draw n = s.draw (m + n) := by
  rw [draw, draw, skip_add]

/-- The search stops at the first draw that is not zero, if that is within the bound. -/
theorem nextNonzero_first {s : Source α} {fuel k : Nat} (bound : k < fuel)
    (zeros : ∀ j < k, Scalar.eq (s.draw j) (Scalar.nat 0) = true)
    (nonzero : Scalar.eq (s.draw k) (Scalar.nat 0) = false) :
    nextNonzero fuel s = (s.draw k, skip (k + 1) s) := by
  induction k generalizing s fuel with
  | zero =>
    obtain ⟨fuel, rfl⟩ := Nat.exists_eq_succ_of_ne_zero bound.ne'
    have first : Scalar.eq s.next.1 (Scalar.nat 0) = false := nonzero
    rw [nextNonzero]
    simp only [first, Bool.false_eq_true, if_false]
    rfl
  | succ k ih =>
    obtain ⟨fuel, rfl⟩ := Nat.exists_eq_succ_of_ne_zero (Nat.zero_lt_of_lt bound).ne'
    have first : Scalar.eq s.next.1 (Scalar.nat 0) = true := zeros 0 k.succ_pos
    have found := ih (s := s.next.2) (Nat.lt_of_succ_lt_succ bound)
      (fun j below => zeros (j + 1) (Nat.succ_lt_succ below)) nonzero
    rw [nextNonzero]
    simp only [first, if_true, found]
    rfl

/-- What a normal draw makes of two uniform ones. -/
def normal (u v : α) : α :=
  Scalar.sqrt (-Scalar.nat 2 * Scalar.log u) * Scalar.cos (Scalar.nat 2 * Scalar.pi * v)

/-- A normal draw takes the first draw that is not zero and the one behind it. -/
theorem nextNormal_first {s : Source α} {k : Nat} (bound : k < s.period)
    (zeros : ∀ j < k, Scalar.eq (s.draw j) (Scalar.nat 0) = true)
    (nonzero : Scalar.eq (s.draw k) (Scalar.nat 0) = false) :
    s.nextNormal = (normal (s.draw k) (s.draw (k + 1)), skip (k + 2) s) := by
  rw [nextNormal, nextNonzero_first bound zeros nonzero, skip_add (k + 1) 1 s]
  rfl

end

/-! The counter. -/

section
open scoped UInt32.CommRing
variable {α : Type} [Scalar α] (c : UInt32) (n d : Nat)

/-- The counter after a number of draws. -/
def counterAfter : UInt32 := c + UInt32.ofNat n * increment

theorem toNat_counterAfter :
    (counterAfter c n).toNat = (c.toNat + n * increment.toNat) % 2 ^ 32 := by
  rw [counterAfter, UInt32.toNat_add, UInt32.toNat_mul, UInt32.toNat_ofNat', Nat.mod_mul_mod,
    Nat.add_mod_mod]

theorem counterAfter_succ : counterAfter c (n + 1) = counterAfter (c + increment) n := by
  have one : UInt32.ofNat (n + 1) = UInt32.ofNat n + 1 := UInt32.ofNat_add n 1
  rw [counterAfter, counterAfter, one]
  ring

theorem skip_seeded :
    skip n (⟨.seeded c, d⟩ : Source α) = ⟨.seeded (counterAfter c n), d + n⟩ := by
  induction n generalizing c d with
  | zero =>
    have none : counterAfter c 0 = c := UInt32.toNat_inj.mp (by simp [toNat_counterAfter])
    rw [skip, none, Nat.add_zero]
  | succ n ih =>
    have first : (⟨.seeded c, d⟩ : Source α).next.2 = ⟨.seeded (c + increment), d + 1⟩ := rfl
    rw [skip, first, ih, counterAfter_succ, Nat.add_assoc, Nat.add_comm 1]

/-- A draw is the scrambled counter as a fraction of 2^32. -/
theorem draw_seeded : (⟨.seeded c, d⟩ : Source α).draw n =
    Scalar.nat (mix (counterAfter c (n + 1))).toNat / Scalar.nat counters := by
  have last : counterAfter c (n + 1) = counterAfter c n + increment := by
    have one : UInt32.ofNat (n + 1) = UInt32.ofNat n + 1 := UInt32.ofNat_add n 1
    rw [counterAfter, counterAfter, one]
    ring
  rw [draw, skip_seeded, last]
  rfl

/-- The increment is odd, so it has an inverse: one number of draws below 2^32 leads from a counter
to another. -/
theorem counterAfter_eq_iff (target : UInt32) : counterAfter c n = target ↔
    UInt32.ofNat n = (target - c) * 0xdc58aa5d := by
  have unit : increment * 0xdc58aa5d = 1 := by decide
  rw [counterAfter]
  constructor
  · rintro rfl
    rw [add_sub_cancel_left, mul_assoc, unit, mul_one]
  · intro steps
    rw [steps, mul_assoc, mul_comm 0xdc58aa5d, unit, mul_one, add_sub_cancel]

theorem counterAfter_inj (m : Nat) :
    counterAfter c m = counterAfter c n ↔ m ≡ n [MOD 2 ^ 32] := by
  rw [counterAfter_eq_iff, ← (counterAfter_eq_iff c n _).mp rfl, ← UInt32.toNat_inj,
    UInt32.toNat_ofNat', UInt32.toNat_ofNat']
  rfl

theorem existsUnique_counterAfter (target : UInt32) :
    ∃! n, n < 2 ^ 32 ∧ counterAfter c n = target := by
  have reached : counterAfter c ((target - c) * 0xdc58aa5d).toNat = target := by
    rw [counterAfter_eq_iff, UInt32.ofNat_toNat]
  refine ⟨_, ⟨UInt32.toNat_lt _, reached⟩, ?_⟩
  rintro n ⟨below, same⟩
  have equal := (counterAfter_inj c _ n).mp (same.trans reached.symm)
  exact Nat.ModEq.eq_of_lt_of_lt equal below (UInt32.toNat_lt _)

end

/-! Draws as binary64 numbers. -/

section
variable (c : UInt32) (n d : Nat)

theorem worth_fraction {n : Nat} (below : n < counters) :
    Worth (Float.ofNat n / Float.ofNat counters) (n / counters) := by
  rcases Nat.eq_zero_or_pos n with rfl | pos
  · rw [Nat.cast_zero, zero_div]
    refine .zero .positive (unpack_of_toNat?_zero ?_)
    decide +kernel
  · obtain ⟨m, e, canonical, unpacked, quotient⟩ := unpack_fraction pos below
    exact quotient ▸ .finite canonical unpacked

theorem worth_draw : Worth ((⟨.seeded c, d⟩ : Source Float).draw n)
    ((mix (counterAfter c (n + 1))).toNat / counters) := by
  rw [draw_seeded]
  exact worth_fraction (UInt32.toNat_lt _)

theorem eq_zero_iff {x : Float} {v : ℚ} (worth : Worth x v) :
    Scalar.eq x (Scalar.nat 0) = true ↔ v = 0 := by
  have zero : Worth (Float.ofNat 0) 0 := worth_zero
  change (x == Float.ofNat 0) = true ↔ v = 0
  rw [beq_iff_compare, worth.compare_eq zero, Option.some_inj, compare_eq_iff_eq]

theorem draw_eq_zero_iff :
    Scalar.eq ((⟨.seeded c, d⟩ : Source Float).draw n) (Scalar.nat 0) = true ↔
      mix (counterAfter c (n + 1)) = 0 := by
  have divisor : (counters : ℚ) ≠ 0 := by norm_num [counters]
  rw [eq_zero_iff (worth_draw c n d), div_eq_zero_iff, or_iff_left divisor, Nat.cast_eq_zero,
    ← UInt32.toNat_inj]
  rfl

/-- The counter 1 gives a draw that is not zero, and it comes up within one round. -/
theorem exists_draw_ne_zero : ∃ k < 2 ^ 32,
    Scalar.eq ((⟨.seeded c, d⟩ : Source Float).draw k) (Scalar.nat 0) = false := by
  obtain ⟨k, ⟨below, reached⟩, _⟩ := existsUnique_counterAfter (c + increment) 1
  refine ⟨k, below, ?_⟩
  rw [← Bool.not_eq_true, draw_eq_zero_iff, counterAfter_succ, reached]
  decide

end

/-- Fewer than 2^32 draws of zero come one after the other. -/
theorem exists_first_nonzero (c : UInt32) (d : Nat) : ∃ k < 2 ^ 32,
    (∀ j < k, Scalar.eq ((⟨.seeded c, d⟩ : Source Float).draw j) (Scalar.nat 0) = true) ∧
      Scalar.eq ((⟨.seeded c, d⟩ : Source Float).draw k) (Scalar.nat 0) = false := by
  have some := exists_draw_ne_zero c d
  obtain ⟨below, nonzero⟩ := Nat.find_spec some
  refine ⟨Nat.find some, below, fun j earlier => ?_, nonzero⟩
  by_contra other
  exact Nat.find_min some earlier ⟨earlier.trans below, Bool.not_eq_true _ ▸ other⟩

/-- A source that is seeded with an integer. After every number of draws the counter is the seed
plus so many increments modulo 2^32, so that within 2^32 draws every counter comes up once, and one
comes back after 2^32 more. Every draw is a fraction of 2^32. From everywhere, the search of a
normal draw meets a draw that is not zero, and goes on from there. -/
theorem seeded_full_period (seed : Float) (z : ℤ) (whole : Number.Exactly seed z) :
    let s : Source Float := .ofSeed (Number.toWord seed)
    (∀ n : Nat, ∃ c : UInt32, (skip n s).stream = .seeded c ∧
      (c.toNat : ℤ) = (z + n * 0x6d2b79f5) % 2 ^ 32) ∧
    (∀ c : UInt32, ∃! n, n < 2 ^ 32 ∧ (skip n s).stream = .seeded c) ∧
    (∀ m n, (skip m s).stream = (skip n s).stream ↔ m ≡ n [MOD 2 ^ 32]) ∧
    (∀ n, ∃ k < 2 ^ 32, Worth (s.draw n) ((k : ℕ) / 2 ^ 32)) ∧
    ∀ n, ∃ k < 2 ^ 32, (∀ j < k, Scalar.eq (s.draw (n + j)) (Scalar.nat 0) = true) ∧
      Scalar.eq (s.draw (n + k)) (Scalar.nat 0) = false ∧
      (skip n s).nextNormal =
        (normal (s.draw (n + k)) (s.draw (n + k + 1)), skip (n + k + 2) s) := by
  intro s
  obtain ⟨c, word⟩ : ∃ c, Number.toWord seed = c := ⟨_, rfl⟩
  have remainder := Number.toNat_toWord whole
  rw [word] at remainder
  have start : s = ⟨.seeded c, 0⟩ := by rw [← word]; rfl
  have stream (n : Nat) : (skip n s).stream = .seeded (counterAfter c n) := by
    rw [start, skip_seeded]
  simp only [stream, Stream.seeded.injEq]
  refine ⟨fun n => ⟨_, rfl, ?_⟩, existsUnique_counterAfter c, fun m n => counterAfter_inj c n m,
    fun n => ?_, fun n => ?_⟩
  · have counter := toNat_counterAfter c n
    rw [show increment.toNat = 0x6d2b79f5 from rfl] at counter
    omega
  · have scale : (counters : ℚ) = 2 ^ 32 := by norm_num [counters]
    refine ⟨(mix (counterAfter c (n + 1))).toNat, UInt32.toNat_lt _, ?_⟩
    rw [start]
    exact scale ▸ worth_draw c n 0
  · have here : skip n s = ⟨.seeded (counterAfter c n), 0 + n⟩ := by rw [start, skip_seeded]
    obtain ⟨k, below, zeros, nonzero⟩ := exists_first_nonzero (counterAfter c n) (0 + n)
    rw [← here] at zeros nonzero
    have found := nextNormal_first (s := skip n s) (k := k) (here ▸ below) zeros nonzero
    simp only [draw_skip, ← skip_add] at zeros nonzero found
    exact ⟨k, below, zeros, nonzero, found⟩

/-- The negative seed from which the first counter is zero: its first draw is zero, so that a
normal draw begins later. -/
theorem seeded_full_period_zero : Number.Exactly (-1831565813) (-1831565813 : ℤ) ∧
    let s : Source Float := .ofSeed (Number.toWord (-1831565813))
    Scalar.eq (s.draw 0) (Scalar.nat 0) = true ∧
    ∃ k < 2 ^ 32, (∀ j < k, Scalar.eq (s.draw (0 + j)) (Scalar.nat 0) = true) ∧
      Scalar.eq (s.draw (0 + k)) (Scalar.nat 0) = false ∧
      s.nextNormal = (normal (s.draw (0 + k)) (s.draw (0 + k + 1)), skip (0 + k + 2) s) := by
  have whole : Number.Exactly (-1831565813) (-1831565813 : ℤ) := by
    refine ⟨true, 0x1b4ade7d400000, -22, by decide +kernel, ?_⟩
    norm_num [signed]
  have first : Number.toWord (-1831565813) = 0x92d4860b := by decide +kernel
  refine ⟨whole, ?_, (seeded_full_period (-1831565813) (-1831565813) whole).2.2.2.2 0⟩
  rw [ofSeed, first, draw_eq_zero_iff]
  decide

end Source
end ProgramGym
