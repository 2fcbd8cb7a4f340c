import ProgramGym.Scalar

/-! Sources of random numbers. A seeded source is a counter that advances by a fixed odd step
and a mixing function of it; a listed source repeats given values. Both count their draws. -/
namespace ProgramGym

inductive Stream (α : Type) where
  | seeded (counter : UInt32)
  | listed (values : List α) (position : Nat)

structure Source (α : Type) where
  stream : Stream α
  draws : Nat

namespace Source

/-- The number of states of a counter, 2^32. -/
def counters : Nat := 0x100000000

def increment : UInt32 := 0x6d2b79f5

/-- Scrambles a counter into a draw. -/
def mix (t : UInt32) : UInt32 :=
  let r := (t ^^^ (t >>> 15)) * (1 ||| t)
  let r := r ^^^ (r + (r ^^^ (r >>> 7)) * (61 ||| r))
  r ^^^ (r >>> 14)

variable {α : Type}

def ofSeed (seed : UInt32) : Source α := ⟨.seeded seed, 0⟩

def ofList (values : List α) : Source α := ⟨.listed values 0, 0⟩

/-- The draws after which a stream repeats itself, at least one. -/
def period (s : Source α) : Nat :=
  match s.stream with
  | .seeded _ => counters
  | .listed values _ => max 1 values.length

variable [Scalar α]

/-- A draw of a seeded source is a fraction of 2^32, so it is at least 0 and below 1. -/
@[specialize] def next (s : Source α) : α × Source α :=
  match s.stream with
  | .seeded counter =>
    let counter := counter + increment
    (Scalar.nat (mix counter).toNat / Scalar.nat counters, ⟨.seeded counter, s.draws + 1⟩)
  | .listed values position =>
    (values.getD position Scalar.absent,
      ⟨.listed values (if position + 1 < values.length then position + 1 else 0), s.draws + 1⟩)

/-- The first draw that is not zero, within a number of draws. -/
@[specialize] def nextNonzero : (fuel : Nat) → Source α → α × Source α
  | 0, s => (Scalar.nat 0, s)
  | fuel + 1, s =>
    let (u, s) := s.next
    if Scalar.eq u (Scalar.nat 0) then nextNonzero fuel s else (u, s)

/-- A standard normal draw from two uniform ones, the first of them not zero. A stream with a
draw that is not zero has one within its period. -/
@[specialize] def nextNormal (s : Source α) : α × Source α :=
  let (u, s) := nextNonzero s.period s
  let (v, s) := s.next
  (Scalar.sqrt (-Scalar.nat 2 * Scalar.log u) * Scalar.cos (Scalar.nat 2 * Scalar.pi * v), s)

/-- The whole number below a bound that a uniform draw selects. -/
def select (bound draw : α) : α :=
  Scalar.min (bound - Scalar.nat 1) (Scalar.floor (draw * bound))

@[specialize] def nextBelow (bound : α) (s : Source α) : α × Source α :=
  let (u, s) := s.next
  (select bound u, s)

/-- So many draws of one kind, one after the other. -/
@[specialize] def many {β : Type} (draw : Source α → β × Source α) :
    (count : Nat) → Source α → List β × Source α
  | 0, s => ([], s)
  | count + 1, s =>
    let (x, s) := draw s
    let (xs, s) := many draw count s
    (x :: xs, s)

@[specialize] def nextNormals (count : Nat) (s : Source α) : List α × Source α :=
  s.many nextNormal count

end Source
end ProgramGym
