import ProgramGym.Quantity
import ProgramGym.Random

/-! Linear learners' arithmetic: dot products, greedy and random choice, probabilities from
logits, returns of an episode, weight matrices. Sums are added from the front. -/
namespace ProgramGym.Linear
variable {α : Type} [Scalar α]

/-- A missing coordinate of the second vector stands as absent. -/
@[specialize] def dotFrom (sum : α) : List α → List α → α
  | [], _ => sum
  | x :: xs, [] => dotFrom (sum + x * Scalar.absent) xs []
  | x :: xs, y :: ys => dotFrom (sum + x * y) xs ys

@[specialize] def dot (xs ys : List α) : α := dotFrom (Scalar.nat 0) xs ys

/-- The best index so far and its value against the values from the next index on. -/
@[specialize] def argmaxFrom (best : Nat) (value : α) : (index : Nat) → List α → Nat
  | _, [] => best
  | index, x :: xs =>
    if Scalar.lt value x then argmaxFrom index x (index + 1) xs
    else argmaxFrom best value (index + 1) xs

/-- The least index of a largest value; 0 for no values. -/
@[specialize] def argmax : List α → Nat
  | [] => 0
  | x :: xs => argmaxFrom 0 x 1 xs

@[specialize] def softmax (logits : List α) (temperature : α) : List α :=
  let largest := Scalar.maximum logits
  let powers := logits.map fun v => Scalar.exp ((v - largest) / temperature)
  let total := Scalar.sum powers
  powers.map (· / total)

@[specialize] def sampleFrom (draw : α) : (index : Nat) → (cumulative : α) → List α → Option Nat
  | _, _, [] => none
  | index, cumulative, p :: ps =>
    let cumulative := cumulative + p
    if Scalar.lt draw cumulative then some index else sampleFrom draw (index + 1) cumulative ps

/-- The first index whose cumulative probability exceeds the draw, or the last index when
rounding left the sum too small. There is none among no probabilities. -/
@[specialize] def sample? (probabilities : List α) (draw : α) : Option Nat :=
  match sampleFrom draw 0 (Scalar.nat 0) probabilities with
  | some i => some i
  | none => if probabilities.isEmpty then none else some (probabilities.length - 1)

@[specialize] def clip (x bound : α) : α := Scalar.max (-bound) (Scalar.min bound x)

/-- With probability epsilon a uniform choice, which draws a second time, else the greedy one. -/
@[specialize] def epsilonGreedy (values : List α) (epsilon : α) (s : Source α) :
    Quantity α × Source α :=
  if Scalar.lt (Scalar.nat 0) epsilon then
    let (u, s) := s.next
    if Scalar.lt u epsilon then
      let (x, s) := s.nextBelow (Scalar.nat values.length)
      (.ofScalar x, s)
    else (.count (argmax values), s)
  else (.count (argmax values), s)

/-- The return of a step is its reward plus the discounted return of the next. -/
@[specialize] def discountedReturns (gamma : α) : List α → List α
  | [] => []
  | r :: rs =>
    let returns := discountedReturns gamma rs
    (r + gamma * returns.headD (Scalar.nat 0)) :: returns

/-- Rows of zeros, or of normal draws times the scale when it is above zero. -/
@[specialize] def initialRow (columns : Nat) (scale : α) (s : Source α) : List α × Source α :=
  if Scalar.lt (Scalar.nat 0) scale then
    let (xs, s) := s.nextNormals columns
    (xs.map (· * scale), s)
  else (List.replicate columns (Scalar.nat 0), s)

@[specialize] def initialMatrix : (rows columns : Nat) → (scale : α) → Source α →
    List (List α) × Source α
  | 0, _, _, s => ([], s)
  | rows + 1, columns, scale, s =>
    let (row, s) := initialRow columns scale s
    let (matrix, s) := initialMatrix rows columns scale s
    (row :: matrix, s)

/-- A row plus a multiple of another. -/
@[specialize] def addScaled (row : List α) (factor : α) (direction : List α) : List α :=
  List.zipWith (fun w x => w + factor * x) row direction

end ProgramGym.Linear
