import ProgramGym.Linear.Reader

/-! Choices and returns over values that are given as documents, with entries of any kind. An
entry counts as the number it can be read as; texts are compared unit by unit, and joined when
they are added up. -/
namespace ProgramGym.Linear.Documents
open Json

/-- A value that is gone through by its entries; null is none. -/
structure Entries where
  value : Json
  entries : List Json

def Entries.ofJson : Option Json → Except Fault Entries
  | none | some .null => .error .wrongKind
  | some j => .ok ⟨j, j.elements?.getD []⟩

def argmaxFrom (best : Nat) (value : Json) : (index : Nat) → List Json → Nat
  | _, [] => best
  | index, x :: xs =>
    if precedes value x then argmaxFrom index x (index + 1) xs
    else argmaxFrom best value (index + 1) xs

/-- The least index of a largest entry; 0 where there are none. -/
def argmax (values : Entries) : Nat :=
  match values.entries with
  | [] => 0
  | x :: xs => argmaxFrom 0 x 1 xs

/-- Only a list has probabilities. -/
def softmax (logits : Option Json) (temperature : Float) : Except Fault (List Float) :=
  match logits with
  | some (.array items) => .ok (Linear.softmax (items.map toNumber) temperature)
  | _ => .error .wrongKind

def sampleFrom (draw : Float) : (index : Nat) → (cumulative : Json) → List Json → Option Nat
  | _, _, [] => none
  | index, cumulative, p :: ps =>
    let cumulative := add (some cumulative) (some p)
    if draw < cumulative.toNumber then some index else sampleFrom draw (index + 1) cumulative ps

/-- The index that a draw falls on, or the one before the count of the entries. -/
def sample (probabilities : Entries) (draw : Float) : Float :=
  match sampleFrom draw 0 (.number 0) probabilities.entries with
  | some i => Float.ofNat i
  | none => probabilities.value.count - 1

/-- With probability epsilon a uniform choice below the count of the entries, else the greedy
one. -/
def epsilonGreedy (values : Entries) (epsilon : Float) (s : Source Float) :
    Quantity Float × Source Float :=
  let greedy : Quantity Float := .count (argmax values)
  if epsilon > 0 then
    let (u, s) := s.next
    if u < epsilon then
      let (x, s) := s.nextBelow values.value.count
      (.ofScalar x, s)
    else (greedy, s)
  else (greedy, s)

/-- Every reward with the discounted return of the next added to it. -/
def returnsFrom (gamma : Float) : List Json → List Json
  | [] => []
  | r :: rs =>
    let returns := returnsFrom gamma rs
    let next := (returns.head?.map toNumber).getD 0
    add (some r) (some (.number (gamma * next))) :: returns

/-- The returns of an episode. What has no length stands for a single return that is not gone
through. -/
def discountedReturns (gamma : Float) (rewards : Entries) : List Json :=
  if rewards.value.elements?.isNone && (rewards.value.get? "length").isNone then [.number 0]
  else returnsFrom gamma rewards.entries

end ProgramGym.Linear.Documents
