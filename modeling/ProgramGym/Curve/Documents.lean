import ProgramGym.Curve
import ProgramGym.Fault

/-! Figures of learning curves that are given as documents, with values of any kind. Values that
are added up count as numbers, and texts among them are joined. -/
namespace ProgramGym.Curve.Documents
open Json

/-- The values of a list, which nothing else has. -/
def values : Option Json → Except Fault (List Json)
  | some (.array items) => .ok items
  | _ => .error .wrongKind

/-- The values of a list, or of a value that has no elements at all. -/
def valuesOrNone : Option Json → Except Fault (List Json)
  | none | some .null => .error .wrongKind
  | some j => if (j.elements?.getD []).isEmpty then .ok [] else values (some j)

/-- For every index the mean of the window that ends there. -/
def rollingAverage (curve : Option Json) (window : Quantity Float) : Except Fault (List Float) := do
  let xs := (← valuesOrNone curve).map some
  pure ((List.range xs.length).map fun i =>
    let first := start window i
    mean ((xs.drop first).take (i + 1 - first)))

def areaFrom (area : Float) : List Json → Float
  | a :: b :: rest => areaFrom (area + (add (some a) (some b)).toNumber / 2) (b :: rest)
  | _ => area

/-- Trapezoids of width one. -/
def area (curve : Option Json) : Except Fault Float :=
  match curve with
  | none | some .null => .error .wrongKind
  | some j => .ok (areaFrom 0 (j.elements?.getD []))

/-- The values of every curve. Only a list of lists has them; the empty text holds no curves. -/
def curves : Option Json → Except Fault (List (List Json))
  | some (.array items) => items.mapM fun c => values (some c)
  | some (.text t) => if t.isEmpty then .ok [] else .error .wrongKind
  | _ => .error .wrongKind

def episodesToThreshold (threshold : Json) (curve : List Json) : Nat :=
  match curve.findIdx? (atLeast · threshold) with
  | some i => i + 1
  | none => curve.length

def efficiency (given : Option Json) (threshold : Json) : Except Fault (Efficiency Float) := do
  let curves ← curves given
  if curves.isEmpty then pure ⟨0, 0, 0⟩
  else
    let episodes := Scalar.mean (curves.map fun c => Float.ofNat (episodesToThreshold threshold c))
    pure
      { meanArea := Scalar.mean (curves.map (areaFrom 0))
        meanEpisodesToThreshold := episodes
        convergenceRate := if episodes > 0 then 1 / episodes else 0 }

end ProgramGym.Curve.Documents
