import ProgramGym.Quantity

/-! Learning curves: windows over the latest values, rolling means, the area under a curve and
how soon curves reach a threshold. A window may be any number: its fraction is cut off. -/
namespace ProgramGym.Curve

/-- How many values in front a window over the last so many leaves out. A window of zero, or of
what is no number, leaves out none, and a negative one leaves out that many. -/
def skipped (window : Quantity Float) (length : Nat) : Nat :=
  match window with
  | .foreign _ => 0
  | .count 0 => 0
  | .count n => length - n
  | .other x =>
    match (Binary64.ofFloat x).truncate? with
    | some (.ofNat 0) => 0
    | some (.ofNat n) => length - n
    | some (.negSucc n) => min (n + 1) length
    | none => if x < 0 then length else 0

/-- The last values. -/
def latest {β : Type} (window : Quantity Float) (xs : List β) : List β :=
  xs.drop (skipped window xs.length)

/-- Where the window that ends with an index begins. -/
def start (window : Quantity Float) (index : Nat) : Nat :=
  match window with
  | .foreign _ => 0
  | .count n => index + 1 - n
  | .other x =>
    let first := Float.ofNat index - x + 1
    match (Binary64.ofFloat first).truncate? with
    | some (.ofNat n) => n
    | some (.negSucc _) => 0
    | none => if 0 < first then index + 1 else 0

variable {α : Type} [Scalar α]

/-- For every index the mean of the window that ends there; an empty window has mean zero. -/
@[specialize] def rollingAverage (values : List α) (window : Quantity Float) : List α :=
  (List.range values.length).map fun i =>
    let first := start window i
    Scalar.mean ((values.drop first).take (i + 1 - first))

/-- Trapezoids of width one. -/
@[specialize] def areaFrom (area : α) : List α → α
  | a :: b :: rest => areaFrom (area + (a + b) / Scalar.nat 2) (b :: rest)
  | _ => area

@[specialize] def area (curve : List α) : α := areaFrom (Scalar.nat 0) curve

structure Efficiency (α : Type) where
  meanArea : α
  meanEpisodesToThreshold : α
  convergenceRate : α

/-- Episodes until a curve first reaches the threshold, or all of them. -/
@[specialize] def episodesToThreshold (threshold : α) (curve : List α) : Nat :=
  match curve.findIdx? (Scalar.le threshold) with
  | some i => i + 1
  | none => curve.length

@[specialize] def efficiency (curves : List (List α)) (threshold : α) : Efficiency α :=
  if curves.isEmpty then ⟨Scalar.nat 0, Scalar.nat 0, Scalar.nat 0⟩
  else
    let episodes := Scalar.mean (curves.map fun c => Scalar.nat (episodesToThreshold threshold c))
    { meanArea := Scalar.mean (curves.map area)
      meanEpisodesToThreshold := episodes
      convergenceRate :=
        if Scalar.lt (Scalar.nat 0) episodes then Scalar.nat 1 / episodes else Scalar.nat 0 }

end ProgramGym.Curve
