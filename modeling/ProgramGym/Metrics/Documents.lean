import ProgramGym.Json.Wording
import ProgramGym.Metrics.Printer

/-! Figures over records and metrics that are given as documents, with members of any kind. A
member counts as the number it can be read as; texts that are added up are joined. A document
that is no object, a list that is missing and a figure that is to be printed and is no number
are of the wrong kind. -/
namespace ProgramGym.Metrics.Documents

/-- Members by name of a value that has members at all. -/
def field (j : Json) (name : Text) : Except Fault (Option Json) :=
  if j.isNull then .error .wrongKind else .ok (j.get? name)

def variance (values : List (Option Json)) : Float :=
  if values.isEmpty then 0 else
    let m := Json.mean values
    values.foldl (fun s v => s + Scalar.square (Json.numberOf v - m)) 0 / Float.ofNat values.length

/-- The name that no count can be kept under. -/
def reservedName : Text := "__proto__"

/-- One more under a name; a name that is not counted yet has no number. -/
def count (counts : Json.Members Float) (name : Text) : Json.Members Float :=
  if name == reservedName then counts
  else counts.put name (((counts.get? name).map (· + 1)).getD Number.absent)

/-- The endings that hold, by their wordings, beside those that are always counted. -/
def outcomes (reasons : List (Option Json)) : Json.Members Float :=
  ((reasons.filter Json.holdsOf).map Json.wordOf).foldl count
    (TerminalReason.all.map fun r => (r.name, 0))

/-- Different values in the order of their first appearance, until there are enough. -/
def samples (limit : Float) : (found : List (Option Json)) → List (Option Json) →
    List (Option Json)
  | found, [] => found
  | found, program :: rest =>
    if limit ≤ Float.ofNat found.length then found
    else samples limit (if found.any (Json.alike program) then found else found ++ [program]) rest

def column (records : List Json) (name : Text) : Except Fault (List (Option Json)) :=
  records.mapM (field · name)

/-- The metrics of a list of records; a limit that is left out is the usual one. -/
def compute (episodes limit : Option Json) : Except Fault Json :=
  match episodes with
  | some (.array records) => do
    let rewards ← column records "totalReward"
    let lengths ← column records "steps"
    let reasons ← column records "terminalReason"
    let programs ← column records "program"
    let successes ← column records "success"
    let limit := (limit.map Json.toNumber).getD sampleLimit.toScalar
    let n := Float.ofNat records.length
    pure (.object
      [("numEpisodes", .number n),
       ("successRate", .number (if records.isEmpty then 0
          else Float.ofNat (successes.filter Json.holdsOf).length / n)),
       ("meanReward", .number (Json.mean rewards)), ("rewardVariance", .number (variance rewards)),
       ("stdReward", .number (variance rewards).sqrt), ("meanLength", .number (Json.mean lengths)),
       ("stdLength", .number (variance lengths).sqrt),
       ("outcomes", .object ((Json.Members.ofEntries (outcomes reasons)).map fun (name, x) =>
         (name, .number x))),
       ("samplePrograms", .array ((samples limit [] programs).map (·.getD .null)))])
  | _ => .error .wrongKind

/-- Only a number has decimal places. -/
def fixed (j : Json) (name : Text) (places : Nat) : Except Fault String := do
  match ← field j name with
  | some (.number x) => pure (Number.fixedText x places)
  | _ => throw .wrongKind

def outcomesText (counts : Json) : String :=
  let parts := TerminalReason.all.filterMap fun r =>
    let n := counts.get? r.name
    if Json.numberOf n > 0 then some (r.name ++ "=" ++ Json.wording n) else none
  if parts.isEmpty then "none" else ", ".intercalate parts

/-- The report of metrics. -/
def text (metrics : Option Json) : Except Fault String := do
  let m := metrics.getD .null
  match ← field m "outcomes" with
  | none | some .null => throw .wrongKind
  | some counts =>
    let episodes := Json.wording (← field m "numEpisodes")
    let success := Number.percent (Json.numberOf (← field m "successRate"))
    let reward ← fixed m "meanReward" 3
    let deviation ← fixed m "stdReward" 3
    let length ← fixed m "meanLength" 1
    pure ("\n".intercalate
      ["Episodes: " ++ episodes, "Success Rate: " ++ success,
       "Mean Reward: " ++ reward ++ " ± " ++ deviation, "Mean Length: " ++ length ++ " steps",
       "Outcomes: " ++ outcomesText counts])

/-- The change between two figures; only the number zero counts as none. -/
def improvement (baseline learned : Option Json) : Float :=
  let b := Json.numberOf baseline
  let l := Json.numberOf learned
  if !Json.same baseline (some (.number 0)) then (l - b) / b.abs * 100
  else if l > 0 then 100
  else 0

def compareFigures (baseline learned : Option Json) : Json :=
  let shown : Json.Members Json :=
    Json.Members.optional "baseline" baseline ++ Json.Members.optional "learned" learned
  Json.joined shown [("improvement", .number (improvement baseline learned))]

def compare (baseline learned : Option Json) : Except Fault Json := do
  let figures (name : Text) : Except Fault (Text × Json) := do
    let b ← field (baseline.getD .null) name
    let l ← field (learned.getD .null) name
    pure (name, compareFigures b l)
  let reward ← figures "meanReward"
  let success ← figures "successRate"
  let length ← figures "meanLength"
  pure (.object [reward, success, length])

end ProgramGym.Metrics.Documents
