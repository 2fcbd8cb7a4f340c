import ProgramGym.Catalog
import ProgramGym.Interpreter
import ProgramGym.Quantity

/-! One attempt at a task: the tokens emitted so far and why the attempt ended, if it has. -/
namespace ProgramGym

inductive TerminalReason where
  | success
  | maxSteps
  | naturalStop
  | invalidAction
  deriving DecidableEq, Repr

namespace TerminalReason

def name : TerminalReason → String
  | success => "SUCCESS"
  | maxSteps => "MAX_STEPS"
  | naturalStop => "NATURAL_STOP"
  | invalidAction => "INVALID_ACTION"

def all : List TerminalReason := [success, maxSteps, naturalStop, invalidAction]

def ofName? (t : Text) : Option TerminalReason := all.find? (t == ·.name)

end TerminalReason

/-- What a step complains about. -/
inductive Complaint (α : Type) where
  | invalidAction (action : Quantity α) (size : Nat)
  | reported (message : String)

namespace Complaint

def message : Complaint Float → String
  | invalidAction action size =>
    s!"invalid action {action.text}: expected an index in [0, {size})"
  | reported message => message

end Complaint

/-- What a step learned from running the program, or from not running it. -/
structure Outcome (α : Type) where
  attempted : Bool
  success : Bool
  /-- The trimmed output equals the trimmed expected one. -/
  matched : Bool
  output : Option Text
  error : Option (Complaint α)
  similarity : α
  /-- How the run is to be shown where its report was handed in as a document. -/
  given : Option (Json.Members Json) := none

structure Episode (α : Type) where
  tokens : List Text
  actions : List (Quantity α)
  /-- Steps spent, those on invalid actions among them. -/
  stepCount : Nat
  reason : Option TerminalReason
  similarity : α

namespace Episode
variable {α : Type}

def done (e : Episode α) : Bool := e.reason.isSome

def start [Scalar α] : Episode α := ⟨[], [], 0, none, Scalar.nat 0⟩

end Episode

namespace Outcome
variable {α : Type} [Scalar α]

/-- The program was not run. -/
def skipped (error : Option (Complaint α)) : Outcome α :=
  { attempted := false, success := false, matched := false, output := none, error
    similarity := Scalar.nat 0 }

def ofVerdict (similarity : Text → Text → α) (expected : Text) (v : Verdict) : Outcome α :=
  let output := if v.success then v.output else none
  { attempted := true
    success := v.success
    matched := output.any fun o => o.trim == expected.trim
    output := v.output
    error := if v.success then none else some (.reported (v.error.getD Verdict.noReason))
    similarity := match output with
      | some o => similarity o expected
      | none => Scalar.nat 0
    given := v.given }

end Outcome
end ProgramGym
