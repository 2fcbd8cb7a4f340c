import ProgramGym.Calc.Evaluator
import ProgramGym.Fault
import ProgramGym.Similarity

/-! Interpreters of program texts, by the name of their language. An interpreter reports a
program that does not run; a fault of the interpreter itself is another outcome. What it
does may depend on how often it has been called. -/
namespace ProgramGym

/-- What running a program reported. -/
structure Verdict where
  success : Bool
  output : Option Text
  error : Option String
  /-- The members of the report where it was handed in as a document and is to be shown so. -/
  given : Option (Json.Members Json) := none

/-- What a failure without an error of its own is reported as. -/
def Verdict.noReason : String := "execution failed"

structure Interpreter (α : Type) where
  name : String
  /-- The call's number, from 1 on, and the program. -/
  run : Nat → Text → Except Fault Verdict
  similarity : Text → Text → α

namespace Interpreter

/-- The program's own text without the blanks around it; an empty one is an error. -/
def runEcho (program : Text) : Verdict :=
  let text := program.trim
  if text.isEmpty then { success := false, output := none, error := some "empty program" }
  else { success := true, output := some text, error := none }

/-- The value of an arithmetic program. -/
def runCalc (program : Text) : Verdict :=
  match Calc.evaluate program with
  | .ok value => { success := true, output := some s!"{value}", error := none }
  | .error e => { success := false, output := none, error := some e.message }

def languages : List (String × (Text → Verdict)) := [("echo", runEcho), ("calc", runCalc)]

def languageNames : List String := languages.map (·.1)

variable {α : Type} [Scalar α]

/-- An interpreter that is a function of the program text. -/
def ofFunction (name : String) (verdict : Text → Verdict) : Interpreter α :=
  ⟨name, fun _ program => .ok (verdict program), Similarity.positional⟩

def ofLanguage (name : Text) : Except Fault (Interpreter α) :=
  match languages.lookup name.toString with
  | some verdict => .ok (ofFunction name.toString verdict)
  | none => .error (.configuration (.unknownLanguage name.toString languageNames))

/-- An interpreter whose calls of some numbers fail instead of running the program. -/
def failingAt (inner : Interpreter α) (calls : List Nat) (message : String) : Interpreter α :=
  { inner with
    run := fun call program =>
      if calls.contains call then .error (.failure message) else inner.run call program
    similarity := Similarity.positional }

/-- An interpreter that answers from a table of programs. -/
def ofTable (entries : List (Text × Except Fault Verdict)) (otherwise : Except Fault Verdict)
    (similarity : Option α) : Interpreter α where
  name := "table"
  run _ program := (entries.lookup program).getD otherwise
  similarity output expected := similarity.getD (Similarity.positional output expected)

/-- The outcome hangs on the program text alone. -/
def Functional (i : Interpreter α) : Prop := ∀ m n program, i.run m program = i.run n program

def NeverFaults (i : Interpreter α) : Prop := ∀ n program, ∃ v, i.run n program = .ok v

end Interpreter
end ProgramGym
