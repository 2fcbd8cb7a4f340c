import ProgramGym.Interpreter
import ProgramGym.Scalar.Binary64

/-! Interpreters from JSON: by the name of their language, failing at some calls if asked to, or
as a table from programs to reports. A report of success has to give a text or null as its
output; one that gives neither is a fault when the program is run. -/
namespace ProgramGym

/-- The members of a report as they were given. A success has no error, and a failure without
one has the default. -/
def Verdict.shown (j : Json) (success : Bool) (reason : Option Json) : Json.Members Json :=
  let error := if success then Json.null else reason.getD (.text Verdict.noReason)
  .optional "executionSucceeded" (j.get? "success")
    ++ .optional "output" (j.get? "output") ++ .optional "error" (some error)

/-- The report of a run, or the fault of one that cannot be used. -/
def Verdict.ofJson (j : Option Json) : Except Fault Verdict :=
  match j with
  | none | some .null => .error .wrongKind
  | some j =>
    match j.get? "throw" with
    | some message => .error (.failure message.plain)
    | none =>
      let success := Json.holdsOf (j.get? "success")
      let reason := (j.get? "error").filter fun e => !Json.isNull e
      let verdict (output : Option Text) : Verdict :=
        { success, output, error := reason.map Json.plain
          given := some (Verdict.shown j success reason) }
      match success, j.get? "output" with
      | false, output => .ok (verdict (output.bind Json.text?))
      | true, some (.text t) => .ok (verdict (some t))
      | true, some .null => .ok (verdict none)
      | true, _ => .error .wrongKind

namespace Interpreter
variable {α : Type} [Scalar α]

/-- The interpreter of a language; only a text names one. -/
def named (name : Option Json) : Except Fault (Interpreter α) :=
  match name with
  | some (.text t) => ofLanguage t
  | name => .error (.configuration (.unknownLanguage (Json.wording name) languageNames))

/-- The wording of a message that may be left out. -/
def messageOr (default : String) (j : Json) : String :=
  ((j.get? "throwMessage").map Json.plain).getD default

def ofJson (j : Json) : Except Fault (Interpreter Float) :=
  match j.get? "dsl" with
  | some name => do
    let inner ← named (some name)
    match (j.get? "throwOnCalls").bind Json.items? with
    | some calls =>
      pure (inner.failingAt (calls.filterMap fun c => c.number?.bind Number.toNat?)
        (messageOr "executor crashed" j))
    | none => pure inner
  | none =>
    let entries := Json.spread (j.get? "table")
    .ok (.ofTable (entries.map fun (program, r) => (program, Verdict.ofJson (some r)))
      (Verdict.ofJson (j.get? "otherwise")) ((j.get? "similarity").bind Json.number?))

/-- A successful report with an output cannot be used: there is nothing to compare it with. -/
def refusingOutput (inner : Interpreter α) : Interpreter α :=
  { inner with
    run := fun call program => (inner.run call program).bind fun v =>
      if v.success && v.output.isSome then .error .wrongKind else .ok v }

/-- What running a program reports that may be no text. Only calculations take other values:
those that have no length are programs without tokens. -/
def runAny (name : Option Json) (program : Option Json) : Except Fault Verdict := do
  let i : Interpreter Float ← named name
  match program with
  | some (.text t) => i.run 1 t
  | some (.number _) | some (.bool _) | some (.object _) =>
    if i.name == "calc" then i.run 1 "" else .error .wrongKind
  | _ => .error .wrongKind

end Interpreter
end ProgramGym
