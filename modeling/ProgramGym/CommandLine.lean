import ProgramGym.CommandLine.Reports
import ProgramGym.CommandLine.Training
import ProgramGym.CommandLine.Usage

/-! One run of the program: options, a command, and what went wrong. A fault is printed and
makes the exit code one; what was printed and stored by then stays. -/
namespace ProgramGym.CommandLine

namespace Session

def perform (o : Options) (vars : Variables) : Op Session Unit := do
  if o.help then log usage
  else match o.command with
    | .list => listCommand
    | command => do
      let catalog ← catalog vars
      match command with
      | .tasks => tasksCommand catalog
      | .compare => compareCommand catalog o
      | .curriculum => curriculumCommand catalog o
      | .evaluate => evaluateCommand catalog o (atLeastOne o.evalEpisodes)
      | .train | .list => trainCommand catalog o

def report (fault : Fault) (s : Session) : Session :=
  let lines := if fault.isConfiguration then ["Run with --help for usage."] else []
  { s with
    console := s.console ++ (s!"Error: {fault.message}" :: lines).map fun text => ⟨.error, text⟩ }

end Session

/-- The exit code, and the session after the run. -/
def run (arguments : List String) (vars : Variables) (s : Session) : Nat × Session :=
  match Options.parse arguments vars with
  | .error fault => (1, s.report fault)
  | .ok o =>
    match (Session.perform o vars).run s with
    | (.ok (), s) => (0, s)
    | (.error fault, s) => (1, s.report fault)

end ProgramGym.CommandLine
