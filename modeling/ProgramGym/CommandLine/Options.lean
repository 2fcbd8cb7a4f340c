import ProgramGym.CommandLine.Variables
import ProgramGym.Fault
import ProgramGym.Quantity
import ProgramGym.Storage.Path

/-! The options of a run, from arguments and variables. Arguments are read from the left into a
list; its order matters only for the first command and for the last value of every flag. -/
namespace ProgramGym.CommandLine

inductive Command where
  | train
  | compare
  | curriculum
  | evaluate
  | list
  | tasks
  deriving DecidableEq, Repr

namespace Command

def name : Command → String
  | train => "train"
  | compare => "compare"
  | curriculum => "curriculum"
  | evaluate => "evaluate"
  | list => "list"
  | tasks => "tasks"

def all : List Command := [train, compare, curriculum, evaluate, list, tasks]

def ofName? (s : String) : Option Command := all.find? (·.name == s)

end Command

/-- Flags that take a value. -/
inductive Flag where
  | language
  | task
  | tasks
  | agent
  | episodes
  | evalEvery
  | evalEpisodes
  | saveEvery
  | maxSteps
  | reward
  | seed
  | directory
  | continueFrom
  deriving DecidableEq, Repr

namespace Flag

def text : Flag → String
  | language => "--dsl"
  | task => "--task"
  | tasks => "--tasks"
  | agent => "--agent"
  | episodes => "--episodes"
  | evalEvery => "--eval-every"
  | evalEpisodes => "--eval-episodes"
  | saveEvery => "--save-every"
  | maxSteps => "--max-steps"
  | reward => "--reward"
  | seed => "--seed"
  | directory => "--log-dir"
  | continueFrom => "--continue"

def all : List Flag :=
  [language, task, tasks, agent, episodes, evalEvery, evalEpisodes, saveEvery, maxSteps, reward,
   seed, directory, continueFrom]

def ofText? (s : String) : Option Flag := all.find? (·.text == s)

end Flag

inductive Argument where
  | flag (f : Flag) (value : String)
  | quiet
  | help
  | word (s : String)
  deriving DecidableEq, Repr

/-- Two dashes in front. -/
def isOption (s : String) : Bool := ['-', '-'].isPrefixOf s.toList

/-- A value may not look like an option, and an option has to be known. -/
def readArguments : List String → Except Misconfiguration (List Argument)
  | [] => .ok []
  | s :: rest =>
    if s == "--help" || s == "-h" then (readArguments rest).map (.help :: ·)
    else if s == "--quiet" then (readArguments rest).map (.quiet :: ·)
    else match Flag.ofText? s with
      | some f =>
        match rest with
        | [] => .error (.valueMissing s)
        | value :: rest =>
          if isOption value then .error (.valueMissing s)
          else (readArguments rest).map (.flag f value :: ·)
      | none =>
        if isOption s then .error (.unknownOption s)
        else (readArguments rest).map (.word s :: ·)

structure Options where
  command : Command
  language : String
  task : String
  /-- The sequence of a curriculum; an empty one stands for all tasks of the language. -/
  tasks : List String
  agent : AgentKind
  episodes : Quantity Float
  evalEvery : Quantity Float
  evalEpisodes : Quantity Float
  saveEvery : Quantity Float
  maxSteps : Quantity Float
  reward : String
  /-- Without one a run is not reproducible. -/
  seed : Option (Quantity Float)
  directory : String
  continueFrom : Option String
  quiet : Bool
  help : Bool

namespace Options

/-- The last value of a flag. -/
def valueOf? (f : Flag) (arguments : List Argument) : Option String :=
  arguments.foldl (fun found argument =>
    match argument with
    | .flag g value => if g == f then some value else found
    | _ => found) none

def firstWord? (arguments : List Argument) : Option String :=
  arguments.findSome? fun
    | .word s => some s
    | _ => none

/-- Whole and at least as large as the least value admitted. -/
def admits (least : Nat) (q : Quantity Float) : Bool :=
  match q with
  | .count n => least ≤ n
  | .other x => Number.isWhole x && !(x < Float.ofNat least)
  | .foreign _ => false

def integer (f : Flag) (least : Nat) (value : String) : Except Misconfiguration (Quantity Float) :=
  match (Numeral.option? value).map Quantity.ofNumeral with
  | some q => if admits least q then .ok q else .error (.notInteger f.text least value)
  | none => .error (.notInteger f.text least value)

/-- Names between commas, without blanks around them; empty ones do not count. -/
def names (s : String) : List String :=
  ((s.splitOn ",").map Text.trimString).filter (!·.isEmpty)

def defaultDirectory : String := Path.join ["output", "rl_logs"]

def commandOf (name : String) : Except Misconfiguration Command :=
  match Command.ofName? name with
  | some c => .ok c
  | none => .error (.unknownCommand name)

def agentOf (name : String) : Except Misconfiguration AgentKind :=
  match AgentKind.ofAlias? name with
  | some kind => .ok kind
  | none => .error (.unknownAgent name)

/-- The variables stand in for a seed and a directory that are not given. -/
def ofArguments (arguments : List Argument) (vars : Variables) :
    Except Misconfiguration Options := do
  let value (f : Flag) : Option String := valueOf? f arguments
  let count (f : Flag) (default least : Nat) : Except Misconfiguration (Quantity Float) :=
    match value f with
    | some s => integer f least s
    | none => .ok (.count default)
  let command ← commandOf ((firstWord? arguments).getD Command.train.name)
  let agent ← agentOf ((value .agent).getD AgentKind.qlearning.name)
  let episodes ← count .episodes 1000 0
  let evalEvery ← count .evalEvery 100 0
  let evalEpisodes ← count .evalEpisodes 10 0
  let saveEvery ← count .saveEvery 500 0
  let maxSteps ← count .maxSteps 20 1
  let seed ← match ((value .seed).orElse fun () => vars.get? "RL_SEED").filter (!·.isEmpty) with
    | some s => (integer .seed 0 s).map some
    | none => pure none
  pure
    { command, agent, episodes, evalEvery, evalEpisodes, saveEvery, maxSteps, seed
      language := (value .language).getD "calc"
      task := (value .task).getD "001"
      tasks := names ((value .tasks).getD "")
      reward := (value .reward).getD "correctness"
      directory :=
        ((value .directory).orElse fun () => vars.get? "RL_LOG_DIR").getD defaultDirectory
      continueFrom := value .continueFrom
      quiet := arguments.contains .quiet
      help := arguments.contains .help }

/-- The options by name; a seed and an experiment only where they are given. -/
def json (o : Options) : Json :=
  let count (q : Quantity Float) : Json := .number q.toScalar
  Json.joined
    [("command", .text o.command.name), ("dsl", .text o.language), ("task", .text o.task),
     ("tasks", Json.strings o.tasks), ("agent", .text o.agent.name),
     ("episodes", count o.episodes), ("evalEvery", count o.evalEvery),
     ("evalEpisodes", count o.evalEpisodes), ("saveEvery", count o.saveEvery),
     ("maxSteps", count o.maxSteps), ("reward", .text o.reward), ("logDir", .text o.directory),
     ("quiet", .bool o.quiet), ("help", .bool o.help)]
    (.optional "seed" (o.seed.map count)
      ++ .optional "continueFrom" (o.continueFrom.map fun id => .text id))

def parse (arguments : List String) (vars : Variables) : Except Fault Options :=
  match (readArguments arguments).bind (ofArguments · vars) with
  | .ok options => .ok options
  | .error cause => .error (.configuration cause)

end Options
end ProgramGym.CommandLine
