import Mathlib
import ProgramGym.Proofs.CommandLine.Arguments
import ProgramGym.Proofs.Decimal.Numerals
import ProgramGym.Proofs.Separators

/-! Choices of options on the command line. What is chosen is written as arguments, one for each
value, and what is left out has its default. Main statement: in whatever order they stand, the
arguments are read as the choice, and a value of a flag that stands before another one can be left
out. -/
namespace ProgramGym.CommandLine

/-- A value that does not look like an option. -/
structure Plain where
  text : String
  plain : isOption text = false

/-- A count up to the largest one that no other number is taken for. -/
structure Count (least : Nat) where
  value : Nat
  admitted : least ≤ value
  safe : value < Quantity.exactBound

/-- Names that can stand between commas, the first of them where a value begins. -/
structure Names where
  names : List String
  nonempty : names ≠ []
  each : ∀ name ∈ names, name ≠ "" ∧ Text.trimString name = name ∧ ',' ∉ name.toList
  plain : isOption (names.head nonempty) = false

/-- A name that an agent is asked for by, in any case. -/
structure Alias where
  name : String
  kind : AgentKind
  known : (name.toLower, kind) ∈ AgentKind.aliases

/-- What is given on the command line. -/
structure Choice where
  command : Option Command
  language : Option Plain
  task : Option Plain
  tasks : Option Names
  agent : Option Alias
  count : (n : Counter) → Option (Count n.least)
  reward : Option Plain
  seed : Option (Count 0)
  directory : Option Plain
  continueFrom : Option Plain
  quiet : Bool
  help : Bool

namespace Choice

/-- The text of the value of a flag. -/
def value? (c : Choice) : Flag → Option String
  | .language => c.language.map (·.text)
  | .task => c.task.map (·.text)
  | .tasks => c.tasks.map fun tasks => ",".intercalate tasks.names
  | .agent => c.agent.map (·.name)
  | .episodes => (c.count .episodes).map fun n => toString n.value
  | .evalEvery => (c.count .evalEvery).map fun n => toString n.value
  | .evalEpisodes => (c.count .evalEpisodes).map fun n => toString n.value
  | .saveEvery => (c.count .saveEvery).map fun n => toString n.value
  | .maxSteps => (c.count .maxSteps).map fun n => toString n.value
  | .reward => c.reward.map (·.text)
  | .seed => c.seed.map fun n => toString n.value
  | .directory => c.directory.map (·.text)
  | .continueFrom => c.continueFrom.map (·.text)

/-- The arguments, each once. -/
def arguments (c : Choice) : List Argument :=
  Flag.all.filterMap (fun f => (c.value? f).map (.flag f)) ++
    ((if c.quiet then [.quiet] else []) ++ ((if c.help then [.help] else []) ++
      (c.command.map fun command => .word command.name).toList))

/-- The options that are meant. -/
def options (c : Choice) (vars : Variables) : Options :=
  let counted (n : Counter) : Quantity Float := .count ((c.count n).elim n.default (·.value))
  { command := c.command.getD .train
    language := c.language.elim "calc" (·.text)
    task := c.task.elim "001" (·.text)
    tasks := c.tasks.elim [] (·.names)
    agent := c.agent.elim .qlearning (·.kind)
    episodes := counted .episodes
    evalEvery := counted .evalEvery
    evalEpisodes := counted .evalEpisodes
    saveEvery := counted .saveEvery
    maxSteps := counted .maxSteps
    reward := c.reward.elim "correctness" (·.text)
    seed := c.seed.map fun n => .count n.value
    directory := c.directory.elim ((vars.get? "RL_LOG_DIR").getD Options.defaultDirectory) (·.text)
    continueFrom := c.continueFrom.map (·.text)
    quiet := c.quiet
    help := c.help }

end Choice

/-! Values and what they are read as. -/

theorem Command.commandOf_name (c : Command) : Options.commandOf c.name = .ok c := by
  have found : ofName? c.name = some c := by cases c <;> decide
  rw [Options.commandOf, found]

theorem Options.names_empty : names "" = [] := by
  have comma : "," = String.singleton ',' := by decide
  rw [names, comma, splitOn_singleton]
  decide

/-- Behind a comma no dash counts. -/
theorem isOption_append {first rest : String} (some : first ≠ "") (plain : isOption first = false)
    (behind : ∀ c ∈ rest.toList.head?, c = ',') : isOption (first ++ rest) = false := by
  unfold isOption at plain ⊢
  rw [String.toList_append]
  -- of one character alone, what follows could still make an option
  match chars : first.toList with
  | [] => exact absurd (String.toList_eq_nil_iff.mp chars) some
  | [c] =>
    rw [chars] at plain
    match tail : rest.toList with
    | [] => exact plain
    | d :: others =>
      obtain rfl := behind d (by rw [tail]; rfl)
      simp [List.isPrefixOf]
  | c :: d :: others =>
    rw [chars] at plain
    simpa [List.isPrefixOf] using plain

namespace Names

theorem names_intercalate (n : Names) : Options.names (",".intercalate n.names) = n.names := by
  have apart : ∀ name ∈ n.names, ',' ∉ name.toList := fun name member => (n.each name member).2.2
  have comma : "," = String.singleton ',' := by decide
  have trimmed : n.names.map Text.trimString = n.names :=
    (List.map_congr_left fun name member => (n.each name member).2.1).trans (List.map_id _)
  rw [Options.names, comma, splitOn_intercalate n.nonempty apart, trimmed]
  refine List.filter_eq_self.mpr fun name member => ?_
  simpa using (n.each name member).1

theorem plain_intercalate (n : Names) : isOption (",".intercalate n.names) = false := by
  obtain ⟨names, nonempty, each, plain⟩ := n
  match names, nonempty with
  | [name], _ => simpa using plain
  | name :: other :: names, _ =>
    dsimp only
    rw [String.intercalate_cons_cons, String.append_assoc]
    exact isOption_append (each name (List.mem_cons_self ..)).1 plain (by simp)

end Names

namespace Alias

/-- The alias that is the name of the kind. -/
def qlearning : Alias where
  name := "qlearning"
  kind := .qlearning
  known := by
    have lower : "qlearning".toLower = "qlearning" := by
      rw [String.toLower, ← String.toList_inj, String.toList_map]
      decide
    rw [lower]
    decide

/-- No alias begins with a dash. -/
theorem plain (a : Alias) : isOption a.name = false := by
  cases option : isOption a.name with
  | false => rfl
  | true =>
    obtain ⟨rest, dashes⟩ := List.isPrefixOf_iff_prefix.mp option
    have lower : isOption a.name.toLower = true := by
      rw [isOption, String.toLower, String.toList_map, ← dashes]
      simp [List.isPrefixOf]
    have plain : ∀ entry ∈ AgentKind.aliases, isOption entry.1 = false := by decide
    exact absurd lower (by simp [plain _ a.known])

theorem agentOf_name (a : Alias) : Options.agentOf a.name = .ok a.kind := by
  have unique : ∀ entry ∈ AgentKind.aliases,
      AgentKind.aliases.lookup entry.1 = some entry.2 := by decide
  have found : AgentKind.ofAlias? a.name = some a.kind := unique _ a.known
  rw [Options.agentOf, found]

end Alias

namespace Count
variable {least : Nat}

theorem integer_toString (n : Count least) (f : Flag) :
    Options.integer f least (toString n.value) = .ok (.count n.value) := by
  rw [Options.integer, Numeral.option?_toString, Option.map_some,
    Quantity.ofNumeral_ofNat n.safe.le]
  simp [Options.admits, n.admitted]

theorem plain (n : Count least) : isOption (toString n.value) = false := by
  have digits := Numeral.digits_toDigits n.value
  obtain ⟨d, others, split⟩ := List.exists_cons_of_ne_nil digits.some
  have digit : d ≠ '-' := Numeral.digit_ne (digits.all d (by simp [split])) (by decide)
  rw [isOption, Numeral.toList_toString, split]
  simp [List.isPrefixOf, digit.symm]

end Count

namespace Choice
variable {c : Choice} {arguments : List Argument} {vars : Variables} {f : Flag} {s : String}

theorem plain_value? (given : c.value? f = some s) : isOption s = false := by
  cases f <;> obtain ⟨value, _, rfl⟩ := Option.map_eq_some_iff.mp given
  case tasks => exact value.plain_intercalate
  case agent => exact value.plain
  case episodes | evalEvery | evalEpisodes | saveEvery | maxSteps | seed => exact value.plain
  case language | task | reward | directory | continueFrom => exact value.plain

theorem flag_mem_arguments : .flag f s ∈ c.arguments ↔ c.value? f = some s := by
  have listed : f ∈ Flag.all := by cases f <;> decide
  simp only [arguments, List.mem_append, List.mem_filterMap, Option.map_eq_some_iff]
  constructor
  · rintro (⟨g, _, value, given, same⟩ | quiet | help | word)
    · cases same
      exact given
    · split at quiet <;> simp at quiet
    · split at help <;> simp at help
    · simp at word
  · exact fun given => .inl ⟨f, listed, s, given, rfl⟩

theorem word_mem_arguments :
    .word s ∈ c.arguments ↔ c.command.map Command.name = some s := by
  simp only [arguments, List.mem_append, List.mem_filterMap, Option.map_eq_some_iff,
    Option.mem_toList]
  constructor
  · rintro (⟨g, _, value, _, same⟩ | quiet | help | word)
    · cases same
    · split at quiet <;> simp at quiet
    · split at help <;> simp at help
    · simpa using word
  · rintro ⟨command, given, rfl⟩
    exact .inr (.inr (.inr (by simp [given])))

theorem quiet_mem_arguments : .quiet ∈ c.arguments ↔ c.quiet = true := by
  simp [arguments]

theorem help_mem_arguments : .help ∈ c.arguments ↔ c.help = true := by
  simp [arguments]

/-- Written in any order, a choice keeps its values. -/
theorem valueOf?_eq (order : arguments.Perm c.arguments) (f : Flag) :
    Options.valueOf? f arguments = c.value? f := by
  have given (s : String) : .flag f s ∈ arguments ↔ c.value? f = some s :=
    order.mem_iff.trans flag_mem_arguments
  cases value : c.value? f with
  | none =>
    refine Options.valueOf?_eq_none.mpr fun s member => ?_
    cases value.symm.trans ((given s).mp member)
  | some s =>
    refine Options.valueOf?_of_unique ((given s).mpr value) fun t member => ?_
    exact (Option.some.inj (value.symm.trans ((given t).mp member))).symm

theorem firstWord?_eq (order : arguments.Perm c.arguments) :
    Options.firstWord? arguments = c.command.map Command.name := by
  have given (s : String) : .word s ∈ arguments ↔ c.command.map Command.name = some s :=
    order.mem_iff.trans word_mem_arguments
  cases word : c.command.map Command.name with
  | none =>
    refine Options.firstWord?_eq_none fun s member => ?_
    cases word.symm.trans ((given s).mp member)
  | some s =>
    refine Options.firstWord?_of_unique ((given s).mpr word) fun t member => ?_
    exact (Option.some.inj (word.symm.trans ((given t).mp member))).symm

theorem exists_spells (order : arguments.Perm c.arguments) : ∃ texts, Spells arguments texts := by
  refine Options.exists_spells (fun f s member => ?_) fun s member => ?_
  · exact plain_value? (flag_mem_arguments.mp (order.mem_iff.mp member))
  · obtain ⟨command, _, rfl⟩ :=
      Option.map_eq_some_iff.mp (word_mem_arguments.mp (order.mem_iff.mp member))
    cases command <;> decide

theorem readCount_eq (order : arguments.Perm c.arguments) (n : Counter) :
    Options.readCount arguments n = .ok ((c.options vars).count n) := by
  have counted : (c.options vars).count n = .count ((c.count n).elim n.default (·.value)) := by
    cases n <;> rfl
  have value : c.value? n.flag = (c.count n).map fun k => toString k.value := by
    cases n <;> rfl
  rw [Options.readCount, valueOf?_eq order, value, counted]
  cases c.count n with
  | none => rfl
  | some k => exact k.integer_toString n.flag

theorem readSeed_eq (order : arguments.Perm c.arguments)
    (seeded : c.seed.isSome = true ∨ vars.get? "RL_SEED" = none) :
    Options.readSeed arguments vars = .ok (c.options vars).seed := by
  have value : c.value? .seed = c.seed.map fun k => toString k.value := rfl
  have seed : (c.options vars).seed = c.seed.map fun k => .count k.value := rfl
  rw [Options.readSeed, valueOf?_eq order, value, seed]
  cases given : c.seed with
  | none =>
    rw [given] at seeded
    simp [seeded.resolve_left (by simp)]
  | some k =>
    have some : (!(toString k.value).isEmpty) = true := by
      have digits := (Numeral.digits_toDigits k.value).some
      rw [← Numeral.toList_toString] at digits
      simpa only [Bool.not_eq_true', String.isEmpty_eq_false_iff, ne_eq,
        String.toList_eq_nil_iff] using digits
    rw [Option.map_some, Option.orElse_some, Option.filter_some, if_pos some]
    dsimp only
    rw [k.integer_toString]
    rfl

/-- The options follow from the arguments in any order. -/
theorem follow (order : arguments.Perm c.arguments)
    (seeded : c.seed.isSome = true ∨ vars.get? "RL_SEED" = none) :
    Options.Follow arguments vars (c.options vars) where
  command := by
    have word : (c.command.map Command.name).getD Command.train.name =
        (c.command.getD .train).name := by
      cases c.command <;> rfl
    rw [firstWord?_eq order, word]
    exact (c.command.getD .train).commandOf_name
  agent := by
    rw [valueOf?_eq order]
    cases given : c.agent with
    | none =>
      have named : c.value? .agent = none := by simp [value?, given]
      have kind : (c.options vars).agent = .qlearning := by simp [options, given]
      rw [named, kind]
      exact Alias.qlearning.agentOf_name
    | some name => simpa [value?, options, given] using name.agentOf_name
  count := readCount_eq order
  seed := readSeed_eq order seeded
  language := by
    rw [valueOf?_eq order]
    cases given : c.language <;> simp [value?, options, given]
  task := by
    rw [valueOf?_eq order]
    cases given : c.task <;> simp [value?, options, given]
  tasks := by
    rw [valueOf?_eq order]
    cases given : c.tasks with
    | none => simp [value?, options, given, Options.names_empty]
    | some tasks => simpa [value?, options, given] using tasks.names_intercalate
  reward := by
    rw [valueOf?_eq order]
    cases given : c.reward <;> simp [value?, options, given]
  directory := by
    rw [valueOf?_eq order]
    cases given : c.directory <;> simp [value?, options, given]
  continueFrom := valueOf?_eq order _
  quiet := Bool.eq_iff_iff.mpr
    (List.contains_iff_mem.trans (order.mem_iff.trans quiet_mem_arguments))
  help := Bool.eq_iff_iff.mpr
    (List.contains_iff_mem.trans (order.mem_iff.trans help_mem_arguments))

/-- A command, a language of the same name, fifty episodes and a seed, without reports. -/
def comparing : Choice where
  command := some .compare
  language := some ⟨"compare", by decide⟩
  task := none
  tasks := none
  agent := none
  count
    | .episodes => some ⟨50, by decide, by decide⟩
    | _ => none
  reward := none
  seed := some ⟨7, by decide, by decide⟩
  directory := none
  continueFrom := none
  quiet := true
  help := false

theorem comparing_arguments : [.quiet, .flag .seed "7", .word "compare",
    .flag .episodes "50", .flag .language "compare"].Perm comparing.arguments := by
  decide

theorem spells_comparing : Spells [.quiet, .flag .seed "7", .word "compare",
      .flag .episodes "50", .flag .language "compare"]
    ["--quiet", "--seed", "7", "compare", "--episodes", "50", "--dsl", "compare"] :=
  .quiet (.flag .seed (by decide) (.word (by decide) (by decide)
    (.flag .episodes (by decide) (.flag .language (by decide) .nil))))

end Choice

namespace Options
open Choice (comparing)

/-- A choice can be written in every order and is read as it was made, and values of a flag do not
count before another value of it. -/
theorem parse_any_order_last_value :
    (∀ (c : Choice) (arguments : List Argument) (vars : Variables),
      arguments.Perm c.arguments → c.seed.isSome = true ∨ vars.get? "RL_SEED" = none →
        (∃ texts, Spells arguments texts) ∧
          ∀ texts, Spells arguments texts → parse texts vars = .ok (c.options vars)) ∧
    ∀ (f : Flag) (value : String) (earlier : List Argument) (texts fewer rest : List String)
      (vars : Variables), Spells earlier texts → Spells (without f earlier) fewer →
        parse (texts ++ f.text :: value :: rest) vars =
          parse (fewer ++ f.text :: value :: rest) vars := by
  refine ⟨fun c arguments vars order seeded => ⟨Choice.exists_spells order, ?_⟩, ?_⟩
  · intro texts spells
    exact parse_eq_ok_iff.mpr ⟨arguments, spells, Choice.follow order seeded⟩
  · intro f value earlier texts fewer rest vars spells shorter
    exact parse_without spells shorter value rest vars

/-- The variable does not count beside the seed, and of two languages the last one does. -/
theorem parse_any_order_last_value_comparing :
    [.quiet, .flag .seed "7", .word "compare", .flag .episodes "50",
      .flag .language "compare"].Perm comparing.arguments ∧
    comparing.seed.isSome = true ∧
    parse ["--quiet", "--seed", "7", "compare", "--episodes", "50", "--dsl", "compare"]
      [("RL_SEED", "none")] = .ok (comparing.options [("RL_SEED", "none")]) ∧
    Spells [.flag .language "calc", .word "list"] ["--dsl", "calc", "list"] ∧
    Spells (without .language [.flag .language "calc", .word "list"]) ["list"] ∧
    parse (["--dsl", "calc", "list"] ++ Flag.language.text :: "echo" :: []) [] =
      parse (["list"] ++ Flag.language.text :: "echo" :: []) [] := by
  have given : Spells [.flag .language "calc", .word "list"] ["--dsl", "calc", "list"] :=
    .flag .language (by decide) (.word (by decide) (by decide) .nil)
  have fewer : Spells (without .language [.flag .language "calc", .word "list"]) ["list"] :=
    .word (by decide) (by decide) .nil
  have chosen := parse_any_order_last_value.1 comparing _ [("RL_SEED", "none")]
    Choice.comparing_arguments (.inl rfl)
  exact ⟨Choice.comparing_arguments, rfl, chosen.2 _ Choice.spells_comparing, given, fewer,
    parse_any_order_last_value.2 .language "echo" _ _ _ [] [] given fewer⟩

end Options
end ProgramGym.CommandLine
