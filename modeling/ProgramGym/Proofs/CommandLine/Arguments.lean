import Mathlib.Data.List.Induction
import ProgramGym.CommandLine.Options
import ProgramGym.Proofs.Checks

/-! The arguments that texts spell. A flag takes the text behind it as its value, whatever else that
could be, unless it begins with two dashes. Main statements: texts are read as arguments if and only
if they spell them, and of the order of the arguments the options see only the first word and the
last value of every flag. -/
namespace ProgramGym.CommandLine

/-- The texts by which arguments can be written. -/
inductive Spells : List Argument → List String → Prop where
  | nil : Spells [] []
  | flag (f : Flag) {value : String} {arguments : List Argument} {texts : List String}
      (plain : isOption value = false) (spells : Spells arguments texts) :
      Spells (.flag f value :: arguments) (f.text :: value :: texts)
  | quiet {arguments : List Argument} {texts : List String} (spells : Spells arguments texts) :
      Spells (.quiet :: arguments) ("--quiet" :: texts)
  | help {arguments : List Argument} {texts : List String} (spells : Spells arguments texts) :
      Spells (.help :: arguments) ("--help" :: texts)
  | shortHelp {arguments : List Argument} {texts : List String} (spells : Spells arguments texts) :
      Spells (.help :: arguments) ("-h" :: texts)
  | word {s : String} {arguments : List Argument} {texts : List String}
      (plain : isOption s = false) (word : s ≠ "-h") (spells : Spells arguments texts) :
      Spells (.word s :: arguments) (s :: texts)

namespace Flag

theorem ofText?_text (f : Flag) : ofText? f.text = some f := by
  cases f <;> decide

theorem text_of_ofText? {f : Flag} {s : String} (found : ofText? s = some f) : f.text = s := by
  simpa using List.find?_some found

theorem isOption_text (f : Flag) : isOption f.text = true := by
  cases f <;> decide

/-- Texts that do not begin with two dashes are not flags. -/
theorem ofText?_plain {s : String} (plain : isOption s = false) : ofText? s = none := by
  cases found : ofText? s with
  | none => rfl
  | some f => exact absurd (isOption_text f) (by simp [text_of_ofText? found, plain])

end Flag

section
variable {arguments first second : List Argument} {texts : List String} {f g : Flag} {s : String}

theorem readArguments_flag (f : Flag) (value : String) (rest : List String) :
    readArguments (f.text :: value :: rest) =
      if isOption value then .error (.valueMissing f.text)
      else (readArguments rest).map (.flag f value :: ·) := by
  have other : ¬ (f.text == "--help" || f.text == "-h") = true := by cases f <;> decide
  have loud : ¬ (f.text == "--quiet") = true := by cases f <;> decide
  rw [readArguments, if_neg other, if_neg loud, Flag.ofText?_text]

theorem readArguments_word (plain : isOption s = false) (word : s ≠ "-h") (rest : List String) :
    readArguments (s :: rest) = (readArguments rest).map (.word s :: ·) := by
  have other {t : String} (option : isOption t = true) : s ≠ t := by
    rintro rfl
    exact absurd option (by simp [plain])
  have help : ¬ (s == "--help" || s == "-h") = true := by
    simp [word, other (t := "--help") (by decide)]
  have loud : ¬ (s == "--quiet") = true := by simp [other (t := "--quiet") (by decide)]
  rw [readArguments, if_neg help, if_neg loud, Flag.ofText?_plain plain]
  simp [plain]

/-- What spells arguments is read as them, whatever follows. -/
theorem readArguments_append (spells : Spells arguments texts) (more : List String) :
    readArguments (texts ++ more) = (readArguments more).map (arguments ++ ·) := by
  have step (argument : Argument) (arguments : List Argument) :
      ((readArguments more).map (arguments ++ ·)).map (argument :: ·) =
        (readArguments more).map (argument :: arguments ++ ·) := by
    cases readArguments more <;> rfl
  induction spells with
  | nil =>
    change readArguments more = _
    cases readArguments more <;> rfl
  | flag f plain _ ih =>
    rw [List.cons_append, List.cons_append, readArguments_flag, if_neg (by simp [plain]), ih, step]
  | quiet _ ih | help _ ih | shortHelp _ ih =>
    rw [List.cons_append, ← step, ← ih]
    rfl
  | word plain word _ ih =>
    rw [List.cons_append, readArguments_word plain word, ih, step]

/-- Texts are read as the arguments that they spell, and as nothing else. -/
theorem readArguments_eq_ok_iff :
    readArguments texts = .ok arguments ↔ Spells arguments texts := by
  constructor
  · intro read
    -- nothing left, help, no progress, a flag without a value or with an option in its place, a
    -- flag with its value, an unknown option, a word
    fun_induction readArguments texts generalizing arguments with
    | case1 =>
      cases read
      exact .nil
    | case2 s rest asked ih =>
      obtain ⟨others, done, rfl⟩ := map_eq_ok.mp read
      have spelled : s = "--help" ∨ s = "-h" := by simpa using asked
      rcases spelled with rfl | rfl
      · exact .help (ih done)
      · exact .shortHelp (ih done)
    | case3 s rest _ asked ih =>
      obtain ⟨others, done, rfl⟩ := map_eq_ok.mp read
      obtain rfl : s = "--quiet" := by simpa using asked
      exact .quiet (ih done)
    | case4 | case5 => cases read
    | case6 s _ _ f found value rest plain ih =>
      obtain ⟨others, done, rfl⟩ := map_eq_ok.mp read
      obtain rfl := Flag.text_of_ofText? found
      exact .flag f (by simpa using plain) (ih done)
    | case7 => cases read
    | case8 s rest unasked _ _ plain ih =>
      obtain ⟨others, done, rfl⟩ := map_eq_ok.mp read
      have word : s ≠ "-h" := by
        rintro rfl
        exact unasked rfl
      exact .word (by simpa using plain) word (ih done)
  · intro spells
    have read := readArguments_append spells []
    rw [List.append_nil] at read
    simpa [readArguments, Except.map] using read

namespace Options

theorem valueOf?_append (f : Flag) (first second : List Argument) :
    valueOf? f (first ++ second) = (valueOf? f second).or (valueOf? f first) := by
  induction second using List.reverseRecOn with
  | nil => simp [valueOf?]
  | append_singleton second argument ih =>
    rw [← List.append_assoc]
    unfold valueOf? at ih ⊢
    rw [List.foldl_append, ih, List.foldl_append]
    simp only [List.foldl_cons, List.foldl_nil]
    split
    · split <;> rfl
    · rfl

theorem valueOf?_eq_none : valueOf? f arguments = none ↔ ∀ s, Argument.flag f s ∉ arguments := by
  induction arguments using List.reverseRecOn with
  | nil => simp [valueOf?]
  | append_singleton arguments argument ih =>
    rw [valueOf?_append, Option.or_eq_none_iff, ih]
    cases argument with
    | flag g value =>
      by_cases same : g = f
      · refine iff_of_false (by simp [valueOf?, same]) fun none => none value ?_
        simp [same]
      · simp [valueOf?, same, Ne.symm same]
    | quiet | help | word => simp [valueOf?]

/-- The value of a flag is the last one that is given. -/
theorem valueOf?_eq_some : valueOf? f arguments = some s ↔
    ∃ before after, arguments = before ++ .flag f s :: after ∧ ∀ t, .flag f t ∉ after := by
  constructor
  · intro found
    induction arguments using List.reverseRecOn with
    | nil => cases found
    | append_singleton arguments argument ih =>
      rw [valueOf?_append, Option.or_eq_some_iff] at found
      rcases found with last | ⟨other, earlier⟩
      · obtain rfl : argument = .flag f s := by
          cases argument with
          | flag g value =>
            simp [valueOf?] at last
            rw [last.1, last.2]
          | quiet | help | word => cases last
        exact ⟨arguments, [], rfl, by simp⟩
      · obtain ⟨before, after, rfl, none⟩ := ih earlier
        refine ⟨before, after ++ [argument], by simp, fun t member => ?_⟩
        rcases List.mem_append.mp member with member | member
        · exact none t member
        · exact valueOf?_eq_none.mp other t member
  · rintro ⟨before, after, rfl, none⟩
    rw [valueOf?_append, ← List.singleton_append, valueOf?_append, valueOf?_eq_none.mpr none]
    simp [valueOf?]

/-- A value that no other one of its flag competes with. -/
theorem valueOf?_of_unique (given : .flag f s ∈ arguments)
    (unique : ∀ t, .flag f t ∈ arguments → t = s) : valueOf? f arguments = some s := by
  cases found : valueOf? f arguments with
  | none => exact absurd given (valueOf?_eq_none.mp found s)
  | some t =>
    obtain ⟨before, after, split, _⟩ := valueOf?_eq_some.mp found
    rw [unique t (by simp [split])]

theorem firstWord?_eq_none (absent : ∀ s, .word s ∉ arguments) : firstWord? arguments = none := by
  refine List.findSome?_eq_none_iff.mpr fun argument member => ?_
  cases argument with
  | word s => exact absurd member (absent s)
  | flag | quiet | help => rfl

theorem firstWord?_of_unique (given : .word s ∈ arguments)
    (unique : ∀ t, .word t ∈ arguments → t = s) : firstWord? arguments = some s := by
  induction arguments with
  | nil => cases given
  | cons argument arguments ih =>
    rw [firstWord?, List.findSome?_cons]
    cases argument with
    | word t => rw [unique t (List.mem_cons_self ..)]
    | flag | quiet | help =>
      exact ih (by simpa using given) fun t member => unique t (List.mem_cons_of_mem _ member)

/-- Arguments can be written unless a value or a word is read as something else. -/
theorem exists_spells (flags : ∀ f s, .flag f s ∈ arguments → isOption s = false)
    (words : ∀ s, .word s ∈ arguments → isOption s = false ∧ s ≠ "-h") :
    ∃ texts, Spells arguments texts := by
  induction arguments with
  | nil => exact ⟨[], .nil⟩
  | cons argument arguments ih =>
    obtain ⟨texts, spells⟩ := ih (fun f s member => flags f s (List.mem_cons_of_mem _ member))
      fun s member => words s (List.mem_cons_of_mem _ member)
    cases argument with
    | flag f value => exact ⟨_, .flag f (flags f value (List.mem_cons_self ..)) spells⟩
    | quiet => exact ⟨_, .quiet spells⟩
    | help => exact ⟨_, .help spells⟩
    | word s =>
      obtain ⟨plain, word⟩ := words s (List.mem_cons_self ..)
      exact ⟨_, .word plain word spells⟩

/-- Arguments that agree in what the options see of them. -/
structure Alike (first second : List Argument) : Prop where
  value (f : Flag) : valueOf? f first = valueOf? f second
  word : firstWord? first = firstWord? second
  quiet : first.contains .quiet = second.contains .quiet
  help : first.contains .help = second.contains .help

theorem Alike.ofArguments (alike : Alike first second) (vars : Variables) :
    ofArguments first vars = ofArguments second vars := by
  unfold Options.ofArguments
  simp only [alike.value, alike.word, alike.quiet, alike.help]

/-- Without the values of a flag. -/
def without (f : Flag) (arguments : List Argument) : List Argument :=
  arguments.filter fun
    | .flag g _ => g != f
    | _ => true

theorem valueOf?_without (other : g ≠ f) (arguments : List Argument) :
    valueOf? g (without f arguments) = valueOf? g arguments := by
  unfold valueOf? without
  rw [List.foldl_filter]
  congr 1
  funext found argument
  cases argument with
  | flag h value =>
    by_cases same : h = f
    · simp [same, other.symm]
    · simp [same]
  | quiet | help | word => rfl

theorem firstWord?_without (f : Flag) (arguments : List Argument) :
    firstWord? (without f arguments) = firstWord? arguments := by
  induction arguments with
  | nil => rfl
  | cons argument arguments ih =>
    unfold firstWord? without at ih ⊢
    rw [List.filter_cons]
    cases argument with
    | flag g value =>
      by_cases same : g = f
      · simpa [same] using ih
      · simpa [same] using ih
    | quiet | help => exact ih
    | word s => rfl

/-- The values of a flag before another one of its values do not count. -/
theorem alike_without (f : Flag) (value : String) (before after : List Argument) :
    Alike (before ++ .flag f value :: after) (without f before ++ .flag f value :: after) where
  value g := by
    rw [valueOf?_append, valueOf?_append]
    by_cases same : g = f
    · have here : valueOf? g (.flag f value :: after) ≠ none := fun none =>
        valueOf?_eq_none.mp none value (by simp [same])
      obtain ⟨s, last⟩ := Option.ne_none_iff_exists'.mp here
      rw [last]
      rfl
    · rw [valueOf?_without same]
  word := by
    have parts (front : List Argument) : firstWord? (front ++ .flag f value :: after) =
        (firstWord? front).or (firstWord? (.flag f value :: after)) := List.findSome?_append
    rw [parts, parts, firstWord?_without]
  quiet := by simp [without]
  help := by simp [without]

/-- Texts before a flag and its value read the same without the values that the flag has there, also
where what follows cannot be read. -/
theorem parse_without {earlier : List Argument} {texts fewer : List String}
    (spells : Spells earlier texts) (shorter : Spells (without f earlier) fewer) (value : String)
    (rest : List String) (vars : Variables) :
    parse (texts ++ f.text :: value :: rest) vars =
      parse (fewer ++ f.text :: value :: rest) vars := by
  unfold parse
  rw [readArguments_append spells, readArguments_append shorter]
  cases read : readArguments (f.text :: value :: rest) with
  | error cause => rfl
  | ok later =>
    rw [readArguments_flag] at read
    split at read
    · cases read
    · obtain ⟨after, _, rfl⟩ := map_eq_ok.mp read
      have alike := (alike_without f value earlier after).ofArguments vars
      simp only [Except.map, Except.bind, alike]

end Options
end

/-! Options as they follow from arguments. -/

/-- The counts among the options. -/
inductive Counter where
  | episodes
  | evalEvery
  | evalEpisodes
  | saveEvery
  | maxSteps
  deriving DecidableEq, Repr

namespace Counter

def flag : Counter → Flag
  | episodes => .episodes
  | evalEvery => .evalEvery
  | evalEpisodes => .evalEpisodes
  | saveEvery => .saveEvery
  | maxSteps => .maxSteps

/-- The least value that is admitted. -/
def least : Counter → Nat
  | maxSteps => 1
  | episodes | evalEvery | evalEpisodes | saveEvery => 0

/-- The value where none is given. -/
def default : Counter → Nat
  | episodes => 1000
  | evalEvery => 100
  | evalEpisodes => 10
  | saveEvery => 500
  | maxSteps => 20

end Counter

namespace Options

def count (o : Options) : Counter → Quantity Float
  | .episodes => o.episodes
  | .evalEvery => o.evalEvery
  | .evalEpisodes => o.evalEpisodes
  | .saveEvery => o.saveEvery
  | .maxSteps => o.maxSteps

def readCount (arguments : List Argument) (n : Counter) :
    Except Misconfiguration (Quantity Float) :=
  match valueOf? n.flag arguments with
  | some s => integer n.flag n.least s
  | none => .ok (.count n.default)

/-- An empty seed is none. -/
def readSeed (arguments : List Argument) (vars : Variables) :
    Except Misconfiguration (Option (Quantity Float)) :=
  match ((valueOf? .seed arguments).orElse fun () => vars.get? "RL_SEED").filter (!·.isEmpty) with
  | some s => (integer .seed 0 s).map some
  | none => .ok none

/-- The options that arguments and variables come to. -/
structure Follow (arguments : List Argument) (vars : Variables) (o : Options) : Prop where
  command : commandOf ((firstWord? arguments).getD Command.train.name) = .ok o.command
  agent : agentOf ((valueOf? .agent arguments).getD AgentKind.qlearning.name) = .ok o.agent
  count (n : Counter) : readCount arguments n = .ok (o.count n)
  seed : readSeed arguments vars = .ok o.seed
  language : (valueOf? .language arguments).getD "calc" = o.language
  task : (valueOf? .task arguments).getD "001" = o.task
  tasks : names ((valueOf? .tasks arguments).getD "") = o.tasks
  reward : (valueOf? .reward arguments).getD "correctness" = o.reward
  directory : ((valueOf? .directory arguments).orElse fun () => vars.get? "RL_LOG_DIR").getD
    defaultDirectory = o.directory
  continueFrom : valueOf? .continueFrom arguments = o.continueFrom
  quiet : arguments.contains .quiet = o.quiet
  help : arguments.contains .help = o.help

theorem ofArguments_eq_ok_iff {arguments : List Argument} {vars : Variables} {o : Options} :
    ofArguments arguments vars = .ok o ↔ Follow arguments vars o := by
  have split : ofArguments arguments vars = (do
      let command ← commandOf ((firstWord? arguments).getD Command.train.name)
      let agent ← agentOf ((valueOf? .agent arguments).getD AgentKind.qlearning.name)
      let episodes ← readCount arguments .episodes
      let evalEvery ← readCount arguments .evalEvery
      let evalEpisodes ← readCount arguments .evalEpisodes
      let saveEvery ← readCount arguments .saveEvery
      let maxSteps ← readCount arguments .maxSteps
      let seed ← readSeed arguments vars
      .ok ⟨command, (valueOf? .language arguments).getD "calc",
        (valueOf? .task arguments).getD "001", names ((valueOf? .tasks arguments).getD ""), agent,
        episodes, evalEvery, evalEpisodes, saveEvery, maxSteps,
        (valueOf? .reward arguments).getD "correctness", seed,
        ((valueOf? .directory arguments).orElse fun () => vars.get? "RL_LOG_DIR").getD
          defaultDirectory,
        valueOf? .continueFrom arguments, arguments.contains .quiet,
        arguments.contains .help⟩) := by
    unfold ofArguments readSeed
    dsimp only
    cases ((valueOf? .seed arguments).orElse fun () => vars.get? "RL_SEED").filter (!·.isEmpty)
    · rfl
    · rfl
  rw [split]
  simp only [bind_eq_ok]
  constructor
  · rintro ⟨command, commanded, agent, acting, episodes, first, evalEvery, second, evalEpisodes,
      third, saveEvery, fourth, maxSteps, fifth, seed, seeded, made⟩
    cases made
    refine ⟨commanded, acting, fun n => ?_, seeded, rfl, rfl, rfl, rfl, rfl, rfl, rfl, rfl⟩
    cases n <;> assumption
  · rintro ⟨command, agent, count, seed, language, task, tasks, reward, directory, continueFrom,
      quiet, help⟩
    exact ⟨_, command, _, agent, _, count .episodes, _, count .evalEvery, _, count .evalEpisodes,
      _, count .saveEvery, _, count .maxSteps, _, seed, by
        rw [language, task, tasks, reward, directory, continueFrom, quiet, help]
        rfl⟩

/-- Options are read from texts if they follow from arguments that the texts spell. -/
theorem parse_eq_ok_iff {texts : List String} {vars : Variables} {o : Options} :
    parse texts vars = .ok o ↔ ∃ arguments, Spells arguments texts ∧ Follow arguments vars o := by
  unfold parse
  constructor
  · intro parsed
    split at parsed
    · next options read =>
      cases parsed
      obtain ⟨arguments, read, follow⟩ := bind_eq_ok.mp read
      exact ⟨arguments, readArguments_eq_ok_iff.mp read, ofArguments_eq_ok_iff.mp follow⟩
    · cases parsed
  · rintro ⟨arguments, spells, follow⟩
    have read : (readArguments texts).bind (ofArguments · vars) = .ok o :=
      bind_eq_ok.mpr ⟨arguments, readArguments_eq_ok_iff.mpr spells,
        ofArguments_eq_ok_iff.mpr follow⟩
    rw [read]

end Options
end ProgramGym.CommandLine
