import Mathlib.Data.List.Chain
import ProgramGym.Proofs.Checks
import ProgramGym.Proofs.Environment.Steps

/-! Runs of an environment: any sequence of resets and steps, whatever the actions are. Main
statement: while the interpreter does not fault, every state of a run is consistent, and the
reason that a step ends the episode for is the first that applies. -/
namespace ProgramGym

inductive Command (α : Type) where
  | reset
  | step (action : Quantity α)

namespace Environment
variable {α : Type} [Scalar α] {env : Environment α}

def apply (env : Environment α) : Command α → Environment α
  | .reset => env.reset.2
  | .step action => (env.step action).2

/-- The environment after commands, those that are refused among them. -/
def after (env : Environment α) (commands : List (Command α)) : Environment α :=
  commands.foldl apply env

theorem apply_rules (env : Environment α) (command : Command α) :
    (env.apply command).rules = env.rules := by
  cases command with
  | reset => rfl
  | step action => exact step_rules env action

theorem after_rules (env : Environment α) (commands : List (Command α)) :
    (env.after commands).rules = env.rules := by
  induction commands generalizing env with
  | nil => rfl
  | cons command commands ih => exact (ih (env.apply command)).trans (apply_rules env command)

/-- What holds between the parts of an environment as long as no interpreter faults. -/
structure Consistent (env : Environment α) : Prop where
  /-- The tokens are those that the actions name. -/
  named : env.episode.actions.map env.rules.tokenOf? = env.episode.tokens.map some
  emitted_le : env.episode.tokens.length ≤ env.episode.stepCount
  stepCount_le : env.episode.stepCount ≤ env.rules.settings.maxSteps
  exhausted : env.episode.stepCount = env.rules.settings.maxSteps → env.done = true
  recorded : env.transitions.length = env.episode.stepCount
  linked : env.transitions.IsChain fun s t => s.nextObservation = t.observation
  /-- The last transition led here. -/
  latest : ∀ t ∈ env.transitions.getLast?, t.nextObservation = env.observe ∧ t.done = env.done
  unfinished : ∀ t ∈ env.transitions.dropLast, t.done = false
  stop_last : ∀ token ∈ env.episode.tokens.dropLast, some token ≠ env.rules.settings.endToken
  stop_done : ∀ token ∈ env.episode.tokens,
    some token = env.rules.settings.endToken → env.done = true

theorem consistent_restart (env : Environment α) (budget : 0 < env.rules.settings.maxSteps) :
    Consistent env.restart where
  named := rfl
  emitted_le := Nat.zero_le _
  stepCount_le := Nat.zero_le _
  exhausted := fun spent => absurd spent budget.ne
  recorded := rfl
  linked := .nil
  latest := by simp [restart]
  unfinished := by simp [restart]
  stop_last := by simp [restart, Episode.start]
  stop_done := by simp [restart, Episode.start]

/-- While the episode goes on no step has used the budget up and none has emitted the end token. -/
theorem Consistent.stepCount_lt (consistent : env.Consistent) (going : env.done = false) :
    env.episode.stepCount < env.rules.settings.maxSteps := by
  have le := consistent.stepCount_le
  have ne : env.episode.stepCount ≠ env.rules.settings.maxSteps := fun spent => by
    simp [consistent.exhausted spent] at going
  omega

theorem Consistent.no_stop (consistent : env.Consistent) (going : env.done = false) :
    ∀ token ∈ env.episode.tokens, some token ≠ env.rules.settings.endToken := by
  intro token emitted stop
  simp [consistent.stop_done token emitted stop] at going

theorem Consistent.all_unfinished (consistent : env.Consistent) (going : env.done = false) :
    ∀ t ∈ env.transitions, t.done = false := by
  intro t recorded
  rcases List.eq_nil_or_concat env.transitions with none | ⟨earlier, last, all⟩
  · simp [none] at recorded
  · rw [List.concat_eq_append] at all
    have latest := consistent.latest last (by simp [all])
    have unfinished := consistent.unfinished
    simp only [all, List.dropLast_concat] at unfinished
    simp only [all, List.mem_append, List.mem_singleton] at recorded
    rcases recorded with recorded | rfl
    · exact unfinished t recorded
    · exact latest.2.trans going

theorem Consistent.conclusion_named (consistent : env.Consistent) (action : Quantity α)
    (outcome : Outcome α) (calls : Nat) :
    let next := (env.conclusion action outcome calls).2
    next.episode.actions.map next.rules.tokenOf? = next.episode.tokens.map some := by
  simp only [conclusion_tokens, conclusion_actions, conclusion_rules, List.map_append,
    consistent.named]
  cases valid : env.rules.tokenOf? action <;> simp [valid]

theorem Consistent.conclusion_emitted_le (consistent : env.Consistent) (action : Quantity α)
    (outcome : Outcome α) (calls : Nat) :
    let next := (env.conclusion action outcome calls).2
    next.episode.tokens.length ≤ next.episode.stepCount := by
  have emitted := consistent.emitted_le
  have one : (env.rules.tokenOf? action).toList.length ≤ 1 := by
    cases env.rules.tokenOf? action <;> simp
  simp only [conclusion_tokens, conclusion_stepCount, List.length_append]
  omega

/-- The tokens before the last one are tokens of the episode while it went on. -/
theorem Consistent.conclusion_stop_last (consistent : env.Consistent) (going : env.done = false)
    (action : Quantity α) (outcome : Outcome α) (calls : Nat) :
    ∀ token ∈ (env.conclusion action outcome calls).2.episode.tokens.dropLast,
      some token ≠ env.rules.settings.endToken := by
  intro token early
  refine consistent.no_stop going token ?_
  rw [conclusion_tokens] at early
  cases valid : env.rules.tokenOf? action with
  | none => simpa [valid] using (List.dropLast_sublist _).mem early
  | some _ => simpa [valid] using early

theorem Consistent.conclusion_stop_done (consistent : env.Consistent) (going : env.done = false)
    (action : Quantity α) (outcome : Outcome α) (calls : Nat) :
    ∀ token ∈ (env.conclusion action outcome calls).2.episode.tokens,
      some token = env.rules.settings.endToken →
        (env.conclusion action outcome calls).2.done = true := by
  intro token emitted stop
  rw [conclusion_tokens, List.mem_append, Option.mem_toList] at emitted
  rcases emitted with emitted | emitted
  · exact absurd stop (consistent.no_stop going token emitted)
  · have isStop : env.rules.isStop action = true := by
      simpa [Rules.isStop, Option.mem_def.mp emitted] using stop
    rw [done, Episode.done, conclusion_reason, isStop]
    exact env.rules.reason_of_stop _ _ _

/-- A step that is concluded keeps an environment consistent. -/
theorem consistent_conclusion (consistent : env.Consistent) (going : env.done = false)
    (action : Quantity α) (outcome : Outcome α) (calls : Nat) :
    Consistent (env.conclusion action outcome calls).2 := by
  obtain ⟨t, observation, nextObservation, done, transitions⟩ :=
    conclusion_transitions env action outcome calls
  refine
    { named := consistent.conclusion_named action outcome calls
      emitted_le := consistent.conclusion_emitted_le action outcome calls
      stepCount_le := consistent.stepCount_lt going
      exhausted := fun spent => env.rules.reason_of_budget _ _ _ (Nat.le_of_eq spent.symm)
      recorded := ?_
      linked := ?_
      latest := ?_
      unfinished := ?_
      stop_last := consistent.conclusion_stop_last going action outcome calls
      stop_done := consistent.conclusion_stop_done going action outcome calls }
  · rw [transitions, List.length_append, consistent.recorded, conclusion_stepCount,
      List.length_singleton]
  · rw [transitions]
    refine List.isChain_append.mpr ⟨consistent.linked, .singleton t, ?_⟩
    rintro last isLast _ ⟨⟩
    exact (consistent.latest last isLast).1.trans observation.symm
  · intro last isLast
    rw [transitions, List.getLast?_concat, Option.mem_some] at isLast
    exact isLast ▸ ⟨nextObservation, done⟩
  · rw [transitions, List.dropLast_concat]
    exact consistent.all_unfinished going

theorem consistent_after (total : env.rules.interpreter.NeverFaults)
    (budget : 0 < env.rules.settings.maxSteps) (start : env.Consistent)
    (commands : List (Command α)) : (env.after commands).Consistent := by
  induction commands generalizing env with
  | nil => exact start
  | cons command commands ih =>
    have rules := apply_rules env command
    refine ih (rules ▸ total) (rules ▸ budget) ?_
    cases command with
    | reset => exact consistent_restart env budget
    | step action =>
      rcases step_cases_total total action with ⟨_, taken⟩ | ⟨going, outcome, calls, _, taken⟩
      · simpa only [apply, taken] using start
      · simpa only [apply, taken] using consistent_conclusion start going action outcome calls

/-! What consistency says in terms of what a caller sees. -/

theorem Consistent.token_at (consistent : env.Consistent) {i : Nat} {token : Text}
    (emitted : env.episode.tokens[i]? = some token) :
    ∃ action index, env.episode.actions[i]? = some action ∧ action.index? = some index ∧
      env.rules.vocabulary[index]? = some token := by
  have named := congrArg (·[i]?) consistent.named
  simp only [List.getElem?_map, emitted, Option.map_some, Option.map_eq_some_iff] at named
  obtain ⟨action, taken, named⟩ := named
  obtain ⟨index, valid, token⟩ := Option.bind_eq_some_iff.mp named
  exact ⟨action, index, taken, valid, token⟩

theorem Consistent.stop_once (consistent : env.Consistent) {stop : Text}
    (configured : env.rules.settings.endToken = some stop) :
    env.episode.tokens.count stop ≤ 1 ∧ (stop ∈ env.episode.tokens →
      env.episode.tokens.getLast? = some stop ∧ env.done = true) := by
  rcases List.eq_nil_or_concat env.episode.tokens with none | ⟨earlier, last, all⟩
  · simp [none]
  · have early := consistent.stop_last
    have done := consistent.stop_done stop
    rw [List.concat_eq_append] at all
    rw [all, List.dropLast_concat] at early
    have absent : stop ∉ earlier := fun found => early stop found configured.symm
    rw [all] at done ⊢
    constructor
    · rw [List.count_append, List.count_eq_zero_of_not_mem absent, Nat.zero_add]
      exact List.count_le_length
    · intro emitted
      refine ⟨?_, done emitted configured.symm⟩
      rw [List.mem_append, List.mem_singleton] at emitted
      rw [List.getLast?_concat, emitted.resolve_left absent]

theorem isStop_iff {action : Quantity α} :
    env.rules.isStop action = true ↔ (env.rules.tokenOf? action).isSome = true ∧
      env.rules.tokenOf? action = env.rules.settings.endToken := by
  cases valid : env.rules.tokenOf? action <;> simp [Rules.isStop, valid]

/-- An episode that goes on takes every step; the step ends it for the first reason that applies,
or not at all. -/
theorem Consistent.step_reason (consistent : env.Consistent)
    (total : env.rules.interpreter.NeverFaults) (going : env.done = false)
    (action : Quantity α) :
    ∃ result next, env.step action = (.ok result, next) ∧
      result.info.token = env.rules.tokenOf? action ∧
      (result.info.outcome.matched = true ↔ result.info.outcome.success = true ∧
        ∃ text, result.info.outcome.output = some text ∧
          text.trim = env.rules.task.expectedOutput.trim) ∧
      next.episode.reason =
        if result.info.outcome.matched = true then some .success
        else if next.episode.stepCount = env.rules.settings.maxSteps then some .maxSteps
        else if result.info.token.isSome = true ∧
          result.info.token = env.rules.settings.endToken then some .naturalStop
        else if result.info.token = none ∧
          env.rules.settings.invalidActionPolicy = .terminate then some .invalidAction
        else none := by
  obtain ⟨outcome, calls, judged⟩ := judge_ok total action
  refine ⟨_, _, step_concluded going judged, rfl, judge_matched judged, ?_⟩
  have within := consistent.stepCount_lt going
  have budget : env.rules.settings.maxSteps ≤ env.episode.stepCount + 1 ↔
      (env.conclusion action outcome calls).2.episode.stepCount = env.rules.settings.maxSteps := by
    change _ ↔ env.episode.stepCount + 1 = _
    omega
  have refused : ((env.rules.tokenOf? action).isNone &&
      env.rules.settings.invalidActionPolicy == .terminate) = true ↔
      env.rules.tokenOf? action = none ∧ env.rules.settings.invalidActionPolicy = .terminate := by
    simp
  rw [conclusion_reason, conclusion_info]
  simp only [Rules.reason, budget, isStop_iff, refused]

end Environment

/-- Whatever is asked of an environment whose interpreter does not fault: its tokens are those its
actions name and fit the budget, an episode is over exactly when it has a reason, the transitions
are as many as the steps and follow on each other, the end token stands at the end of a finished
episode only, and a step of an episode that goes on ends it for the first reason that applies. -/
theorem Environment.run_consistent {task : Task} {vocabulary : Vocabulary}
    {interpreter : Interpreter Float} {reward : Reward Float} {request : SettingsRequest}
    {env : Environment Float}
    (created : create task vocabulary interpreter reward request = .ok env)
    (total : interpreter.NeverFaults) (commands : List (Command Float)) :
    let now := env.after commands
    let settings := env.rules.settings
    (now.episode.tokens.length = now.episode.actions.length ∧
      now.episode.actions.length ≤ now.episode.stepCount ∧
      now.episode.stepCount ≤ settings.maxSteps ∧
      ∀ (i : Nat) (token : Text), now.episode.tokens[i]? = some token →
        ∃ (action : Quantity Float) (index : Nat), now.episode.actions[i]? = some action ∧
          action.index? = some index ∧ vocabulary[index]? = some token) ∧
    ((now.done = true ↔ now.episode.reason ≠ none) ∧
      (now.episode.stepCount = settings.maxSteps → now.done = true)) ∧
    (now.trajectory.transitions.length = now.episode.stepCount ∧
      now.trajectory.transitions.IsChain (fun s t => s.nextObservation = t.observation) ∧
      ∀ t ∈ now.trajectory.transitions.dropLast, t.done = false) ∧
    (∀ stop, settings.endToken = some stop → now.episode.tokens.count stop ≤ 1 ∧
      (stop ∈ now.episode.tokens →
        now.episode.tokens.getLast? = some stop ∧ now.done = true)) ∧
    (now.done = true → ∀ action, now.step action = (.error .episodeOver, now)) ∧
    (now.done = false → ∀ action, ∃ result next, now.step action = (.ok result, next) ∧
      result.info.token = env.rules.tokenOf? action ∧
      (result.info.outcome.matched = true ↔ result.info.outcome.success = true ∧
        ∃ text, result.info.outcome.output = some text ∧
          text.trim = task.expectedOutput.trim) ∧
      next.episode.reason =
        if result.info.outcome.matched = true then some .success
        else if next.episode.stepCount = settings.maxSteps then some .maxSteps
        else if result.info.token.isSome = true ∧
          result.info.token = settings.endToken then some .naturalStop
        else if result.info.token = none ∧
          settings.invalidActionPolicy = .terminate then some .invalidAction
        else none) := by
  obtain ⟨settings, resolved, rfl⟩ := create_eq_ok created
  have budget := Settings.maxSteps_pos resolved
  have start : (ofRules ⟨settings, task, vocabulary, interpreter, reward⟩).Consistent :=
    consistent_restart (ofRules _) budget
  intro now _
  have rules : now.rules = ⟨settings, task, vocabulary, interpreter, reward⟩ :=
    after_rules _ commands
  have consistent : now.Consistent := consistent_after total budget start commands
  have lengths := congrArg List.length consistent.named
  have within := consistent.stepCount_le
  have exhausted := consistent.exhausted
  rw [List.length_map, List.length_map] at lengths
  rw [rules] at within exhausted
  refine ⟨⟨lengths.symm, lengths ▸ consistent.emitted_le, within, ?_⟩,
    ⟨by simp [done, Episode.done, Option.isSome_iff_ne_none], exhausted⟩,
    ⟨consistent.recorded, consistent.linked, consistent.unfinished⟩, ?_,
    fun ended action => step_done ended, ?_⟩
  · intro i token emitted
    simpa only [rules] using consistent.token_at emitted
  · intro stop configured
    exact consistent.stop_once (by rw [rules]; exact configured)
  · intro going action
    have taken := consistent.step_reason (rules ▸ total) going action
    rw [rules] at taken
    exact taken

theorem Interpreter.ofFunction_neverFaults {α : Type} [Scalar α] (name : String)
    (verdict : Text → Verdict) : (ofFunction name verdict : Interpreter α).NeverFaults :=
  fun _ program => ⟨verdict program, rfl⟩

/-- The task to write 42 with the tokens 4, 2 and END, within a number of steps. -/
def Environment.sample (maxSteps : Nat) (interpreter : Interpreter Float) :
    Except Fault (Environment Float) :=
  create ⟨"001", "echo", "", "42", none, none⟩ ["4", "2", "END"] interpreter
    (.correctness ⟨10, -0.1, -1, 2⟩) { maxSteps := .count maxSteps }

/-- An invalid action, a token and the end token use up a budget of three steps. -/
theorem Environment.run_consistent_sample :
    (Interpreter.ofFunction "echo" Interpreter.runEcho : Interpreter Float).NeverFaults ∧
    ∃ env, sample 3 (.ofFunction "echo" Interpreter.runEcho) = .ok env ∧
      let now := env.after [.step (.count 7), .step (.count 0), .step (.count 2)]
      now.episode.reason = some .maxSteps ∧ now.episode.tokens = ["4", "END"] ∧
      now.trajectory.transitions.length = now.episode.stepCount ∧
      ∀ action, now.step action = (.error .episodeOver, now) := by
  have total : (Interpreter.ofFunction "echo" Interpreter.runEcho : Interpreter Float).NeverFaults :=
    Interpreter.ofFunction_neverFaults "echo" Interpreter.runEcho
  refine ⟨total, _, rfl, by decide +kernel, by decide +kernel, ?_⟩
  have consistent := run_consistent
    (rfl : sample 3 (.ofFunction "echo" Interpreter.runEcho) = .ok _) total
    [.step (.count 7), .step (.count 0), .step (.count 2)]
  exact ⟨consistent.2.2.1.1, consistent.2.2.2.2.1 (by decide +kernel)⟩

end ProgramGym
