import ProgramGym.Proofs.Environment.Faults
import ProgramGym.Proofs.Environment.Policies
import ProgramGym.Proofs.Rollout.Simulation
import ProgramGym.Proofs.Trainer.Calls

/-! What a reset leaves of the past. Only the count of an interpreter's calls goes on, and where the
program alone decides what the interpreter does, nobody can tell it. Such environments are twins:
they answer alike for ever. An episode can be played again from its transitions, unless a fault has
emitted a token that no transition knows of. Main statement: after a reset neither actions nor
evaluations tell two pasts apart. -/
namespace ProgramGym

namespace Environment
variable {α : Type} [Scalar α]

/-- The second environment is the first one with a count of calls of its own. -/
def Twin (a b : Environment α) : Prop := b = a.withCalls b.calls

variable {a b c : Environment α}

omit [Scalar α] in
theorem twin_refl (a : Environment α) : Twin a a := rfl

omit [Scalar α] in
theorem Twin.symm (twin : Twin a b) : Twin b a := by
  rw [twin]
  rfl

omit [Scalar α] in
theorem Twin.trans (first : Twin a b) (second : Twin b c) : Twin a c := by
  rw [Twin, second, first]
  rfl

omit [Scalar α] in
theorem Twin.rules (twin : Twin a b) : b.rules = a.rules := by
  rw [twin]
  rfl

omit [Scalar α] in
theorem Twin.episode (twin : Twin a b) : b.episode = a.episode := by
  rw [twin]
  rfl

theorem Twin.trajectory (twin : Twin a b) : b.trajectory = a.trajectory := by
  rw [twin]
  rfl

/-- A reset leaves nothing of an episode, whatever it was like. -/
theorem twin_restart (rules : b.rules = a.rules) : Twin a.restart b.restart := by
  simp only [Twin, restart, withCalls, rules]

theorem Twin.step (twin : Twin a b) (functional : a.rules.interpreter.Functional)
    (action : Quantity α) :
    (a.step action).1 = (b.step action).1 ∧ Twin (a.step action).2 (b.step action).2 := by
  obtain ⟨count, stepped⟩ := step_withCalls functional action b.calls
  rw [twin, stepped]
  exact ⟨rfl, rfl⟩

theorem Twin.after (twin : Twin a b) (functional : a.rules.interpreter.Functional)
    (commands : List (Command α)) : Twin (a.after commands) (b.after commands) := by
  induction commands generalizing a b with
  | nil => exact twin
  | cons command commands ih =>
    have rules := apply_rules a command
    refine ih ?_ (rules ▸ functional)
    cases command with
    | reset => exact twin_restart twin.rules
    | step action => exact (twin.step functional action).2

/-- What actions are answered with, and episode and trajectory after each of them. -/
def transcript (env : Environment α) :
    List (Quantity α) → List (Except Fault (StepResult α) × Episode α × Trajectory α)
  | [] => []
  | action :: actions =>
    let next := (env.step action).2
    ((env.step action).1, next.episode, next.trajectory) :: next.transcript actions

theorem Twin.transcript (twin : Twin a b) (functional : a.rules.interpreter.Functional)
    (actions : List (Quantity α)) : a.transcript actions = b.transcript actions := by
  induction actions generalizing a b with
  | nil => rfl
  | cons action actions ih =>
    obtain ⟨answer, next⟩ := twin.step functional action
    have rules := step_rules a action
    simp only [Environment.transcript, answer, next.episode, next.trajectory,
      ih next (rules ▸ functional)]

/-! Episodes played again. -/

section
variable {env : Environment α} {action : Quantity α}

theorem play_concat (env : Environment α) (actions : List (Quantity α)) (action : Quantity α) :
    env.play (actions ++ [action]) = ((env.play actions).step action).2 := by
  simp [play, after, apply]

theorem twin_play (rules : b.rules = a.rules) (functional : a.rules.interpreter.Functional)
    (actions : List (Quantity α)) : Twin (a.play actions) (b.play actions) :=
  (twin_restart rules).after functional _

/-- The actions of the recorded steps. -/
def recorded (env : Environment α) : List (Quantity α) := env.transitions.map (·.action)

/-- The recorded actions lead through the episode again. -/
def Replays (env : Environment α) : Prop := Twin (env.play env.recorded) env

theorem replays_restart (env : Environment α) : Replays env.restart := twin_refl env.restart

/-- A step that is recorded is recorded with its action. -/
theorem replays_step (replays : Replays env) (functional : env.rules.interpreter.Functional)
    (unfailing : env.faultsOn action = false) : Replays (env.step action).2 := by
  have rules := step_rules env action
  rcases step_cases env action with ⟨_, taken⟩ | ⟨going, _, _, _, taken⟩ |
    ⟨_, outcome, calls, _, taken⟩
  · rwa [taken]
  · simp [faultsOn, going, taken, Except.isOk, Except.toBool] at unfailing
  · have recorded : (env.step action).2.recorded = env.recorded ++ [action] := by
      rw [taken]
      exact List.map_append
    -- the action is taken here, after playing again from here, and after playing again from there
    have again := (replays.symm.step functional action).2
    have played : (env.play env.recorded).rules = env.rules := after_rules env.restart _
    have other := (twin_play rules functional env.recorded).step (played ▸ functional) action
    rw [Replays, recorded, play_concat]
    exact (again.trans other.2).symm

theorem replays_after {before : Nat} (functional : env.rules.interpreter.Functional)
    (start : before = 0 → Replays env) (commands : List (Command α))
    (unfailing : env.faultsAfter before commands = 0) : Replays (env.after commands) := by
  induction commands generalizing env before with
  | nil => exact start unfailing
  | cons command commands ih =>
    have rules := apply_rules env command
    cases command with
    | reset => exact ih (rules ▸ functional) (fun _ => replays_restart env) unfailing
    | step action =>
      refine ih (rules ▸ functional) (fun none => ?_) unfailing
      obtain ⟨earlier, now⟩ := Nat.add_eq_zero_iff.mp none
      exact replays_step (start earlier) functional (by simpa using now)

/-- Every step is counted at most once. -/
theorem stepCount_after_le (env : Environment α) (actions : List (Quantity α)) :
    (env.after (actions.map .step)).episode.stepCount ≤ env.episode.stepCount + actions.length := by
  induction actions generalizing env with
  | nil => exact Nat.le_refl _
  | cons action actions ih =>
    have once : (env.step action).2.episode.stepCount ≤ env.episode.stepCount + 1 := by
      rcases step_cases env action with ⟨_, taken⟩ | ⟨_, _, _, _, taken⟩ | ⟨_, _, _, _, taken⟩ <;>
        rw [taken]
      · exact Nat.le_succ _
      · exact Nat.le_refl _
      · exact Nat.le_refl _
    have rest := ih (env.step action).2
    rw [List.length_cons]
    exact rest.trans (by omega)

/-- A fault spends a step that playing again does not. -/
theorem play_recorded_iff {faults : Nat} (accounted : env.Accounted faults)
    (replays : faults = 0 → Replays env) :
    (env.play env.recorded).episode = env.episode ↔ faults = 0 := by
  constructor
  · intro same
    have played := stepCount_after_le env.restart env.recorded
    have spent := accounted.spent
    change (env.play env.recorded).episode.stepCount ≤ 0 + env.recorded.length at played
    rw [same, recorded, List.length_map] at played
    omega
  · intro none
    exact (replays none).episode.symm

end

end Environment

/-! Evaluations. -/

namespace Scene

/-- The second scene differs from the first one in what its environment has been through. -/
structure Elsewhere (s t : Scene) : Prop where
  rules : t.env.rules = s.env.rules
  functional : s.env.rules.interpreter.Functional
  agent : t.agent = s.agent
  console : t.console = s.console

theorem Elsewhere.respects_runEpisode (train : Bool) (episode : Nat) :
    Op.Respects Elsewhere (runEpisode train episode) := by
  intro s t elsewhere
  obtain ⟨answer, agent⟩ := Rollout.run_ofRules train episode elsewhere.functional s.agent
  obtain ⟨other, follower⟩ := Rollout.run_ofRules train episode
    (elsewhere.rules ▸ elsewhere.functional : t.env.rules.interpreter.Functional) t.agent
  rw [elsewhere.rules, elsewhere.agent] at other follower
  rw [run_runEpisode, run_runEpisode]
  refine ⟨?_, ?_, ?_, ?_, elsewhere.console⟩
  · rw [answer, elsewhere.agent, other]
  · exact (Rollout.run_rules train episode t.env t.agent).trans
      (elsewhere.rules.trans (Rollout.run_rules train episode s.env s.agent).symm)
  · exact (Rollout.run_rules train episode s.env s.agent).symm ▸ elsewhere.functional
  · change (Rollout.run train episode t.env t.agent).2.2 =
      (Rollout.run train episode s.env s.agent).2.2
    rw [agent, elsewhere.agent, follower]

theorem Elsewhere.respects_evaluate (verbose : Bool) (count : Quantity Float) :
    Op.Respects Elsewhere (evaluate verbose count) := by
  refine Scene.respects_evaluate (respects_runEpisode false) (fun text => ?_) (fun s t elsewhere => ?_)
    verbose count
  · refine Op.respects_modify fun s t elsewhere => ?_
    exact { elsewhere with console := congrArg (· ++ _) elsewhere.console }
  · rw [elsewhere.rules, elsewhere.agent]
    exact ⟨rfl, rfl⟩

/-- What greedy episodes keep of an agent, an evaluation keeps, however it ends. -/
theorem evaluate_keeps {p : Agent → Prop}
    (kept : ∀ a episode env, p a → p (Rollout.run false episode env a).2.2) {a : Agent}
    (holds : p a) (verbose : Bool) (count : Quantity Float) (env : Environment Float)
    (console : List Entry) : p ((evaluate verbose count).run ⟨env, a, console⟩).2.agent := by
  cases counted : count.index? with
  | none =>
    have refused : requireCount "nEpisodes" count =
        .error (.configuration (.negativeCount "nEpisodes" count.text)) := by
      rw [requireCount, counted]
    simp only [evaluate, greedyEpisodes, refused]
    exact holds
  | some n =>
    have same : evaluate verbose count = evaluate verbose (.count n) := by
      have accepted : requireCount "nEpisodes" count = requireCount "nEpisodes" (.count n) := by
        rw [requireCount, counted]
        rfl
      rw [evaluate, greedyEpisodes, accepted]
      rfl
    have episode (number : Nat) : Op.Ensures (fun s => p s.agent) (runEpisode false number)
        (fun _ s => p s.agent) fun _ s => p s.agent := by
      intro s holds
      have after := kept s.agent number s.env holds
      rw [run_runEpisode]
      cases (Rollout.run false number s.env s.agent).1 <;> exact after
    have led := ensures_evaluate (fun _ _ => id) episode verbose n ⟨env, a, console⟩ holds
    rw [same]
    rcases ran : (evaluate verbose (.count n)).run ⟨env, a, console⟩ with ⟨_ | _, t⟩ <;>
      rw [ran] at led <;> exact led

/-- A learner's evaluation leaves the learner as it was. -/
theorem evaluate_agent {a : Agent} (learner : a.kind ≠ .random) (verbose : Bool)
    (count : Quantity Float) (env : Environment Float) (console : List Entry) :
    ((evaluate verbose count).run ⟨env, a, console⟩).2.agent = a :=
  evaluate_keeps (p := (· = a))
    (fun _ number env same => (Agent.run_greedy_self (same ▸ learner) number env).trans same) rfl
    verbose count env console

end Scene

namespace Environment

/-- Two environments that were made alike, whatever each of them has been through: episodes that
were finished or broken off, and faults. If the program alone decides what the interpreter does,
they are told apart neither by the first observation of a new episode nor by what actions are
answered with in it, and an agent is evaluated alike in both. The steps that are recorded of an
episode lead through it again exactly if it has met with no fault. -/
theorem reset_forgets {task : Task} {vocabulary : Vocabulary} {interpreter : Interpreter Float}
    {reward : Reward Float} {request : SettingsRequest} {made : Environment Float}
    (created : create task vocabulary interpreter reward request = .ok made)
    (functional : interpreter.Functional) (past past' : List (Command Float)) :
    let used := made.after past
    let other := made.after past'
    let again := used.reset.2.after (used.trajectory.transitions.map fun t => .step t.action)
    used.reset.1 = other.reset.1 ∧
    (∀ actions, used.reset.2.transcript actions = other.reset.2.transcript actions) ∧
    ((again.episode = used.episode ↔ made.faultsAfter 0 past = 0) ∧
      (made.faultsAfter 0 past = 0 → again.trajectory = used.trajectory)) ∧
    ∀ (agent : Agent) (verbose : Bool) (count : Quantity Float) (console : List Entry),
      let here := (Scene.evaluate verbose count).run ⟨used, agent, console⟩
      let there := (Scene.evaluate verbose count).run ⟨other, agent, console⟩
      here.1 = there.1 ∧ here.2.console = there.2.console ∧ here.2.agent = there.2.agent ∧
        (agent.kind ≠ .random → here.2.agent = agent) := by
  obtain ⟨settings, resolved, built⟩ := create_eq_ok created
  have fresh : made = made.restart := by
    rw [built]
    rfl
  have budget : 0 < made.rules.settings.maxSteps := by
    rw [built]
    exact Settings.maxSteps_pos resolved
  have functional : made.rules.interpreter.Functional := by rwa [built]
  intro used other again
  have rules : used.rules = made.rules := after_rules made past
  have same : other.rules = used.rules := (after_rules made past').trans rules.symm
  have alike : used.rules.interpreter.Functional := rules ▸ functional
  have twin : Twin used.restart other.restart := twin_restart same
  refine ⟨?_, fun actions => twin.transcript alike actions, ?_,
    fun agent verbose count console => ?_⟩
  · change used.restart.observe = other.restart.observe
    rw [twin]
    rfl
  · have start : made.Accounted 0 ∧ Replays made := by
      rw [fresh]
      exact ⟨accounted_restart made budget, replays_restart made⟩
    have replays (unfailing : made.faultsAfter 0 past = 0) : Replays used :=
      replays_after functional (fun _ => start.2) past unfailing
    have played : again = used.play used.recorded := by
      rw [play, recorded, List.map_map]
      rfl
    rw [played]
    refine ⟨play_recorded_iff (accounted_after budget start.1 past) replays, fun unfailing => ?_⟩
    exact (replays unfailing).trajectory.symm
  · have elsewhere : Scene.Elsewhere ⟨used, agent, console⟩ ⟨other, agent, console⟩ :=
      ⟨same, alike, rfl, rfl⟩
    obtain ⟨answer, left⟩ := Scene.Elsewhere.respects_evaluate verbose count _ _ elsewhere
    exact ⟨answer, left.console.symm, left.agent.symm, fun learner =>
      Scene.evaluate_agent learner verbose count used console⟩

/-- An echo that crashes on one program. -/
def brittle : Interpreter Float where
  name := "echo"
  run _ program :=
    if program == "4" then .error (.failure "crash") else .ok (Interpreter.runEcho program)
  similarity := Similarity.positional

theorem reset_forgets_sample :
    brittle.Functional ∧ ∃ env, sample 3 brittle = .ok env ∧
      let crashed := env.after [.step (.count 0), .step (.count 2)]
      let past := [.step (.count 0), .step (.count 2), .reset, .step (.count 1), .step (.count 7)]
      let used := env.after past
      env.faultsAfter 0 [.step (.count 0), .step (.count 2)] = 1 ∧ env.faultsAfter 0 past = 0 ∧
      (∀ actions, crashed.reset.2.transcript actions = env.reset.2.transcript actions) ∧
      used.trajectory.transitions.length = 2 ∧
      (used.reset.2.after [.step (.count 1), .step (.count 7)]).trajectory = used.trajectory ∧
      ∀ agent : Agent, ((Scene.evaluate true (.count 2)).run ⟨used, agent, []⟩).1 =
        ((Scene.evaluate true (.count 2)).run ⟨env, agent, []⟩).1 := by
  have functional : brittle.Functional := fun _ _ _ => rfl
  have made : sample 3 brittle = .ok _ := rfl
  have forgets := reset_forgets made functional
  refine ⟨functional, _, made, by decide +kernel, by decide +kernel, (forgets _ []).2.1,
    by decide +kernel, ?_, fun agent => ((forgets _ []).2.2.2 agent true (.count 2) []).1⟩
  exact (forgets [.step (.count 0), .step (.count 2), .reset, .step (.count 1), .step (.count 7)]
    []).2.2.1.2 (by decide +kernel)

end Environment
end ProgramGym
