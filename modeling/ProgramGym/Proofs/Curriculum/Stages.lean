import ProgramGym.Curriculum
import ProgramGym.Proofs.Resetting
import ProgramGym.Proofs.Rollout.Evaluations
import ProgramGym.Proofs.Trainer.Advancing
import ProgramGym.Proofs.Trainer.Books
import ProgramGym.Proofs.Trainer.Console

/-! A curriculum beside new trainers in turn. A stage within a curriculum does what it does alone,
since what a trainer does depends on nothing that was written to the console; so a curriculum is its
stages in turn and greedy evaluations after them, which keep of the agent all but what a random
choice draws from. Main statement: a curriculum is refused before anything happens, or is its stages
in turn, each of which reports itself. -/
namespace ProgramGym

namespace Agent

/-- The second agent differs from the first one in what it draws from. -/
def Redrawn (a b : Agent) : Prop := ∃ source, b = { a with source }

theorem Redrawn.run_greedy {a b : Agent} (redrawn : a.Redrawn b) (episode : Nat)
    (env : Environment Float) : a.Redrawn (Rollout.run false episode env b).2.2 := by
  obtain ⟨source, rfl⟩ := redrawn
  exact ⟨_, run_greedy_source _ episode env⟩

end Agent

def Stage.call (stage : Stage) : TrainingCall := ⟨stage.episodes, stage.evalEvery, stage.saveEvery⟩

/-- The number of episodes that a stage is accepted for. -/
def Stage.count (stage : Stage) : Nat := stage.call.accepted?.getD 0

/-- What the answer of a stage says: its place, its name, and its episodes from the first on. -/
structure StageResult.Reports (n : Nat) (stage : Stage) (r : StageResult) : Prop where
  place : r.stage = n
  name : stage.name = .text r.name
  totalEpisodes : r.result.totalEpisodes = stage.count
  numbered : r.result.history.map (·.episode) = List.range' 1 stage.count

/-- A stage that an agent of these spaces can run episodes in. -/
structure Stage.Ready (spaces : Spaces) (stage : Stage) : Prop where
  named : ∃ name, stage.name = .text name
  budget : 0 < stage.env.rules.settings.maxSteps
  total : stage.env.rules.interpreter.NeverFaults
  small : stage.env.rules.spaces.actions ≤ Quantity.exactBound
  spaces : stage.env.rules.spaces = spaces

/-- A stage as it is asked for: its name is a text, and its environment was made for an interpreter
that never faults and has been through anything since. -/
structure Stage.Built (stage : Stage) : Prop where
  named : ∃ name, stage.name = .text name
  made : ∃ task vocabulary interpreter reward request fresh commands,
    Environment.create task vocabulary interpreter reward request = .ok fresh ∧
    interpreter.NeverFaults ∧ vocabulary.length ≤ Quantity.exactBound ∧
    stage.env = fresh.after commands

theorem Stage.Built.ready {stage : Stage} (built : stage.Built) {spaces : Spaces}
    (same : stage.env.rules.spaces = spaces) : stage.Ready spaces := by
  obtain ⟨named, task, vocabulary, interpreter, reward, request, fresh, commands, created, total,
    small, env⟩ := built
  have rules : stage.env.rules = fresh.rules := by rw [env, Environment.after_rules]
  obtain ⟨settings, resolved, rfl⟩ := Environment.create_eq_ok created
  exact
    { named
      budget := rules ▸ Settings.maxSteps_pos resolved
      total := rules ▸ total
      small := rules ▸ small
      spaces := same }

namespace Curriculum
variable {ω : Type}

/-- What training has come to, apart from the console: its answer, the agent, the files, and the
environments that were trained in. -/
structure Trained (ω β : Type) where
  answer : Except Fault β
  agent : Agent
  world : ω
  envs : List (Environment Float)

/-- What the trainers of all stages do, if their settings are accepted. -/
def Request.plan (request : Request ω) : Except Fault TrainingPlan :=
  TrainingPlan.resolve { request.training with verbose := request.verbose }

/-- The trainer of a stage. -/
def stageTrainer (request : Request ω) (n : Nat) (name : Text) (env : Environment Float)
    (agent : Agent) (console : List Entry) (world : ω) : Except Fault (Trainer ω) :=
  Trainer.create { request.training with verbose := request.verbose }
    (request.storage (stageDirectory request.directory s!"{n}" name)) ⟨env, agent, console⟩ world

theorem stageTrainer_eq (request : Request ω) (n : Nat) (name : Text) (env : Environment Float)
    (agent : Agent) (console : List Entry) (world : ω) :
    stageTrainer request n name env agent console world = request.plan.map fun plan =>
      ⟨plan, request.storage (stageDirectory request.directory s!"{n}" name), ⟨env, agent, console⟩,
        world, [], [], [], [], []⟩ := by
  unfold stageTrainer Trainer.create Request.plan
  cases TrainingPlan.resolve { request.training with verbose := request.verbose } <;> rfl

/-- One stage with nothing around it: a trainer that is new, and one call of it. -/
def alone (request : Request ω) (n : Nat) (stage : Stage) (agent : Agent) (world : ω) :
    Trained ω StageResult :=
  match stage.name.text? with
  | none => ⟨.error .wrongKind, agent, world, []⟩
  | some name =>
    match stageTrainer request n name stage.env agent [] world with
    | .error e => ⟨.error e, agent, world, []⟩
    | .ok trainer =>
      let ran := (Trainer.call stage.call).run trainer
      ⟨ran.1.map (⟨n, name, ·⟩), ran.2.scene.agent, ran.2.world, [ran.2.scene.env]⟩

/-- Stages one after the other, each with the agent and the files that the one before has left. -/
def inTurn (request : Request ω) :
    (n : Nat) → List Stage → Agent → ω → Trained ω (List StageResult)
  | _, [], agent, world => ⟨.ok [], agent, world, []⟩
  | n, stage :: rest, agent, world =>
    let first := alone request n stage agent world
    match first.answer with
    | .error e => ⟨.error e, first.agent, first.world, first.envs⟩
    | .ok r =>
      let others := inTurn request (n + 1) rest first.agent first.world
      ⟨others.answer.map (r :: ·), others.agent, others.world, first.envs ++ others.envs⟩

theorem run_log (verbose : Bool) (text : String) (s : State ω) :
    ∃ console, (log verbose text).run s = (.ok (), { s with console }) := by
  cases verbose with
  | true => exact ⟨_, rfl⟩
  | false => exact ⟨s.console, rfl⟩

/-- What a stage does with its trainer. -/
def trainWith (request : Request ω) (n : Nat) (name : Text) (call : TrainingCall)
    (envs : List (Environment Float)) (trainer : Trainer ω) : Op (State ω) StageResult := do
  let (outcome, trainer) := (Trainer.call call).run trainer
  set (⟨trainer.scene.agent, trainer.scene.console, trainer.world,
    envs ++ [trainer.scene.env]⟩ : State ω)
  let result ← Op.ofExcept outcome
  log request.verbose (s!"[Curriculum] Stage {n} complete: success rate "
    ++ Number.percent result.rollingSuccessRate)
  pure ⟨n, name, result⟩

theorem run_trainWith (request : Request ω) (n : Nat) (name : Text) (call : TrainingCall)
    (envs : List (Environment Float)) (trainer : Trainer ω) (s : State ω) :
    let ran := (Trainer.call call).run trainer
    ∃ console, (trainWith request n name call envs trainer).run s =
      (ran.1.map (⟨n, name, ·⟩),
        ⟨ran.2.scene.agent, console, ran.2.world, envs ++ [ran.2.scene.env]⟩) := by
  rcases ran : (Trainer.call call).run trainer with ⟨e | result, after⟩
  · refine ⟨after.scene.console, ?_⟩
    rw [trainWith, ran]
    rfl
  · let left : State ω :=
      ⟨after.scene.agent, after.scene.console, after.world, envs ++ [after.scene.env]⟩
    let report := s!"[Curriculum] Stage {n} complete: success rate "
      ++ Number.percent result.rollingSuccessRate
    obtain ⟨console, logged⟩ := run_log request.verbose report left
    have trained : (trainWith request n name call envs trainer).run s =
        (log request.verbose report >>= fun _ => pure ⟨n, name, result⟩).run left := by
      rw [trainWith, ran]
      rfl
    rw [trained, Op.run_bind, logged]
    exact ⟨console, rfl⟩

theorem trainStage_eq (request : Request ω) (total n : Nat) (stage : Stage) :
    trainStage request total n stage = (do
      log request.verbose s!"\n[Curriculum] Stage {n}/{total}: {stage.name.wording}"
      match stage.name.text? with
      | none => throw .wrongKind
      | some name => do
        let s ← get
        let trainer ← Op.ofExcept
          (stageTrainer request n name stage.env s.agent s.console s.world)
        trainWith request n name stage.call s.envs trainer) := by
  unfold trainStage
  cases stage.name.text? <;> rfl

/-- A stage within a curriculum comes to what it comes to alone. -/
theorem run_trainStage (request : Request ω) (total n : Nat) (stage : Stage) (s : State ω) :
    let one := alone request n stage s.agent s.world
    ∃ console, (trainStage request total n stage).run s =
      (one.answer, ⟨one.agent, console, one.world, s.envs ++ one.envs⟩) := by
  obtain ⟨shown, logged⟩ := run_log request.verbose
    s!"\n[Curriculum] Stage {n}/{total}: {stage.name.wording}" s
  rw [trainStage_eq, Op.run_bind, logged, alone]
  cases stage.name.text? with
  | none => exact ⟨shown, by rw [List.append_nil]; rfl⟩
  | some name =>
    have made : stageTrainer request n name stage.env s.agent shown s.world =
        (stageTrainer request n name stage.env s.agent [] s.world).map (Trainer.relog shown) :=
      Trainer.create_relog _ _ stage.env s.agent [] shown s.world
    change ∃ console, (Op.ofExcept (stageTrainer request n name stage.env s.agent shown s.world) >>=
      trainWith request n name stage.call s.envs).run { s with console := shown } = _
    rw [made]
    simp only
    rcases stageTrainer request n name stage.env s.agent [] s.world with e | trainer
    · exact ⟨shown, by rw [List.append_nil]; rfl⟩
    · obtain ⟨written, ran⟩ := Trainer.run_call_relog stage.call trainer shown
      obtain ⟨console, trained⟩ := run_trainWith request n name stage.call s.envs
        (trainer.relog shown) { s with console := shown }
      rw [ran] at trained
      exact ⟨console, trained⟩

theorem run_trainStages (request : Request ω) (total n : Nat) (stages : List Stage) (s : State ω) :
    let turns := inTurn request n stages s.agent s.world
    ∃ console, (trainStages request total n stages).run s =
      (turns.answer, ⟨turns.agent, console, turns.world, s.envs ++ turns.envs⟩) := by
  induction stages generalizing n s with
  | nil => exact ⟨s.console, by rw [inTurn, List.append_nil]; rfl⟩
  | cons stage rest ih =>
    obtain ⟨shown, first⟩ := run_trainStage request total n stage s
    rw [trainStages, Op.run_bind, first, inTurn]
    simp only
    cases (alone request n stage s.agent s.world).answer with
    | error e => exact ⟨shown, rfl⟩
    | ok r =>
      obtain ⟨console, others⟩ := ih (n + 1) ⟨(alone request n stage s.agent s.world).agent, shown,
        (alone request n stage s.agent s.world).world,
        s.envs ++ (alone request n stage s.agent s.world).envs⟩
      refine ⟨console, ?_⟩
      simp only [Op.run_bind, others, List.append_assoc]
      cases (inTurn request (n + 1) rest (alone request n stage s.agent s.world).agent
        (alone request n stage s.agent s.world).world).answer <;> rfl

theorem requireSpaces_cases (expected : Spaces) (stages : List Stage) :
    ((∀ stage ∈ stages, stage.env.rules.spaces = expected) ∧
      requireSpaces expected stages = .ok ()) ∨
    ((∃ stage ∈ stages, stage.env.rules.spaces ≠ expected) ∧
      ∃ cause, requireSpaces expected stages = .error (.configuration cause)) := by
  induction stages with
  | nil => exact .inl ⟨fun stage inside => absurd inside List.not_mem_nil, rfl⟩
  | cons stage rest ih =>
    by_cases same : stage.env.rules.spaces = expected
    · have checked : requireSpaces expected (stage :: rest) = requireSpaces expected rest := by
        simp only [requireSpaces, List.forM, same, beq_self_eq_true, if_true]
        rfl
      rw [checked]
      rcases ih with ⟨alike, passed⟩ | ⟨⟨other, inside, differs⟩, refused⟩
      · exact .inl ⟨List.forall_mem_cons.mpr ⟨same, alike⟩, passed⟩
      · exact .inr ⟨⟨other, List.mem_cons_of_mem _ inside, differs⟩, refused⟩
    · have refused : requireSpaces expected (stage :: rest) =
          .error (.configuration (.stageSpaces stage.name.wording stage.env.rules.spaces.actions
            stage.env.rules.spaces.features expected.actions expected.features)) := by
        simp only [requireSpaces, List.forM, beq_iff_eq, same, if_false]
        rfl
      exact .inr ⟨⟨stage, List.mem_cons_self, same⟩, _, refused⟩

/-- A curriculum whose spaces agree is its stages in turn and, if these are answered, an evaluation
on every stage. -/
theorem run_eq (request : Request ω) {stages : List Stage} (some : stages ≠ []) {spaces : Spaces}
    (same : ∀ stage ∈ stages, stage.env.rules.spaces = spaces) (s : State ω) :
    let turns := inTurn request 1 stages s.agent s.world
    ∃ console,
      let left : State ω := ⟨turns.agent, console, turns.world, s.envs ++ turns.envs⟩
      (run request stages).run s = match turns.answer with
        | .error e => (.error e, left)
        | .ok results =>
          let judged :=
            (evaluateStages request ((results.map (·.name)).zip left.envs) []).run left
          (judged.1.map (⟨results, ·⟩), judged.2) := by
  obtain ⟨first, rest, rfl⟩ := List.exists_cons_of_ne_nil some
  obtain ⟨shown, logged⟩ := run_log request.verbose
    ("[Curriculum] Task sequence: "
      ++ " -> ".intercalate ((first :: rest).map (·.name.inSequence))) s
  obtain ⟨console, trained⟩ := run_trainStages request (first :: rest).length 1 (first :: rest)
    { s with console := shown }
  have checked : requireSpaces first.env.rules.spaces (first :: rest) = .ok () := by
    rcases requireSpaces_cases first.env.rules.spaces (first :: rest) with
      ⟨_, passed⟩ | ⟨⟨stage, inside, differs⟩, _⟩
    · exact passed
    · exact absurd ((same stage inside).trans (same first List.mem_cons_self).symm) differs
  refine ⟨console, ?_⟩
  rw [run, checked, Op.run_bind, Op.run_ofExcept]
  simp only
  rw [Op.run_bind, logged]
  simp only
  rw [Op.run_bind, trained]
  simp only
  generalize inTurn request 1 (first :: rest) s.agent s.world = turns
  cases turns.answer with
  | error e => rfl
  | ok results =>
    exact Op.run_bind_pure (evaluateStages request ((results.map (·.name)).zip _) [])
      (CurriculumResult.mk results) ⟨turns.agent, console, turns.world, s.envs ++ turns.envs⟩

theorem run_evaluateOn (request : Request ω) (env : Environment Float) (s : State ω) :
    let judged := (Scene.evaluate request.verbose request.finalEvalEpisodes).run
      ⟨env, s.agent, s.console⟩
    (evaluateOn request env).run s =
      (judged.1, { s with agent := judged.2.agent, console := judged.2.console }) := by
  rcases judged : (Scene.evaluate request.verbose request.finalEvalEpisodes).run
    ⟨env, s.agent, s.console⟩ with ⟨e | metrics, t⟩ <;>
  · have here : (get : Op (State ω) (State ω)).run s = (.ok s, s) := rfl
    rw [evaluateOn, Op.run_bind, here]
    simp only [judged]
    rfl

/-- Evaluations keep of the agent what greedy episodes keep, however they end. -/
theorem evaluateStages_keeps {p : Agent → Prop}
    (kept : ∀ a episode env, p a → p (Rollout.run false episode env a).2.2) (request : Request ω)
    (pairs : List (Text × Environment Float)) (evaluated : Json.Members (Metrics Float))
    (s : State ω) (holds : p s.agent) :
    ∃ agent console, p agent ∧
      ((evaluateStages request pairs evaluated).run s).2 = { s with agent, console } := by
  induction pairs generalizing evaluated s with
  | nil => exact ⟨s.agent, s.console, holds, rfl⟩
  | cons pair rest ih =>
    have after := Scene.evaluate_keeps kept holds request.verbose request.finalEvalEpisodes pair.2
      s.console
    rw [evaluateStages, Op.run_bind, run_evaluateOn]
    rcases judged : (Scene.evaluate request.verbose request.finalEvalEpisodes).run
      ⟨pair.2, s.agent, s.console⟩ with ⟨e | metrics, t⟩ <;> rw [judged] at after
    · exact ⟨t.agent, t.console, after, rfl⟩
    · obtain ⟨agent, console, kept, left⟩ := ih (evaluated.put pair.1 metrics)
        { s with agent := t.agent, console := t.console } after
      exact ⟨agent, console, kept, left⟩

/-- What a stage that is answered leaves: an agent of the kind that it was given, and the rules of
its environment. -/
theorem alone_keeps {request : Request ω} {n : Nat} {stage : Stage}
    (budget : 0 < stage.env.rules.settings.maxSteps) {agent : Agent} {world : ω} {r : StageResult}
    (answered : (alone request n stage agent world).answer = .ok r) :
    stage.name = .text r.name ∧ agent.Alike (alone request n stage agent world).agent ∧
      (alone request n stage agent world).envs.map (·.rules) = [stage.env.rules] := by
  cases named : stage.name with
  | foreign value =>
    rw [alone, named] at answered
    cases answered
  | text name =>
    have came : alone request n stage agent world =
        match stageTrainer request n name stage.env agent [] world with
        | .error e => ⟨.error e, agent, world, []⟩
        | .ok trainer =>
          let ran := (Trainer.call stage.call).run trainer
          ⟨ran.1.map (⟨n, name, ·⟩), ran.2.scene.agent, ran.2.world, [ran.2.scene.env]⟩ := by
      rw [alone, named]
      rfl
    rw [came] at answered ⊢
    cases made : stageTrainer request n name stage.env agent [] world with
    | error e =>
      rw [made] at answered
      cases answered
    | ok trainer =>
      rw [made] at answered
      obtain ⟨plan, _, rfl⟩ := Trainer.create_eq_ok made
      obtain ⟨rules, alike⟩ := Trainer.call_employs stage.call
        ⟨plan, _, ⟨stage.env, agent, []⟩, world, [], [], [], [], []⟩ budget
      obtain ⟨result, _, rfl⟩ := map_eq_ok.mp answered
      exact ⟨rfl, alike, congrArg (fun rules => [rules]) rules⟩

theorem inTurn_keeps {request : Request ω} {stages : List Stage}
    (budget : ∀ stage ∈ stages, 0 < stage.env.rules.settings.maxSteps) {n : Nat} {agent : Agent}
    {world : ω} {results : List StageResult}
    (answered : (inTurn request n stages agent world).answer = .ok results) :
    results.map (StageName.text ·.name) = stages.map (·.name) ∧
      agent.Alike (inTurn request n stages agent world).agent ∧
      (inTurn request n stages agent world).envs.map (·.rules) = stages.map (·.env.rules) := by
  induction stages generalizing n agent world results with
  | nil =>
    cases answered
    exact ⟨rfl, ⟨rfl, rfl⟩, rfl⟩
  | cons stage rest ih =>
    obtain ⟨one, budget⟩ := List.forall_mem_cons.mp budget
    rw [inTurn] at answered ⊢
    cases first : (alone request n stage agent world).answer with
    | error e =>
      rw [first] at answered
      cases answered
    | ok r =>
      rw [first] at answered
      obtain ⟨name, ⟨spaces, kind⟩, rules⟩ := alone_keeps one first
      obtain ⟨others, rested, rfl⟩ := map_eq_ok.mp answered
      obtain ⟨names, alike, same⟩ := ih budget rested
      refine ⟨?_, ⟨alike.1.trans spaces, alike.2.trans kind⟩, ?_⟩
      · rw [List.map_cons, List.map_cons, names, name]
      · rw [List.map_append, rules, same]
        rfl

theorem evaluateStages_refused {request : Request ω}
    (refused : request.finalEvalEpisodes.index? = none) {pairs : List (Text × Environment Float)}
    (some : pairs ≠ []) (evaluated : Json.Members (Metrics Float)) (s : State ω) :
    ((evaluateStages request pairs evaluated).run s).1 =
      .error (.configuration (.negativeCount "nEpisodes" request.finalEvalEpisodes.text)) := by
  obtain ⟨pair, rest, rfl⟩ := List.exists_cons_of_ne_nil some
  have counted : Scene.requireCount "nEpisodes" request.finalEvalEpisodes =
      .error (.configuration (.negativeCount "nEpisodes" request.finalEvalEpisodes.text)) := by
    rw [Scene.requireCount, refused]
  rw [evaluateStages, Op.run_bind, run_evaluateOn, Scene.evaluate, Scene.greedyEpisodes, counted]
  rfl

/-- An evaluation answers on an environment that cannot fail an agent of its width. -/
theorem evaluate_answers {env : Environment Float} (budget : 0 < env.rules.settings.maxSteps)
    (total : env.rules.interpreter.NeverFaults) {a : Agent}
    (fits : a.spaces.features = env.rules.spaces.features) {count : Quantity Float} {n : Nat}
    (counted : count.index? = some n) (verbose : Bool) (console : List Entry) :
    ∃ metrics t, (Scene.evaluate verbose count).run ⟨env, a, console⟩ = (.ok metrics, t) := by
  obtain ⟨records, next, after, ran, _⟩ :=
    Rollout.episodes_unfailing (Rollout.unfailing_greedy _) fits budget total rfl 1 n
  obtain ⟨written, evaluated⟩ := Scene.run_evaluate counted ran verbose console
  exact ⟨_, _, evaluated⟩

theorem evaluateStages_answers {request : Request ω} {n : Nat}
    (counted : request.finalEvalEpisodes.index? = some n) {spaces : Spaces}
    {pairs : List (Text × Environment Float)}
    (ready : ∀ pair ∈ pairs, 0 < pair.2.rules.settings.maxSteps ∧
      pair.2.rules.interpreter.NeverFaults ∧ pair.2.rules.spaces = spaces)
    (evaluated : Json.Members (Metrics Float)) {s : State ω} (fits : s.agent.spaces = spaces) :
    ∃ members t, (evaluateStages request pairs evaluated).run s = (.ok members, t) := by
  induction pairs generalizing evaluated s with
  | nil => exact ⟨evaluated, s, rfl⟩
  | cons pair rest ih =>
    obtain ⟨⟨budget, total, same⟩, ready⟩ := List.forall_mem_cons.mp ready
    obtain ⟨metrics, t, judged⟩ := evaluate_answers budget total
      (congrArg Spaces.features (fits.trans same.symm)) counted request.verbose s.console
    have kept := Scene.evaluate_keeps (p := (·.spaces = spaces))
      (fun a episode env fits => by rw [a.run_greedy_source episode env]; exact fits) fits
      request.verbose request.finalEvalEpisodes pair.2 s.console
    rw [judged] at kept
    rw [evaluateStages, Op.run_bind, run_evaluateOn, judged]
    exact ih ready _ kept

theorem alone_advances {request : Request ω} {plan : TrainingPlan}
    (resolved : request.plan = .ok plan) (lenient : request.training.stopOnFailure = false)
    {spaces : Spaces} {stage : Stage} (ready : stage.Ready spaces) {count : Nat}
    (accepted : stage.call.accepted? = some count) {agent : Agent} (able : agent.Able spaces)
    (n : Nat) (world : ω) :
    ∃ r b after env, alone request n stage agent world = ⟨.ok r, b, after, [env]⟩ ∧
      r.Reports n stage ∧ b.Able spaces ∧
      b.episodes = Quantity.next^[stage.count] agent.episodes := by
  obtain ⟨name, named⟩ := ready.named
  obtain ⟨trainer, made⟩ : ∃ trainer,
      stageTrainer request n name stage.env agent [] world = .ok trainer := by
    rw [stageTrainer_eq, resolved]
    exact ⟨_, rfl⟩
  have start := Trainer.create_advanced made (ready.spaces ▸ able) lenient
  obtain ⟨result, after, ran, advanced, totalEpisodes, numbered⟩ :=
    Trainer.call_advanced ready.budget ready.total ready.small start accepted
  have counted : stage.count = count := by rw [Stage.count, accepted]; rfl
  rw [Nat.zero_add, ← counted] at totalEpisodes numbered advanced
  have came : alone request n stage agent world = ⟨.ok ⟨n, name, result⟩, after.scene.agent,
      after.world, [after.scene.env]⟩ := by
    rw [alone, named]
    simp only [StageName.text?, made, ran]
    rfl
  exact ⟨_, _, _, _, came, ⟨rfl, named, totalEpisodes, numbered⟩, ready.spaces ▸ advanced.able,
    advanced.counter⟩

/-- Stages that nothing stands in the way of are all answered, and the agent counts all episodes. -/
theorem inTurn_advances {request : Request ω} {plan : TrainingPlan}
    (resolved : request.plan = .ok plan) (lenient : request.training.stopOnFailure = false)
    {spaces : Spaces} {stages : List Stage}
    (ready : ∀ stage ∈ stages, stage.Ready spaces)
    (accepted : ∀ stage ∈ stages, ∃ n, stage.call.accepted? = some n) {agent : Agent}
    (able : agent.Able spaces) (n : Nat) (world : ω) :
    ∃ results b after envs, inTurn request n stages agent world = ⟨.ok results, b, after, envs⟩ ∧
      results.length = stages.length ∧
      (∀ i (within : i < stages.length), ∃ r, results[i]? = some r ∧
        r.Reports (n + i) stages[i]) ∧
      b.Able spaces ∧
      b.episodes = Quantity.next^[(stages.map Stage.count).sum] agent.episodes := by
  induction stages generalizing n agent world with
  | nil =>
    exact ⟨[], agent, world, [], rfl, rfl, fun i within => absurd within i.not_lt_zero, able, rfl⟩
  | cons stage rest ih =>
    obtain ⟨one, ready⟩ := List.forall_mem_cons.mp ready
    obtain ⟨⟨count, counted⟩, accepted⟩ := List.forall_mem_cons.mp accepted
    obtain ⟨r, b, after, env, first, reports, able, counter⟩ :=
      alone_advances resolved lenient one counted able n world
    obtain ⟨results, c, last, envs, others, length, each, able, sum⟩ :=
      ih ready accepted able (n + 1) after
    refine ⟨r :: results, c, last, env :: envs, ?_, by simp [length], ?_, able, ?_⟩
    · simp only [inTurn, first, others]
      rfl
    · rintro (_ | i) within
      · exact ⟨r, rfl, reports⟩
      · obtain ⟨r, there, reports⟩ := each i (Nat.lt_of_succ_lt_succ within)
        exact ⟨r, there, (Nat.add_right_comm n 1 i).symm ▸ reports⟩
    · rw [sum, counter, List.map_cons, List.sum_cons, Nat.add_comm, Function.iterate_add_apply]

/-- How a curriculum has gone on from its stages in turn: the evaluations after them change nothing
but what a random choice draws from, and a failure of theirs is the failure of the whole. -/
structure Follows (turns : Trained ω (List StageResult))
    (ran : Except Fault CurriculumResult × State ω) : Prop where
  world : ran.2.world = turns.world
  agent : turns.agent.Redrawn ran.2.agent
  learner : turns.agent.kind ≠ .random → ran.2.agent = turns.agent
  failed : ∀ e, turns.answer = .error e → ran.1 = .error e ∧ ran.2.agent = turns.agent
  answered : ∀ result, ran.1 = .ok result → turns.answer = .ok result.stages

theorem run_follows (request : Request ω) {stages : List Stage} (some : stages ≠ [])
    {spaces : Spaces} (same : ∀ stage ∈ stages, stage.env.rules.spaces = spaces) (s : State ω) :
    Follows (inTurn request 1 stages s.agent s.world) ((run request stages).run s) := by
  obtain ⟨console, ran⟩ := run_eq request some same s
  rw [ran]
  generalize inTurn request 1 stages s.agent s.world = turns
  cases answer : turns.answer with
  | error e =>
    exact
      { world := rfl
        agent := ⟨turns.agent.source, rfl⟩
        learner := fun _ => rfl
        failed := fun e' same => ⟨by rw [Except.error.inj (answer.symm.trans same)], rfl⟩
        answered := fun _ same => by cases same }
  | ok results =>
    dsimp only
    generalize (results.map (·.name)).zip (s.envs ++ turns.envs) = pairs
    obtain ⟨agent, _, redrawn, after⟩ := evaluateStages_keeps (p := turns.agent.Redrawn)
      (fun _ episode env redrawn => redrawn.run_greedy episode env) request pairs []
      ⟨turns.agent, console, turns.world, s.envs ++ turns.envs⟩ ⟨turns.agent.source, rfl⟩
    simp only [after]
    refine
      { world := rfl
        agent := redrawn
        learner := fun learner => ?_
        failed := fun e same => by cases answer.symm.trans same
        answered := fun result same => ?_ }
    · obtain ⟨_, _, kept, same⟩ := evaluateStages_keeps (p := (· = turns.agent))
        (fun _ episode env same => (Agent.run_greedy_self (same ▸ learner) episode env).trans same)
        request pairs [] ⟨turns.agent, console, turns.world, s.envs ++ turns.envs⟩ rfl
      exact (congrArg State.agent (after.symm.trans same)).trans kept
    · obtain ⟨members, _, rfl⟩ := map_eq_ok.mp same
      exact answer

/-- Environments that keep the rules of stages are as ready for an evaluation as the stages. -/
theorem ready_of_rules {spaces : Spaces} {stages : List Stage}
    (ready : ∀ stage ∈ stages, stage.Ready spaces) {envs : List (Environment Float)}
    (rules : envs.map (·.rules) = stages.map (·.env.rules)) (names : List Text) :
    ∀ pair ∈ names.zip envs, 0 < pair.2.rules.settings.maxSteps ∧
      pair.2.rules.interpreter.NeverFaults ∧ pair.2.rules.spaces = spaces := by
  rintro ⟨name, env⟩ inside
  have listed : env.rules ∈ stages.map (·.env.rules) :=
    rules ▸ List.mem_map_of_mem (List.of_mem_zip inside).2
  obtain ⟨stage, among, same⟩ := List.mem_map.mp listed
  obtain ⟨_, budget, total, _, its⟩ := ready stage among
  exact ⟨same ▸ budget, same ▸ total, same ▸ its⟩

/-- A count of evaluations that is refused is refused after all stages. -/
theorem run_uncounted {request : Request ω} (refused : request.finalEvalEpisodes.index? = none)
    {stages : List Stage} (some : stages ≠ []) {spaces : Spaces}
    (ready : ∀ stage ∈ stages, stage.Ready spaces) {s : State ω} (fresh : s.envs = [])
    {results : List StageResult}
    (answered : (inTurn request 1 stages s.agent s.world).answer = .ok results) :
    ((run request stages).run s).1 =
      .error (.configuration (.negativeCount "nEpisodes" request.finalEvalEpisodes.text)) := by
  obtain ⟨names, _, rules⟩ :=
    inTurn_keeps (fun stage inside => (ready stage inside).budget) answered
  obtain ⟨console, ran⟩ :=
    run_eq request some (fun stage inside => (ready stage inside).spaces) s
  rw [ran, answered, fresh, List.nil_append]
  generalize inTurn request 1 stages s.agent s.world = turns at *
  have pairs : (results.map (·.name)).zip turns.envs ≠ [] := by
    have trained := congrArg List.length rules
    have reported := congrArg List.length names
    refine List.ne_nil_of_length_pos ?_
    simp only [List.length_map] at trained reported
    rw [List.length_zip, List.length_map, trained, reported, Nat.min_self]
    exact List.length_pos_of_ne_nil some
  exact congrArg (Except.map (CurriculumResult.mk results))
    (evaluateStages_refused refused pairs [] ⟨turns.agent, console, turns.world, turns.envs⟩)

/-- Stages that nothing stands in the way of are answered, with as many evaluations as there are to
be. -/
theorem run_answers {request : Request ω} {plan : TrainingPlan}
    (resolved : request.plan = .ok plan) (lenient : request.training.stopOnFailure = false)
    {n : Nat} (counted : request.finalEvalEpisodes.index? = some n) {stages : List Stage}
    (some : stages ≠ []) {spaces : Spaces} (ready : ∀ stage ∈ stages, stage.Ready spaces)
    (accepted : ∀ stage ∈ stages, ∃ n, stage.call.accepted? = .some n) {s : State ω}
    (fresh : s.envs = []) (able : s.agent.Able spaces) :
    ∃ result final, (run request stages).run s = (.ok result, final) := by
  obtain ⟨results, b, after, envs, came, _, _, able, _⟩ :=
    inTurn_advances resolved lenient ready accepted able 1 s.world
  obtain ⟨_, _, rules⟩ := inTurn_keeps (fun stage inside => (ready stage inside).budget)
    (congrArg Trained.answer came)
  obtain ⟨console, judged⟩ :=
    run_eq request some (fun stage inside => (ready stage inside).spaces) s
  rw [came] at rules judged
  obtain ⟨members, t, answered⟩ := evaluateStages_answers counted
    (ready_of_rules ready rules (results.map (·.name))) []
    (s := (⟨b, console, after, envs⟩ : State ω)) able.spaces
  simp only [fresh, List.nil_append, answered] at judged
  exact ⟨_, _, judged⟩

/-- A request whose writes go to a memory with no room for a second checkpoint. -/
def sampleRequest (window evaluations : Quantity Float) : Request Checkpoints.Memory where
  directory := "log"
  finalEvalEpisodes := evaluations
  verbose := false
  training := { rollingWindow := window, evalEpisodes := .count 1 }
  storage _ := Trainer.sampleStorage

/-- Three stages, the second in an environment that has been used before and the third with the name
of the first. -/
def sampleStages (env : Environment Float) : List Stage :=
  [⟨.text "one", env, .count 2, .count 1, .count 1⟩,
    ⟨.text "two", env.after [.step (.count 0)], .count 1, .other (-1), .count 0⟩,
    { name := .text "one", env, episodes := .count 0 }]

theorem sampleStages_accepted (env : Environment Float) :
    (sampleStages env).map (·.call.accepted?) = [some 2, some 1, some 0] := by
  have calls : [TrainingCall.mk (.count 2) (.count 1) (.count 1), ⟨.count 1, .other (-1), .count 0⟩,
      ⟨.count 0, .count 0, .count 0⟩].map (·.accepted?) = [some 2, some 1, some 0] := by
    decide +kernel
  exact calls

/-- The three stages are accepted, in environments with the same rules. -/
theorem sampleStages_asked {env : Environment Float}
    (sampled : Environment.sample 1 (.ofFunction "echo" Interpreter.runEcho) = .ok env)
    {stage : Stage} (inside : stage ∈ sampleStages env) :
    stage.Built ∧ (∃ n, stage.call.accepted? = some n) ∧ stage.env.rules = env.rules := by
  have built (commands : List (Command Float)) (name : Text) (e s r : Quantity Float) :
      (Stage.mk (.text name) (env.after commands) e s r).Built :=
    ⟨⟨name, rfl⟩, _, _, _, _, _, env, commands, sampled,
      Interpreter.ofFunction_neverFaults "echo" Interpreter.runEcho, by decide, rfl⟩
  have accepted : ∃ n, stage.call.accepted? = some n := by
    have listed := List.mem_map_of_mem (f := (·.call.accepted?)) inside
    rw [sampleStages_accepted] at listed
    simp only [List.mem_cons, List.not_mem_nil, or_false] at listed
    rcases listed with two | one | none
    exacts [⟨2, two⟩, ⟨1, one⟩, ⟨0, none⟩]
  simp only [sampleStages, List.mem_cons, List.not_mem_nil, or_false] at inside
  rcases inside with rfl | rfl | rfl
  · exact ⟨built [] _ _ _ _, accepted, rfl⟩
  · exact ⟨built _ _ _ _ _, accepted, Environment.after_rules env _⟩
  · exact ⟨built [] _ _ _ _, accepted, rfl⟩

end Curriculum
end ProgramGym
