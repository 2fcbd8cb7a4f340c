import ProgramGym.Proofs.Curriculum.Stages
import ProgramGym.Proofs.Lookup

/-! The evaluations after a curriculum. They are kept by the names of the stages, so that of stages
with one name only the last one is found again. Main statement: no evaluation of a learner is lost
exactly if stages of one name agree in what they come to. -/
namespace ProgramGym

/-- What an evaluation of an agent comes to in the environment of a stage. -/
def Stage.evaluation (stage : Stage) (count : Quantity Float) (a : Agent) :
    Except Fault (Metrics Float) :=
  ((Scene.evaluate false count).run ⟨stage.env, a, []⟩).1

/-- The evaluation under the name of its stage. -/
def Stage.judgement? (count : Quantity Float) (a : Agent) (stage : Stage) :
    Option (Text × Metrics Float) :=
  match stage.name.text?, stage.evaluation count a with
  | some name, .ok metrics => some (name, metrics)
  | _, _ => none

theorem Stage.judgement?_eq_some {stage : Stage} {count : Quantity Float} {a : Agent} {name : Text}
    {metrics : Metrics Float} :
    stage.judgement? count a = some (name, metrics) ↔
      stage.name = .text name ∧ stage.evaluation count a = .ok metrics := by
  rw [judgement?]
  cases stage.name with
  | foreign value => simp [StageName.text?]
  | text t => cases stage.evaluation count a <;> simp [StageName.text?]

/-- The evaluation of the stage is found under its name. -/
def Stage.FoundIn (evaluated : Json.Members (Metrics Float)) (count : Quantity Float) (a : Agent)
    (stage : Stage) : Prop :=
  ∃ name metrics, stage.name = .text name ∧ stage.evaluation count a = .ok metrics ∧
    evaluated.get? name = some metrics

namespace Curriculum
variable {ω : Type}

/-- A learner's evaluation depends on nothing but the rules where the program alone decides what the
interpreter reports. -/
theorem evaluate_alike {stage : Stage} (budget : 0 < stage.env.rules.settings.maxSteps)
    (total : stage.env.rules.interpreter.NeverFaults)
    (functional : stage.env.rules.interpreter.Functional) {a : Agent} (learner : a.kind ≠ .random)
    (fits : a.spaces = stage.env.rules.spaces) {count : Quantity Float} {n : Nat}
    (counted : count.index? = some n) :
    ∃ metrics, stage.evaluation count a = .ok metrics ∧
      ∀ (env : Environment Float) (verbose : Bool) (console : List Entry),
        env.rules = stage.env.rules → ∃ next written,
          (Scene.evaluate verbose count).run ⟨env, a, console⟩ =
            (.ok metrics, ⟨next, a, written⟩) := by
  obtain ⟨r, _, again⟩ := Rollout.episodes_alike budget total functional learner
    (congrArg Spaces.features fits)
  have judged (env : Environment Float) (verbose : Bool) (console : List Entry)
      (same : env.rules = stage.env.rules) : ∃ next written,
        (Scene.evaluate verbose count).run ⟨env, a, console⟩ =
          (.ok (Metrics.compute ((List.range n).map fun i => { r with episode := 1 + i })
            Metrics.sampleLimit), ⟨next, a, written⟩) := by
    obtain ⟨next, ran⟩ := again 1 n env same
    exact ⟨next, Scene.run_evaluate counted ran verbose console⟩
  obtain ⟨_, _, own⟩ := judged stage.env false [] rfl
  exact ⟨_, congrArg Prod.fst own, judged⟩

/-- Evaluations on environments with the rules of the stages are those on the stages. -/
theorem evaluateStages_judgements {request : Request ω} {n : Nat}
    (counted : request.finalEvalEpisodes.index? = some n) {spaces : Spaces} {a : Agent}
    (learner : a.kind ≠ .random) (fits : a.spaces = spaces) {stages : List Stage}
    (ready : ∀ stage ∈ stages, stage.Ready spaces)
    (functional : ∀ stage ∈ stages, stage.env.rules.interpreter.Functional) {names : List Text}
    (named : names.map StageName.text = stages.map (·.name)) {envs : List (Environment Float)}
    (rules : envs.map (·.rules) = stages.map (·.env.rules))
    (evaluated : Json.Members (Metrics Float)) {s : State ω} (same : s.agent = a) :
    ∃ t, (evaluateStages request (names.zip envs) evaluated).run s =
      (.ok ((stages.filterMap (·.judgement? request.finalEvalEpisodes a)).foldl
        (fun members entry => members.put entry.1 entry.2) evaluated), t) := by
  induction stages generalizing names envs evaluated s with
  | nil =>
    obtain rfl := List.map_eq_nil_iff.mp named
    exact ⟨s, rfl⟩
  | cons stage rest ih =>
    obtain ⟨one, ready⟩ := List.forall_mem_cons.mp ready
    obtain ⟨deterministic, functional⟩ := List.forall_mem_cons.mp functional
    obtain ⟨name, names, rfl, its, named⟩ := List.map_eq_cons_iff.mp named
    obtain ⟨env, envs, rfl, kept, rules⟩ := List.map_eq_cons_iff.mp rules
    obtain ⟨metrics, own, elsewhere⟩ := evaluate_alike one.budget one.total deterministic learner
      (fits.trans one.spaces.symm) counted
    obtain ⟨next, written, ran⟩ := elsewhere env request.verbose s.console kept
    obtain ⟨t, others⟩ := ih ready functional named rules (evaluated.put name metrics)
      (s := { s with agent := a, console := written }) rfl
    have its : stage.name = .text name := its.symm
    have judged : stage.judgement? request.finalEvalEpisodes a = some (name, metrics) :=
      Stage.judgement?_eq_some.mpr ⟨its, own⟩
    refine ⟨t, ?_⟩
    rw [List.filterMap_cons_some judged, List.foldl_cons, ← others, List.zip_cons_cons,
      evaluateStages, Op.run_bind, run_evaluateOn, same, ran]

/-- All evaluations under the names of their stages, put one after the other. -/
def judgements (count : Quantity Float) (a : Agent) (stages : List Stage) :
    Json.Members (Metrics Float) :=
  (stages.filterMap (·.judgement? count a)).foldl
    (fun members entry => members.put entry.1 entry.2) []

/-- Of stages with one name, the last one's evaluation is found. -/
theorem judgements_last {count : Quantity Float} {a : Agent} {before after : List Stage}
    {stage : Stage} {name : Text} {metrics : Metrics Float} (named : stage.name = .text name)
    (own : stage.evaluation count a = .ok metrics)
    (last : ∀ other ∈ after, other.name ≠ stage.name) :
    (judgements count a (before ++ stage :: after)).get? name = some metrics := by
  have entry : stage.judgement? count a = some (name, metrics) :=
    Stage.judgement?_eq_some.mpr ⟨named, own⟩
  rw [judgements, List.filterMap_append, List.filterMap_cons_some entry]
  refine Json.Members.get?_foldl_put_last fun later inside same => ?_
  obtain ⟨other, among, made⟩ := List.mem_filterMap.mp inside
  obtain ⟨its, _⟩ := Stage.judgement?_eq_some.mp made
  exact last other among (its.trans (same ▸ named.symm))

/-- A name that a stage has is the name of a last one. -/
theorem exists_last {name : StageName} {stages : List Stage}
    (some : ∃ stage ∈ stages, stage.name = name) :
    ∃ before last after, stages = before ++ last :: after ∧ last.name = name ∧
      ∀ other ∈ after, other.name ≠ name := by
  induction stages with
  | nil =>
    obtain ⟨stage, inside, _⟩ := some
    exact absurd inside List.not_mem_nil
  | cons first rest ih =>
    by_cases later : ∃ stage ∈ rest, stage.name = name
    · obtain ⟨before, last, after, rfl, found⟩ := ih later
      exact ⟨first :: before, last, after, rfl, found⟩
    · have none (other : Stage) (inside : other ∈ rest) : other.name ≠ name :=
        fun same => later ⟨other, inside, same⟩
      obtain ⟨stage, inside, same⟩ := some
      obtain rfl : stage = first :=
        (List.mem_cons.mp inside).resolve_right fun after => none stage after same
      exact ⟨[], stage, rest, rfl, same, none⟩

/-- Every evaluation is found exactly if those of stages with one name agree. -/
theorem judgements_found {count : Quantity Float} {a : Agent} {stages : List Stage}
    (own : ∀ stage ∈ stages, ∃ name metrics,
      stage.name = .text name ∧ stage.evaluation count a = .ok metrics) :
    (∀ stage ∈ stages, stage.FoundIn (judgements count a stages) count a) ↔
      ∀ stage ∈ stages, ∀ other ∈ stages, stage.name = other.name →
        stage.evaluation count a = other.evaluation count a := by
  constructor
  · intro found stage inside other within same
    obtain ⟨name, metrics, named, judged, there⟩ := found stage inside
    obtain ⟨name', metrics', named', judged', there'⟩ := found other within
    obtain rfl : name = name' := StageName.text.inj (named.symm.trans (same.trans named'))
    rw [judged, judged', Option.some.inj (there.symm.trans there')]
  · intro agree stage inside
    obtain ⟨name, metrics, named, judged⟩ := own stage inside
    obtain ⟨before, last, after, rfl, same, later⟩ := exists_last ⟨stage, inside, rfl⟩
    have alike := agree stage inside last (List.mem_append_right _ List.mem_cons_self) same.symm
    exact ⟨name, metrics, named, judged, judgements_last (same.trans named) (alike ▸ judged)
      (same ▸ later)⟩

/-- An answered curriculum has left the agent as its stages in turn leave it, and has evaluated it
on every stage. -/
theorem run_judgements {request : Request ω} {stages : List Stage} (some : stages ≠ [])
    {spaces : Spaces} (ready : ∀ stage ∈ stages, stage.Ready spaces)
    (functional : ∀ stage ∈ stages, stage.env.rules.interpreter.Functional) {s : State ω}
    (fresh : s.envs = []) (learner : s.agent.kind ≠ .random) (fits : s.agent.spaces = spaces)
    {result : CurriculumResult} {final : State ω}
    (ran : (run request stages).run s = (.ok result, final)) :
    final.agent = (inTurn request 1 stages s.agent s.world).agent ∧ s.agent.Alike final.agent ∧
      (∃ n, request.finalEvalEpisodes.index? = .some n) ∧
      result.finalEvaluation = judgements request.finalEvalEpisodes final.agent stages := by
  have same (stage : Stage) (inside : stage ∈ stages) : stage.env.rules.spaces = spaces :=
    (ready stage inside).spaces
  have follows := run_follows request some same s
  obtain ⟨console, judged⟩ := run_eq request some same s
  rw [ran] at follows judged
  have answer := follows.answered result rfl
  obtain ⟨names, alike, rules⟩ := inTurn_keeps (fun stage inside => (ready stage inside).budget)
    answer
  obtain ⟨n, counted⟩ : ∃ n, request.finalEvalEpisodes.index? = .some n := by
    refine Option.ne_none_iff_exists'.mp fun refused => ?_
    cases (congrArg Prod.fst ran).symm.trans (run_uncounted refused some ready fresh answer)
  rw [answer, fresh, List.nil_append] at judged
  generalize inTurn request 1 stages s.agent s.world = turns at *
  have learnt : turns.agent.kind ≠ .random := alike.2 ▸ learner
  have kept : final.agent = turns.agent := follows.learner learnt
  have named : (result.stages.map (·.name)).map StageName.text = stages.map (·.name) := by
    rw [List.map_map]
    exact names
  obtain ⟨t, evaluated⟩ := evaluateStages_judgements counted learnt (alike.1.trans fits) ready
    functional named rules [] (s := ⟨turns.agent, console, turns.world, turns.envs⟩) rfl
  simp only [evaluated] at judged
  have put : result = ⟨result.stages, judgements request.finalEvalEpisodes turns.agent stages⟩ :=
    Except.ok.inj (congrArg Prod.fst judged)
  exact ⟨kept, kept ▸ alike, ⟨n, counted⟩, kept ▸ congrArg CurriculumResult.finalEvaluation put⟩

/-- The evaluations after a curriculum of a learner, where the program alone decides what the
interpreters report. Each is of the agent as the stages in turn leave it, and comes to one thing for
all environments with the rules of its stage. Found is the last one under each name, and so every
one exactly if those of stages with one name agree. -/
theorem final_evaluations (request : Request ω) {stages : List Stage} (some : stages ≠ [])
    {spaces : Spaces} (asked : ∀ stage ∈ stages, stage.Built ∧
      stage.env.rules.interpreter.Functional ∧ stage.env.rules.spaces = spaces)
    {kind : AgentKind} (learner : kind ≠ .random) {settings : Json.Members Json}
    {source : Source Float} (unit : source.InUnit) {clock : Instant} {made : Agent}
    (created : Agent.create kind (.count spaces.actions) (.count spaces.features) settings source
      clock = .ok made) (past : List Agent.Call) (console : List Entry) (world : ω) :
    let start : State ω := ⟨made.after past, console, world, []⟩
    let count := request.finalEvalEpisodes
    (request.training.stopOnFailure = false →
      (∃ plan, request.plan = .ok plan) → (∀ stage ∈ stages, ∃ n, stage.call.accepted? = .some n) →
      (∃ n, count.index? = .some n) →
      ∃ result final, (run request stages).run start = (.ok result, final)) ∧
    ∀ result final, (run request stages).run start = (.ok result, final) →
      final.agent = (inTurn request 1 stages start.agent world).agent ∧
      (∀ stage ∈ stages, ∃ metrics, stage.evaluation count final.agent = .ok metrics ∧
        ∀ (env : Environment Float) (verbose : Bool) (console : List Entry),
          env.rules = stage.env.rules → ∃ next written,
            (Scene.evaluate verbose count).run ⟨env, final.agent, console⟩ =
              (.ok metrics, ⟨next, final.agent, written⟩)) ∧
      (∀ before stage after, stages = before ++ stage :: after →
        (∀ other ∈ after, other.name ≠ stage.name) →
        stage.FoundIn result.finalEvaluation count final.agent) ∧
      ((∀ stage ∈ stages, stage.FoundIn result.finalEvaluation count final.agent) ↔
        ∀ stage ∈ stages, ∀ other ∈ stages, stage.name = other.name →
          stage.evaluation count final.agent = other.evaluation count final.agent) := by
  intro start count
  have ready (stage : Stage) (inside : stage ∈ stages) : stage.Ready spaces :=
    (asked stage inside).1.ready (asked stage inside).2.2
  have functional (stage : Stage) (inside : stage ∈ stages) :
      stage.env.rules.interpreter.Functional := (asked stage inside).2.1
  have able : (made.after past).Able spaces :=
    Agent.able_after (Agent.able_create unit created) past
  have greedy : (made.after past).kind ≠ .random :=
    ((made.after_alike past).2.trans (Agent.create_kind created)).symm ▸ learner
  constructor
  · rintro lenient ⟨plan, resolved⟩ accepted ⟨n, counted⟩
    exact run_answers resolved lenient counted some ready accepted rfl able
  intro result final ran
  obtain ⟨kept, alike, ⟨n, counted⟩, put⟩ :=
    run_judgements some ready functional rfl greedy able.spaces ran
  have own (stage : Stage) (inside : stage ∈ stages) :=
    evaluate_alike (ready stage inside).budget (ready stage inside).total (functional stage inside)
      (alike.2.symm ▸ greedy) (alike.1.trans (able.spaces.trans (ready stage inside).spaces.symm))
      counted
  have judged (stage : Stage) (inside : stage ∈ stages) : ∃ name metrics,
      stage.name = .text name ∧ stage.evaluation count final.agent = .ok metrics := by
    obtain ⟨name, named⟩ := (ready stage inside).named
    obtain ⟨metrics, came, _⟩ := own stage inside
    exact ⟨name, metrics, named, came⟩
  rw [put]
  refine ⟨kept, own, ?_, judgements_found judged⟩
  rintro before stage after rfl last
  obtain ⟨name, metrics, named, came⟩ :=
    judged stage (List.mem_append_right _ List.mem_cons_self)
  exact ⟨name, metrics, named, came, judgements_last named came last⟩

/-- Stages of one name, in environments that differ only in what has been done in them. -/
theorem final_evaluations_sample : ∃ env made,
    Environment.sample 1 (.ofFunction "echo" Interpreter.runEcho) = .ok env ∧
    Agent.create .qlearning (.count 3) (.count 16) [] (.ofSeed 1) (.moment 0) = .ok made ∧
    let request : Request Checkpoints.Memory :=
      { directory := "log", verbose := false, storage := fun _ => Trainer.sampleStorage }
    ∃ result final, (run request (sampleStages env)).run ⟨made.after [.reset], [], [], []⟩ =
        (.ok result, final) ∧
      ∀ stage ∈ sampleStages env,
        stage.FoundIn result.finalEvaluation (.count 20) final.agent := by
  obtain ⟨env, sampled⟩ : ∃ env, Environment.sample 1
    (.ofFunction "echo" Interpreter.runEcho) = .ok env := ⟨_, rfl⟩
  obtain ⟨made, created⟩ : ∃ made, Agent.create .qlearning (.count 3) (.count 16) [] (.ofSeed 1)
    (.moment 0) = .ok made := ⟨_, rfl⟩
  have own : env.rules.interpreter.Functional ∧ env.rules.spaces = ⟨3, 16⟩ := by
    cases sampled
    exact ⟨fun _ _ _ => rfl, rfl⟩
  have rules (stage : Stage) (inside : stage ∈ sampleStages env) : stage.env.rules = env.rules :=
    (sampleStages_asked sampled inside).2.2
  have asked (stage : Stage) (inside : stage ∈ sampleStages env) : stage.Built ∧
      stage.env.rules.interpreter.Functional ∧ stage.env.rules.spaces = ⟨3, 16⟩ :=
    ⟨(sampleStages_asked sampled inside).1, rules stage inside ▸ own⟩
  obtain ⟨answers, evaluated⟩ := final_evaluations
    ({ directory := "log", verbose := false, storage := fun _ => Trainer.sampleStorage } :
      Request Checkpoints.Memory)
    (List.cons_ne_nil _ _) asked (by decide) (Source.inUnit_ofSeed 1) created [.reset] [] []
  obtain ⟨result, final, ran⟩ :=
    answers rfl ⟨_, rfl⟩ (fun stage inside => (sampleStages_asked sampled inside).2.1) ⟨20, rfl⟩
  obtain ⟨_, alike, _, found⟩ := evaluated result final ran
  refine ⟨env, made, sampled, created, result, final, ran, found.mpr ?_⟩
  intro stage inside other within _
  obtain ⟨metrics, came, elsewhere⟩ := alike stage inside
  obtain ⟨_, _, ran⟩ := elsewhere other.env false []
    ((rules other within).trans (rules stage inside).symm)
  exact came.trans (congrArg Prod.fst ran).symm

/-- Of two stages with one name but different environments, the first one's evaluation is gone. -/
theorem evaluation_lost : ∃ short long made result final,
    Environment.sample 1 (.ofFunction "echo" Interpreter.runEcho) = .ok short ∧
    Environment.sample 3 (.ofFunction "echo" Interpreter.runEcho) = .ok long ∧
    Agent.create .qlearning (.count 3) (.count 16) [] (.ofSeed 1) (.moment 0) = .ok made ∧
    let request := sampleRequest (.count 100) (.count 1)
    let first : Stage := { name := .text "one", env := short, episodes := .count 0 }
    let second : Stage := { name := .text "one", env := long, episodes := .count 0 }
    (run request [first, second]).run ⟨made, [], [], []⟩ = (.ok result, final) ∧
      ¬ first.FoundIn result.finalEvaluation request.finalEvalEpisodes final.agent := by
  obtain ⟨short, sampled⟩ : ∃ env, Environment.sample 1
    (.ofFunction "echo" Interpreter.runEcho) = .ok env := ⟨_, rfl⟩
  obtain ⟨long, sampled'⟩ : ∃ env, Environment.sample 3
    (.ofFunction "echo" Interpreter.runEcho) = .ok env := ⟨_, rfl⟩
  obtain ⟨made, created⟩ : ∃ made, Agent.create .qlearning (.count 3) (.count 16) [] (.ofSeed 1)
    (.moment 0) = .ok made := ⟨_, rfl⟩
  have lost : (Environment.sample 1 (.ofFunction "echo" Interpreter.runEcho)).toOption.any
      (fun short => (Environment.sample 3 (.ofFunction "echo" Interpreter.runEcho)).toOption.any
        fun long => (Agent.create .qlearning (.count 3) (.count 16) [] (.ofSeed 1)
          (.moment 0)).toOption.any fun made =>
            let first : Stage := { name := .text "one", env := short, episodes := .count 0 }
            let second : Stage := { name := .text "one", env := long, episodes := .count 0 }
            let ran := (run (sampleRequest (.count 100) (.count 1)) [first, second]).run
              ⟨made, [], [], []⟩
            ran.1.toOption.any fun result =>
              (result.finalEvaluation.get? "one").map (·.samplePrograms) !=
                (first.evaluation (.count 1) ran.2.agent).toOption.map (·.samplePrograms)) =
        true := by
    decide +kernel
  simp only [sampled, sampled', created, Except.toOption, Option.any_some] at lost
  rcases ran : (run (sampleRequest (.count 100) (.count 1))
    [⟨.text "one", short, .count 0, .count 0, .count 0⟩,
      ⟨.text "one", long, .count 0, .count 0, .count 0⟩]).run
    (⟨made, [], [], []⟩ : State Checkpoints.Memory) with ⟨e | result, final⟩
  · rw [ran] at lost
    cases lost
  · refine ⟨short, long, made, result, final, sampled, sampled', created, ran, ?_⟩
    rintro ⟨name, metrics, named, came, found⟩
    obtain rfl : "one" = name := StageName.text.inj named
    rw [ran] at lost
    replace came : Stage.evaluation ⟨.text "one", short, .count 0, .count 0, .count 0⟩ (.count 1)
      final.agent = .ok metrics := came
    simp only [Option.any_some, found, came] at lost
    exact bne_iff_ne.mp lost rfl

end Curriculum
end ProgramGym
