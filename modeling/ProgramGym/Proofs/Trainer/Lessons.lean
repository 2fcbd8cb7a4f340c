import ProgramGym.Proofs.Trainer.Books

/-! What training comes to without evaluations, checkpoints and console. Lessons are training
episodes one after the other in fresh environments; one that a fault cuts short is the last one of
its call. Between two lessons nothing touches the agent: an evaluation runs greedily, and a learner
that is greedy neither draws nor learns; a checkpoint only reads; what either leaves in the
environment is gone with the next episode. Main statement: trainers with the same agent that differ
in all the rest train alike. -/
namespace ProgramGym.Trainer
variable {ω υ : Type}

structure Lessons where
  records : List (EpisodeRecord Float)
  agent : Agent
  /-- A fault has cut the last lesson short. -/
  ended : Bool

def Lessons.next (r : Rules Float) (episode : Nat) (l : Lessons) : Lessons :=
  if l.ended then l
  else match Rollout.run true episode (.ofRules r) l.agent with
    | (.ok record, _, agent) => ⟨l.records ++ [record], agent, false⟩
    | (.error _, _, agent) => ⟨l.records, agent, true⟩

/-- So many lessons, numbered from a first number on. -/
def lessons (r : Rules Float) (first : Nat) (a : Agent) : Nat → Lessons
  | 0 => ⟨[], a, false⟩
  | n + 1 => (lessons r first a n).next r (first + n)

section
variable {r : Rules Float} {first n m : Nat} {a : Agent}

theorem lessons_of_ended (ended : (lessons r first a n).ended = true) (later : n ≤ m) :
    lessons r first a m = lessons r first a n := by
  induction later with
  | refl => rfl
  | step _ ih => rw [lessons, ih, Lessons.next, if_pos ended]

theorem next_ok {l : Lessons} {record : EpisodeRecord Float} {env : Environment Float} {b : Agent}
    {episode : Nat} (going : l.ended = false)
    (ran : Rollout.run true episode (.ofRules r) l.agent = (.ok record, env, b)) :
    l.next r episode = ⟨l.records ++ [record], b, false⟩ := by
  rw [Lessons.next, if_neg (by simp [going]), ran]

theorem next_error {l : Lessons} {fault : Fault} {env : Environment Float} {b : Agent}
    {episode : Nat} (going : l.ended = false)
    (ran : Rollout.run true episode (.ofRules r) l.agent = (.error fault, env, b)) :
    l.next r episode = ⟨l.records, b, true⟩ := by
  rw [Lessons.next, if_neg (by simp [going]), ran]

theorem next_alike (budget : 0 < r.settings.maxSteps) (episode : Nat) (l : Lessons) :
    l.agent.Alike (l.next r episode).agent := by
  cases going : l.ended with
  | true => simp [Lessons.next, going, Agent.Alike]
  | false =>
    have alike : l.agent.Alike (Rollout.run true episode (.ofRules r) l.agent).2.2 :=
      Rollout.run_alike budget true episode l.agent
    rcases ran : Rollout.run true episode (.ofRules r) l.agent with ⟨fault | record, env, b⟩ <;>
      rw [ran] at alike
    · rw [next_error going ran]
      exact alike
    · rw [next_ok going ran]
      exact alike

theorem lessons_alike (budget : 0 < r.settings.maxSteps) :
    a.Alike (lessons r first a n).agent := by
  induction n with
  | zero => exact ⟨rfl, rfl⟩
  | succ n ih =>
    have step := next_alike budget (first + n) (lessons r first a n)
    exact ⟨step.1.trans ih.1, step.2.trans ih.2⟩

end

/-- What a trainer stands at after lessons: its rules, its history beyond an earlier one and its
agent. Failed writes do not stop it. -/
structure Stands (r : Rules Float) (earlier : List (EpisodeRecord Float)) (l : Lessons)
    (t : Trainer ω) : Prop where
  rules : t.scene.env.rules = r
  history : t.history = earlier ++ l.records
  agent : t.scene.agent = l.agent
  lenient : t.plan.stopOnFailure = false

/-- Between two lessons of a learner: the last lesson, if there was one, has shown that the agent
fits the environment. -/
structure Between (r : Rules Float) (earlier : List (EpisodeRecord Float)) (first : Nat) (a : Agent)
    (n : Nat) (t : Trainer ω) : Prop extends Stands r earlier (lessons r first a n) t where
  going : (lessons r first a n).ended = false
  fits : 0 < n → t.scene.agent.spaces.features = r.shape.featureCount

section
variable {r : Rules Float} {earlier : List (EpisodeRecord Float)} {first n count : Nat}
  {a : Agent} {t : Trainer ω}

theorem Between.unheard (r : Rules Float) (earlier : List (EpisodeRecord Float)) (first : Nat)
    (a : Agent) (n : Nat) : Unheard (Between r earlier first a n : Trainer ω → Prop) :=
  fun _ _ between => { between with }

/-- What lessons a failing call has come to. -/
def Cut (r : Rules Float) (earlier : List (EpisodeRecord Float)) (first : Nat) (a : Agent)
    (count : Nat) : Fault → Trainer ω → Prop :=
  fun _ => Stands r earlier (lessons r first a count)

variable (budget : 0 < r.settings.maxSteps) (functional : r.interpreter.Functional)
  (total : r.interpreter.NeverFaults)

include budget functional in
/-- A lesson in the trainer's environment is the same as in a fresh one. -/
theorem runEpisode_lessons (within : n < count) :
    Op.Ensures (Between r earlier first a n : Trainer ω → Prop)
      (inScene (Scene.runEpisode true (first + n)))
      (fun x t => Between r earlier first a (n + 1) (record x t))
      (Cut r earlier first a count) := by
  refine Op.ensures_onPart fun t between s same => ?_
  subst same
  have agent := between.agent
  have going := between.going
  have alike := Rollout.run_ofRules true (first + n) (between.rules ▸ functional) t.scene.agent
  have rules := Rollout.run_rules true (first + n) t.scene.env t.scene.agent
  rw [between.rules] at alike rules
  rw [Scene.run_runEpisode]
  rcases ran : Rollout.run true (first + n) (.ofRules r) t.scene.agent with ⟨fault | x, env, b⟩ <;>
    rw [ran] at alike
  · rw [alike.1]
    have after : lessons r first a (n + 1) = ⟨(lessons r first a n).records, b, true⟩ :=
      next_error going (agent ▸ ran)
    -- a fault ends the lessons, so those that the call still had in mind add nothing
    have last := lessons_of_ended (congrArg Lessons.ended after) within
    exact
      { rules := rules
        history := by rw [last, after]; exact between.history
        agent := by rw [last, after]; exact alike.2
        lenient := between.lenient }
  · rw [alike.1]
    have after : lessons r first a (n + 1) = ⟨(lessons r first a n).records ++ [x], b, false⟩ :=
      next_ok going (agent ▸ ran)
    have fits : b.spaces.features = r.shape.featureCount :=
      (congrArg Spaces.features (Rollout.run_ok budget ran).2.alike.1).trans
        (Rollout.run_fits budget ran)
    exact
      { rules := rules
        history := by rw [after, ← List.append_assoc, ← between.history]; rfl
        agent := by rw [after]; exact alike.2
        lenient := between.lenient
        going := by rw [after]
        fits := fun _ => (congrArg (·.spaces.features) alike.2).trans fits }

include budget total in
/-- Greedy episodes of a learner leave nothing behind but what the environment forgets. -/
theorem greedy_lessons (learner : a.kind ≠ .random) (trained : 0 < n) (t : Trainer ω)
    (number : Nat) {failed : Fault → Scene → Prop} :
    Op.Ensures (fun s => Between r earlier first a n { t with scene := s })
      (Scene.runEpisode false number) (fun _ s => Between r earlier first a n { t with scene := s })
      failed := by
  intro s between
  have kind : s.agent.kind = a.kind := by
    rw [show s.agent = (lessons r first a n).agent from between.agent]
    exact (lessons_alike budget).2
  have rules := between.rules
  have kept := Rollout.run_rules false number s.env s.agent
  obtain ⟨x, next, ran⟩ := Rollout.run_greedy (rules ▸ budget) (rules ▸ total) (kind ▸ learner)
    (rules ▸ between.fits trained) number
  rw [Scene.run_runEpisode, ran]
  rw [ran] at kept
  exact { between with rules := kept.trans rules }

include budget total in
theorem evaluate_lessons (learner : a.kind ≠ .random) (trained : 0 < n) (episode : Nat)
    {failed : Fault → Trainer ω → Prop} :
    Op.Ensures (Between r earlier first a n : Trainer ω → Prop) (evaluate episode)
      (fun _ => Between r earlier first a n) failed :=
  ensures_evaluate (Between.unheard _ _ _ _ _)
    (fun t number => greedy_lessons budget total learner trained t number)
    fun _ _ between => { between with }

theorem saveCheckpoint_lessons (episode : Nat) {failed : Fault → Trainer ω → Prop} :
    Op.Ensures (Between r earlier first a n : Trainer ω → Prop) (saveCheckpoint episode)
      (fun _ => Between r earlier first a n) failed :=
  ensures_saveCheckpoint (Between.unheard r earlier first a n)
    (fun _ _ _ _ between => { between with }) (not_stopped fun _ between => between.lenient) episode

theorem saveCurve_lessons (episode : Nat) {failed : Fault → Trainer ω → Prop} :
    Op.Ensures (Between r earlier first a n : Trainer ω → Prop) (saveCurve episode)
      (fun _ => Between r earlier first a n) failed :=
  ensures_saveCurve (Between.unheard r earlier first a n)
    (fun _ _ _ _ between => { between with }) (not_stopped fun _ between => between.lenient) episode

include budget functional total in
theorem trainOne_lessons (learner : a.kind ≠ .random) (within : n < count)
    (last evalEvery saveEvery : Nat) :
    Op.Ensures (Between r earlier first a n : Trainer ω → Prop)
      (trainOne (first + n) last evalEvery saveEvery) (fun _ => Between r earlier first a (n + 1))
      (Cut r earlier first a count) :=
  ensures_trainOne last evalEvery saveEvery (Between.unheard _ _ _ _ _)
    (runEpisode_lessons budget functional within) (fun _ _ => id)
    (fun _ => evaluate_lessons budget total learner n.succ_pos _) (fun _ _ => id)
    (fun _ => saveCheckpoint_lessons _) (fun _ _ => id) fun _ _ between => { between with }

include budget total in
theorem finalEvaluation_lessons (learner : a.kind ≠ .random) (last : Nat)
    {failed : Fault → Trainer ω → Prop} :
    Op.Ensures (Between r earlier first a n : Trainer ω → Prop) (finalEvaluation last n)
      (fun _ => Between r earlier first a n) failed :=
  ensures_finalEvaluation
    (Op.Ensures.given (c := 0 < n) (fun t holds => by
        simpa using (Bool.and_eq_true_iff.mp (Bool.and_eq_true_iff.mp holds.2).2).2)
      fun trained => (evaluate_lessons budget total learner trained last).weaken
        (fun _ holds => holds.1) (fun _ _ => id) fun _ _ => id)
    fun _ between _ => between

include budget functional total in
/-- However a call ends, it comes to the lessons that it was accepted for. -/
theorem call_lessons (learner : a.kind ≠ .random) (c : TrainingCall)
    (stands : Stands r earlier ⟨[], a, false⟩ t) :
    Stands r earlier (lessons r (earlier.length + 1) a (c.accepted?.getD 0))
      ((call c).run t).2 := by
  have length : t.history.length = earlier.length := by simp [stands.history]
  have led : Op.Ensures (· = t) (call c)
      (fun _ u => ∃ count, c.accepted? = some count ∧
        Between r earlier (earlier.length + 1) a count u)
      (Cut r earlier (earlier.length + 1) a (c.accepted?.getD 0)) := by
    refine (ensures_call t c (Between r earlier (earlier.length + 1) a)
      (Between r earlier (earlier.length + 1) a) (Between r earlier (earlier.length + 1) a)
      (Between.unheard _ _ _ _ _) (fun _ => Between.unheard _ _ _ _ _) ⟨stands, rfl, by simp⟩
      (fun _ refused => ?_) ?_ ?_ ?_).weaken (fun _ => id) (fun _ _ led => led.2) fun _ _ => id
    · rw [refused]
      exact stands
    · intro count accepted i within evalEvery saveEvery _ _
      rw [length, accepted]
      exact trainOne_lessons budget functional total learner within _ _ _
    · intro count _
      exact finalEvaluation_lessons budget total learner _
    · intro count _
      exact saveCurve_lessons _
  have led := led t rfl
  rcases answered : (call c).run t with ⟨fault | result, u⟩ <;> rw [answered] at led
  · exact led
  · obtain ⟨count, accepted, between⟩ := led
    rw [accepted]
    exact between.toStands

end

/-- History and agent after calls that were accepted for some numbers of episodes. -/
def schooling (r : Rules Float) (earlier : List (EpisodeRecord Float)) (a : Agent)
    (counts : List Nat) : List (EpisodeRecord Float) × Agent :=
  counts.foldl (fun (earlier, a) count =>
    let l := lessons r (earlier.length + 1) a count
    (earlier ++ l.records, l.agent)) (earlier, a)

theorem afterCalls_schooling {r : Rules Float} {earlier : List (EpisodeRecord Float)} {a : Agent}
    {t : Trainer ω} (budget : 0 < r.settings.maxSteps) (functional : r.interpreter.Functional)
    (total : r.interpreter.NeverFaults) (learner : a.kind ≠ .random)
    (stands : Stands r earlier ⟨[], a, false⟩ t) (calls : List TrainingCall) :
    ((t.afterCalls calls).history, (t.afterCalls calls).scene.agent) =
      schooling r earlier a (calls.filterMap TrainingCall.accepted?) := by
  induction calls generalizing earlier a t with
  | nil => exact Prod.ext (stands.history.trans (by simp [schooling])) stands.agent
  | cons c calls ih =>
    have led := call_lessons budget functional total learner c stands
    rw [afterCalls_cons]
    cases accepted : c.accepted? with
    | none =>
      rw [List.filterMap_cons_none accepted]
      rw [accepted] at led
      exact ih learner led
    | some count =>
      rw [List.filterMap_cons_some accepted]
      rw [accepted] at led
      have kind : (lessons r (earlier.length + 1) a count).agent.kind = a.kind :=
        (lessons_alike budget).2
      exact ih (kind ▸ learner) ⟨led.rules, by simp [led.history], led.agent, led.lenient⟩

theorem create_stands {r : Rules Float} {past : List (Command Float)} {agent : Agent}
    {console : List Entry} {training : TrainingRequest} (lenient : training.stopOnFailure = false)
    {storage : TrainingStorage ω} {world : ω} {t : Trainer ω}
    (built : create training storage ⟨(Environment.ofRules r).after past, agent, console⟩ world =
      .ok t) :
    Stands r [] ⟨[], agent, false⟩ t := by
  obtain ⟨plan, resolved, rfl⟩ := create_eq_ok built
  exact
    { rules := Environment.after_rules _ past
      history := rfl
      agent := rfl
      lenient := (TrainingPlan.resolve_stopOnFailure resolved).trans lenient }

/-- Two trainers of one learner in equal environments, whatever these were used for before. They
may evaluate, save, report and store differently, and refuse different calls: as long as failed
writes stop neither, the same accepted numbers of episodes lead both to the same history and the
same agent, and so to the same saved state and the same count of draws. -/
theorem training_unaffected {task : Task} {vocabulary : Vocabulary}
    {interpreter : Interpreter Float} {reward : Reward Float} {request : SettingsRequest}
    {made : Environment Float}
    (created : Environment.create task vocabulary interpreter reward request = .ok made)
    (functional : interpreter.Functional) (total : interpreter.NeverFaults)
    (past past' : List (Command Float)) {agent : Agent} (learner : agent.kind ≠ .random)
    {console console' : List Entry} {training training' : TrainingRequest}
    (lenient : training.stopOnFailure = false) (lenient' : training'.stopOnFailure = false)
    {storage : TrainingStorage ω} {storage' : TrainingStorage υ} {world : ω} {world' : υ}
    {t : Trainer ω} {u : Trainer υ}
    (built : create training storage ⟨made.after past, agent, console⟩ world = .ok t)
    (built' : create training' storage' ⟨made.after past', agent, console'⟩ world' = .ok u)
    (calls calls' : List TrainingCall)
    (counts : calls.filterMap TrainingCall.accepted? = calls'.filterMap TrainingCall.accepted?) :
    (t.afterCalls calls).history = (u.afterCalls calls').history ∧
      (t.afterCalls calls).scene.agent = (u.afterCalls calls').scene.agent := by
  obtain ⟨settings, resolved, rfl⟩ := Environment.create_eq_ok created
  have budget : 0 < settings.maxSteps := Settings.maxSteps_pos resolved
  have first := afterCalls_schooling budget functional total learner
    (create_stands lenient built) calls
  have second := afterCalls_schooling budget functional total learner
    (create_stands lenient' built') calls'
  rw [← counts] at second
  exact Prod.mk.inj (first.trans second.symm)

/-- A trainer of the sample's learner in an environment that has been used before. -/
def sampleUnder (request : TrainingRequest) (past : List (Command Float)) :
    Except Fault (Trainer Checkpoints.Memory) := do
  let made ← Environment.sample 1 (.ofFunction "echo" Interpreter.runEcho)
  create request sampleStorage ⟨made.after past, sampleLearner, []⟩ []

def sampleEvaluating : TrainingRequest := { evalEpisodes := .count 2, verbose := false }

def samplePlain : TrainingRequest := { rollingWindow := .count 7, evalEpisodes := .count 0 }

/-- One trainer evaluates and saves after every episode and fails to save the second time, the
other one does neither; both are refused a call. The learner draws once a step. -/
theorem training_unaffected_sample :
    ∃ t u, sampleUnder sampleEvaluating [.step (.count 0)] = .ok t ∧
      sampleUnder samplePlain [] = .ok u ∧
      let evaluated := t.afterCalls
        [⟨.count 2, .count 1, .count 1⟩, ⟨.other 0.5, .count 0, .count 0⟩]
      let plain := u.afterCalls
        [⟨.count 1, .other 0.5, .count 0⟩, ⟨.count 2, .count 0, .count 0⟩]
      evaluated.evaluations.length = 2 ∧ evaluated.failures.length = 1 ∧
      plain.evaluations.length = 0 ∧ plain.failures.length = 0 ∧
      plain.history.length = 2 ∧ plain.scene.agent.source.draws = 2 ∧
      evaluated.history = plain.history ∧ evaluated.scene.agent = plain.scene.agent := by
  have functional : (Interpreter.ofFunction "echo" Interpreter.runEcho :
    Interpreter Float).Functional := fun _ _ _ => rfl
  refine ⟨_, _, rfl, rfl, by decide +kernel, by decide +kernel, by decide +kernel,
    by decide +kernel, by decide +kernel, by decide +kernel, ?_⟩
  exact training_unaffected
    (rfl : Environment.sample 1 (.ofFunction "echo" Interpreter.runEcho) = .ok _) functional
    (Interpreter.ofFunction_neverFaults "echo" Interpreter.runEcho) [.step (.count 0)] []
    (by decide : sampleLearner.kind ≠ .random)
    (rfl : sampleEvaluating.stopOnFailure = false) (rfl : samplePlain.stopOnFailure = false)
    (rfl : create sampleEvaluating sampleStorage ⟨_, sampleLearner, []⟩ [] = .ok _)
    (rfl : create samplePlain sampleStorage ⟨_, sampleLearner, []⟩ [] = .ok _)
    _ _ (by decide +kernel)

end ProgramGym.Trainer
