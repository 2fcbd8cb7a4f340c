import ProgramGym.Proofs.Trainer.Books

/-! The schedule of training calls. All that a call does to the books is to add to them, so it is
said by what it adds: the records of its episodes, evaluations and checkpoints at the multiples of
their intervals, each checkpoint on one of two lists by how its write went, and an announcement for
each episode. An evaluation at the end hangs on the last one of all, which is that of the last
episode if there is one, because evaluations come in the order of episodes after every call, however
it ended. Main statement: what a call that answers adds, after any other calls. -/
namespace ProgramGym

/-- The evaluation that an announcement tells of. -/
def Announcement.point? (x : Announcement) : Option EvaluationPoint :=
  x.evaluation.map fun m => ⟨x.record.episode, m⟩

namespace Trainer
variable {ω : Type}

/-! Which episodes an interval meets. -/

def onDue (interval episode : Nat) : List Nat := if due interval episode then [episode] else []

/-- The multiples of an interval among the episodes that come next. -/
def rounds (interval before count : Nat) : List Nat :=
  (List.range' (before + 1) count).filter (due interval)

theorem mem_rounds {interval before count episode : Nat} :
    episode ∈ rounds interval before count ↔
      before < episode ∧ episode ≤ before + count ∧ 0 < interval ∧ interval ∣ episode := by
  simp only [rounds, List.mem_filter, List.mem_range'_1, due, Bool.and_eq_true, decide_eq_true_eq,
    beq_iff_eq, Nat.dvd_iff_mod_eq_zero]
  omega

theorem rounds_succ (interval before count : Nat) :
    rounds interval before (count + 1) =
      rounds interval before count ++ onDue interval (before + count + 1) := by
  have next : before + 1 + count = before + count + 1 := Nat.add_right_comm before 1 count
  rw [rounds, List.range'_1_concat, List.filter_append, next, onDue, List.filter_singleton,
    Bool.cond_eq_ite]
  rfl

theorem rounds_pairwise (interval before count : Nat) :
    (rounds interval before count).Pairwise (· < ·) :=
  List.Pairwise.filter _ List.pairwise_lt_range'

section
variable {episodes : List Nat} {points : List EvaluationPoint} {last : Nat}

theorem Ordered.rounds (ordered : Ordered episodes last) (interval count : Nat) :
    Ordered (episodes ++ Trainer.rounds interval last count) (last + count) :=
  ordered.append (rounds_pairwise interval last count)
    (fun _ there => ⟨(mem_rounds.mp there).1, (mem_rounds.mp there).2.1⟩) (Nat.le_add_right _ _)

theorem latest_iff (ordered : Ordered (points.map (·.episode)) last) (m : Metrics Float) :
    (points.getLast?.filter (·.episode == last)).map (·.metrics) = some m ↔
      ⟨last, m⟩ ∈ points := by
  rcases points.eq_nil_or_concat' with rfl | ⟨earlier, latest, rfl⟩
  · simp
  simp only [List.getLast?_concat, List.mem_append, List.mem_singleton, Option.map_eq_some_iff,
    Option.filter_eq_some_iff, Option.some.injEq, beq_iff_eq]
  constructor
  · rintro ⟨p, ⟨rfl, rfl⟩, rfl⟩
    exact .inr rfl
  · rintro (there | same)
    · exact absurd (ordered.before _ there) (Nat.lt_irrefl last)
    · exact ⟨latest, ⟨rfl, same ▸ rfl⟩, same ▸ rfl⟩

end

/-- What is added to the books. -/
structure Additions where
  records : List (EpisodeRecord Float) := []
  points : List EvaluationPoint := []
  stored : List String := []
  /-- Episode and key of the failures. -/
  failed : List (Nat × String) := []
  announced : List Announcement := []

structure Adds (t : Trainer ω) (a : Additions) (u : Trainer ω) : Prop where
  plan : u.plan = t.plan
  history : u.history = t.history ++ a.records
  evaluations : u.evaluations = t.evaluations ++ a.points
  checkpoints : u.checkpoints = t.checkpoints ++ a.stored
  failures : u.failures.map (fun f => (f.episode, f.key)) =
    t.failures.map (fun f => (f.episode, f.key)) ++ a.failed
  announcements : u.announcements = t.announcements ++ a.announced

/-- The evaluation after an episode, if there was one. -/
def noted (episode : Nat) (m : Option (Metrics Float)) : List EvaluationPoint :=
  m.toList.map fun m => ⟨episode, m⟩

/-- The keys that writes of checkpoints leave behind when they end well. -/
def storedKeys (outcomes : List (Nat × Bool)) : List String :=
  (outcomes.filter (·.2)).map fun o => checkpointKey (.count o.1)

/-- The entries of those that fail. -/
def failedKeys (outcomes : List (Nat × Bool)) : List (Nat × String) :=
  (outcomes.filter (!·.2)).map fun o => (o.1, checkpointKey (.count o.1))

/-- What episodes add that come after the first ones and keep to their intervals. -/
structure Scheduled (evalEvery saveEvery before count : Nat) (a : Additions) : Prop where
  numbered : a.records.map (·.episode) = List.range' (before + 1) count
  evaluated : a.points.map (·.episode) = rounds evalEvery before count
  written : ∃ outcomes : List (Nat × Bool), outcomes.map (·.1) = rounds saveEvery before count ∧
    a.stored = storedKeys outcomes ∧ a.failed = failedKeys outcomes
  announced : a.announced.map (·.record) = a.records
  told : a.announced.filterMap Announcement.point? = a.points
  timely : ∀ x ∈ a.announced, x.evaluation.isSome = due evalEvery x.record.episode

section
variable {evalEvery saveEvery before count : Nat} {a : Additions}

theorem scheduled_empty (evalEvery saveEvery before : Nat) :
    Scheduled evalEvery saveEvery before 0 {} :=
  ⟨rfl, rfl, ⟨[], rfl, rfl, rfl⟩, rfl, rfl, nofun⟩

/-- One more episode, with an evaluation and a write if they are due. -/
theorem Scheduled.next (scheduled : Scheduled evalEvery saveEvery before count a)
    {r : EpisodeRecord Float} {m : Option (Metrics Float)} {outcomes : List (Nat × Bool)}
    (number : r.episode = before + count + 1)
    (evaluated : m.isSome = due evalEvery (before + count + 1))
    (written : outcomes.map (·.1) = onDue saveEvery (before + count + 1)) :
    Scheduled evalEvery saveEvery before (count + 1)
      { records := a.records ++ [r]
        points := a.points ++ noted (before + count + 1) m
        stored := a.stored ++ storedKeys outcomes
        failed := a.failed ++ failedKeys outcomes
        announced := a.announced ++ [⟨r, m⟩] } where
  numbered := by
    rw [List.map_append, scheduled.numbered, List.range'_1_concat, List.map_singleton, number,
      Nat.add_right_comm]
  evaluated := by
    rw [List.map_append, scheduled.evaluated, rounds_succ, onDue, ← evaluated]
    cases m <;> rfl
  written := by
    obtain ⟨earlier, tried, stored, failed⟩ := scheduled.written
    refine ⟨earlier ++ outcomes, ?_, ?_, ?_⟩
    · rw [List.map_append, tried, written, rounds_succ]
    · rw [stored, storedKeys, storedKeys, storedKeys, List.filter_append, List.map_append]
    · rw [failed, failedKeys, failedKeys, failedKeys, List.filter_append, List.map_append]
  announced := by
    rw [List.map_append, scheduled.announced]
    rfl
  told := by
    rw [List.filterMap_append, scheduled.told, ← number]
    cases m <;> rfl
  timely := by
    intro x there
    rcases List.mem_append.mp there with early | late
    · exact scheduled.timely x early
    · cases List.mem_singleton.mp late
      rw [evaluated, number]

theorem Scheduled.ordered (scheduled : Scheduled evalEvery saveEvery before count a)
    {points : List EvaluationPoint} (ordered : Ordered (points.map (·.episode)) before) :
    Ordered ((points ++ a.points).map (·.episode)) (before + count) := by
  rw [List.map_append, scheduled.evaluated]
  exact ordered.rounds evalEvery count

theorem Scheduled.length (scheduled : Scheduled evalEvery saveEvery before count a) :
    a.records.length = count := by
  simpa using congrArg List.length scheduled.numbered

end

/-- The plan stands, and evaluations are in the order of the episodes that they came after. -/
structure InTime (plan : TrainingPlan) (t : Trainer ω) : Prop where
  plan : t.plan = plan
  ordered : Ordered (t.evaluations.map (·.episode)) t.history.length

section
variable {t u : Trainer ω} {a : Additions} {episode : Nat}

theorem Adds.refl (t : Trainer ω) : Adds t {} t := by
  constructor <;> simp

theorem Adds.inTime (adds : Adds t a u)
    (ordered : Ordered ((t.evaluations ++ a.points).map (·.episode))
      (t.history.length + a.records.length)) : InTime t.plan u := by
  refine ⟨adds.plan, ?_⟩
  rw [adds.evaluations, adds.history, List.length_append]
  exact ordered

theorem Adds.unheard (t : Trainer ω) (a : Additions) : Unheard (Adds t a) :=
  fun _ _ adds => { adds with }

/-! What the parts of a call add. -/

theorem runEpisode_adds (t : Trainer ω) (a : Additions) (episode : Nat) :
    Op.Ensures (Adds t a) (inScene (Scene.runEpisode true episode))
      (fun r u => r.episode = episode ∧ Adds t a u) (fun _ => Adds t a) := by
  apply Op.ensures_onPart
  rintro u adds s rfl
  rw [Scene.run_runEpisode]
  rcases ran : Rollout.run true episode u.scene.env u.scene.agent with ⟨fault | r, env, agent⟩
  · exact { adds with }
  · exact ⟨Rollout.run_episode (congrArg (·.1) ran), { adds with }⟩

theorem evaluate_adds (t : Trainer ω) (a : Additions) (episode : Nat) :
    Op.Ensures (Adds t a) (evaluate episode)
      (fun m => Adds t { a with points := a.points ++ [⟨episode, m⟩] }) (fun _ => Adds t a) := by
  apply ensures_evaluate (Adds.unheard t a)
  · intro u number s adds
    rcases (Scene.runEpisode false number).run s with ⟨fault | r, s⟩ <;> exact { adds with }
  · intro u m adds
    exact { adds with
      evaluations := by
        rw [← List.append_assoc, ← adds.evaluations] }

/-- A checkpoint goes on one list or the other. -/
theorem saveCheckpoint_adds (t : Trainer ω) (a : Additions) (episode : Nat) :
    Op.Ensures (Adds t a) (saveCheckpoint episode)
      (fun _ u => ∃ ok, Adds t { a with
        stored := a.stored ++ storedKeys [(episode, ok)]
        failed := a.failed ++ failedKeys [(episode, ok)] } u)
      (fun _ u => ∃ ok, Adds t { a with
        stored := a.stored ++ storedKeys [(episode, ok)]
        failed := a.failed ++ failedKeys [(episode, ok)] } u) := by
  have failing (e : Fault) (u : Trainer ω) (adds : Adds t a u) :
      Adds t { a with
          stored := a.stored ++ storedKeys [(episode, false)]
          failed := a.failed ++ failedKeys [(episode, false)] }
        { u with failures := u.failures ++ [⟨episode, checkpointKey (.count episode), e.message⟩] } :=
    { adds with
      checkpoints := by simpa [storedKeys] using adds.checkpoints
      failures := by simp [adds.failures, failedKeys] }
  apply ensures_persist (fun _ => Adds.unheard t _) _ (fun _ _ adds _ => ⟨false, adds⟩)
    fun _ _ adds _ => ⟨false, adds⟩
  apply Op.ensures_get
  intro v
  refine Op.Ensures.bind (fun _ => Adds t a) ?_ fun payload => ?_
  · exact (Op.ensures_ofExcept _).weaken (fun _ => And.right) (fun _ _ => And.right)
      fun e u holds => failing e u holds.2
  refine Op.Ensures.bind (fun _ => Adds t a) ?_ fun _ => ?_
  · apply Op.ensures_onPart
    intro u adds world _
    rcases (v.storage.checkpoints.save (checkpointKey (.count episode)) payload).run world with
      ⟨e | _, world⟩
    · exact failing e { u with world } { adds with }
    · exact { adds with }
  · refine Op.ensures_modify fun u adds => ⟨true, { adds with checkpoints := ?_, failures := ?_ }⟩
    · simp [adds.checkpoints, storedKeys]
    · simpa [failedKeys] using adds.failures

theorem saveCurve_adds (t : Trainer ω) (a : Additions) (episode : Nat) :
    Op.Ensures (Adds t a) (saveCurve episode)
      (fun _ u => ∃ curve, (curve = [] ∨ curve = [(episode, curveKey)]) ∧
        Adds t { a with failed := a.failed ++ curve } u)
      (fun _ u => ∃ curve, (curve = [] ∨ curve = [(episode, curveKey)]) ∧
        Adds t { a with failed := a.failed ++ curve } u) := by
  apply ensures_persist
    (fun _ => Adds.unheard t { a with failed := a.failed ++ [(episode, curveKey)] }) _
    (fun _ _ adds _ => ⟨_, .inr rfl, adds⟩) fun _ _ adds _ => ⟨_, .inr rfl, adds⟩
  apply Op.ensures_get
  intro v
  apply Op.ensures_onPart
  rintro u ⟨rfl, adds⟩ world _
  rcases (u.storage.writeCurve (curveJson u.history).indented).run world with ⟨e | _, world⟩
  · exact { adds with failures := by simp [adds.failures] }
  · exact ⟨[], .inl rfl, { adds with failures := by simp [adds.failures] }⟩

theorem evaluateDue_adds {evalEvery : Nat} (t : Trainer ω) (a : Additions) (episode last : Nat)
    (ordered : Ordered ((t.evaluations ++ a.points).map (·.episode))
      (t.history.length + a.records.length)) :
    Op.Ensures (Adds t a) (evaluateDue episode last evalEvery)
      (fun m u => m.isSome = due evalEvery episode ∧
        Adds t { a with points := a.points ++ noted episode m } u)
      (fun _ => InTime t.plan) := by
  apply ensures_evaluateDue
  · intro m u console holds
    exact ⟨holds.1, Adds.unheard t _ u console holds.2⟩
  · intro isDue
    exact (evaluate_adds t a _).weaken (fun _ => id) (fun m u adds => ⟨isDue.symm, adds⟩)
      fun _ u adds => adds.inTime ordered
  · intro notDue u adds
    exact ⟨notDue.symm, by simpa [noted] using adds⟩

theorem saveDue_adds {saveEvery : Nat} (t : Trainer ω) (a : Additions) (episode : Nat)
    (ordered : Ordered ((t.evaluations ++ a.points).map (·.episode))
      (t.history.length + a.records.length)) :
    Op.Ensures (Adds t a) (saveDue episode saveEvery)
      (fun _ u => ∃ outcomes : List (Nat × Bool), outcomes.map (·.1) = onDue saveEvery episode ∧
        Adds t { a with
          stored := a.stored ++ storedKeys outcomes
          failed := a.failed ++ failedKeys outcomes } u)
      (fun _ => InTime t.plan) := by
  apply Op.Ensures.ite
  · intro isDue
    refine (saveCheckpoint_adds t a _).weaken (fun _ => id) ?_ ?_
    · rintro _ u ⟨ok, adds⟩
      exact ⟨_, by rw [onDue, if_pos isDue]; rfl, adds⟩
    · rintro _ u ⟨ok, adds⟩
      exact adds.inTime ordered
  · intro notDue
    refine Op.ensures_pure fun u adds => ⟨[], by rw [onDue, if_neg notDue]; rfl, ?_⟩
    simpa [storedKeys, failedKeys] using adds

/-- An episode with its bookkeeping keeps to the schedule. Where it fails, evaluations are still in
time. -/
theorem trainOne_adds {evalEvery saveEvery count : Nat}
    (ordered : Ordered (t.evaluations.map (·.episode)) t.history.length) (last : Nat) :
    Op.Ensures (fun u => ∃ a, Scheduled evalEvery saveEvery t.history.length count a ∧ Adds t a u)
      (trainOne (t.history.length + count + 1) last evalEvery saveEvery)
      (fun _ u => ∃ a, Scheduled evalEvery saveEvery t.history.length (count + 1) a ∧ Adds t a u)
      (fun _ => InTime t.plan) := by
  rintro u ⟨a, scheduled, adds⟩
  have ordered := scheduled.ordered ordered
  suffices contract : Op.Ensures (Adds t a) _ _ _ from contract u adds
  rw [trainOne_eq]
  refine ((runEpisode_adds t a _).weaken (fun _ => id) (fun _ _ => id)
    fun _ u adds => adds.inTime (by rw [scheduled.length]; exact ordered)).bind _ fun r => ?_
  refine Op.Ensures.given (fun _ => And.left) fun number => ?_
  -- from here on the record is one of the additions
  let b : Additions := { a with records := a.records ++ [r] }
  have length : b.records.length = count + 1 := by
    rw [List.length_append, scheduled.length, List.length_singleton]
  have recorded : Op.Ensures (fun u => r.episode = t.history.length + count + 1 ∧ Adds t a u)
      (modify (record r)) (fun _ => Adds t b) fun _ => InTime t.plan := by
    apply Op.ensures_modify
    rintro u ⟨_, adds⟩
    exact { adds with history := by rw [record, adds.history, List.append_assoc] }
  refine recorded.bind _ fun _ => ?_
  have ordered (m : Option (Metrics Float)) :
      Ordered ((t.evaluations ++ (b.points ++ noted (t.history.length + count + 1) m)).map
        (·.episode)) (t.history.length + b.records.length) := by
    rw [← List.append_assoc, List.map_append, length]
    refine ordered.append ?_ ?_ ?_
    · cases m <;> simp [noted]
    · cases m <;> simp [noted, Nat.add_assoc]
    · exact Nat.le_succ _
  refine (evaluateDue_adds t b _ last (by simpa [noted] using ordered none)).bind _ fun m => ?_
  refine Op.Ensures.given (fun _ => And.left) fun onSchedule => ?_
  refine ((saveDue_adds t _ _ (ordered m)).weaken (fun _ => And.right) (fun _ _ => id)
    fun _ _ => id).bind _ fun _ => ?_
  apply Op.ensures_modify
  rintro u ⟨outcomes, written, adds⟩
  refine ⟨_, scheduled.next number onSchedule written, { adds with announcements := ?_ }⟩
  rw [announce, adds.announcements, List.append_assoc]

/-- The episode after which the final evaluation comes, unless there is none. -/
def finals (evalEvery evalEpisodes last count : Nat) : List Nat :=
  if 0 < count ∧ 0 < evalEpisodes ∧ due evalEvery last = false then [last] else []

/-- The additions of a call's episodes, with the evaluation that may come at the end and what is
answered as the last one. -/
structure Concluded (t : Trainer ω) (evalEvery saveEvery count : Nat) (a : Additions)
    (final : List EvaluationPoint) (latest : Option (Metrics Float)) : Prop where
  scheduled : Scheduled evalEvery saveEvery t.history.length count a
  closing : final.map (·.episode) =
    finals evalEvery t.plan.evalEpisodes (t.history.length + count) count
  ordered : Ordered ((t.evaluations ++ (a.points ++ final)).map (·.episode))
    (t.history.length + count)
  answer : ∀ m, latest = some m ↔
    ⟨t.history.length + count, m⟩ ∈ t.evaluations ++ (a.points ++ final)

section
variable {evalEvery saveEvery count : Nat}
  (ordered : Ordered (t.evaluations.map (·.episode)) t.history.length)

include ordered in
theorem evaluated_iff (scheduled : Scheduled evalEvery saveEvery t.history.length count a)
    (some : 0 < count) :
    t.history.length + count ∈ (t.evaluations ++ a.points).map (·.episode) ↔
      due evalEvery (t.history.length + count) = true := by
  have old : t.history.length + count ∉ t.evaluations.map (·.episode) := by
    intro there
    have within := ordered.2 _ there
    omega
  rw [List.map_append, List.mem_append, or_iff_right old, scheduled.evaluated, mem_rounds, due,
    Bool.and_eq_true, decide_eq_true_eq, beq_iff_eq, Nat.dvd_iff_mod_eq_zero]
  omega

include ordered in
/-- The last episode of a call is left to evaluate exactly if that was not due. -/
theorem unevaluated_iff (scheduled : Scheduled evalEvery saveEvery t.history.length count a)
    (adds : Adds t a u) :
    u.unevaluated (t.history.length + count) count = true ↔
      0 < count ∧ 0 < t.plan.evalEpisodes ∧ due evalEvery (t.history.length + count) = false := by
  rw [unevaluated, adds.evaluations, adds.plan, Bool.and_eq_true, Bool.and_eq_true,
    decide_eq_true_eq, decide_eq_true_eq, stale_iff (scheduled.ordered ordered)]
  constructor
  · rintro ⟨fresh, evaluates, some⟩
    rw [evaluated_iff ordered scheduled some, Bool.not_eq_true] at fresh
    exact ⟨some, evaluates, fresh⟩
  · rintro ⟨some, evaluates, notDue⟩
    rw [evaluated_iff ordered scheduled some, Bool.not_eq_true]
    exact ⟨notDue, evaluates, some⟩

include ordered in
theorem finalEvaluation_adds :
    Op.Ensures (fun u => ∃ a, Scheduled evalEvery saveEvery t.history.length count a ∧ Adds t a u)
      (finalEvaluation (t.history.length + count) count)
      (fun latest u => ∃ a final, Concluded t evalEvery saveEvery count a final latest ∧
        Adds t { a with points := a.points ++ final } u)
      (fun _ => InTime t.plan) := by
  rintro u ⟨a, scheduled, adds⟩
  have all := scheduled.ordered ordered
  suffices contract : Op.Ensures (Adds t a) _ _ _ from contract u adds
  apply ensures_finalEvaluation
  · refine Op.Ensures.given (c := 0 < count ∧ 0 < t.plan.evalEpisodes ∧
      due evalEvery (t.history.length + count) = false)
      (fun v holds => (unevaluated_iff ordered scheduled holds.1).mp holds.2) fun needed => ?_
    have fresh : t.history.length + count ∉ (t.evaluations ++ a.points).map (·.episode) := by
      rw [evaluated_iff ordered scheduled needed.1, needed.2.2]
      exact Bool.false_ne_true
    refine (evaluate_adds t a _).weaken (fun _ => And.left) ?_ ?_
    · intro m v adds
      refine ⟨a, [⟨_, m⟩], ⟨scheduled, ?_, ?_, ?_⟩, adds⟩
      · rw [finals, if_pos needed]
        rfl
      · rw [← List.append_assoc, List.map_append]
        exact all.concat fresh
      · intro other
        rw [← List.append_assoc, ← latest_iff (by
          rw [List.map_append]
          exact all.concat fresh)]
        simp
    · intro _ v adds
      rw [← scheduled.length] at all
      exact adds.inTime all
  · intro v adds evaluated
    refine ⟨a, [], ⟨scheduled, ?_, by simpa using all, ?_⟩, by simpa using adds⟩
    · rw [finals, if_neg fun needed => ?_]
      · rfl
      · rw [(unevaluated_iff ordered scheduled adds).mpr needed] at evaluated
        cases evaluated
    · intro m
      rw [latest?, adds.evaluations, List.append_nil]
      exact latest_iff all m

end

theorem trainMany_adds {evalEvery saveEvery : Nat}
    (ordered : Ordered (t.evaluations.map (·.episode)) t.history.length) (last count : Nat)
    (console : List Entry) :
    Op.Ensures (· = { t with scene := { t.scene with console } })
      (trainMany last evalEvery saveEvery count (t.history.length + 1))
      (fun _ u => ∃ a, Scheduled evalEvery saveEvery t.history.length count a ∧ Adds t a u)
      (fun _ => InTime t.plan) := by
  have one : ∀ i < count, Op.Ensures
      (fun u => ∃ a, Scheduled evalEvery saveEvery t.history.length i a ∧ Adds t a u)
      (trainOne (t.history.length + 1 + i) last evalEvery saveEvery)
      (fun _ u => ∃ a, Scheduled evalEvery saveEvery t.history.length (i + 1) a ∧ Adds t a u)
      fun _ => InTime t.plan := by
    intro i _
    rw [Nat.add_right_comm]
    exact trainOne_adds ordered last
  have many := ensures_trainMany one count 0 (Nat.zero_add count)
  refine many.weaken ?_ (fun _ _ => id) fun _ _ => id
  rintro u rfl
  exact ⟨{}, scheduled_empty _ _ _, Adds.unheard t {} t console (Adds.refl t)⟩

/-- Evaluations are in time after every call, and a call that answers keeps to its schedule. -/
theorem call_adds (t : Trainer ω) (c : TrainingCall)
    (ordered : Ordered (t.evaluations.map (·.episode)) t.history.length) :
    Op.Ensures (· = t) (call c)
      (fun r u => ∃ evalEvery saveEvery count, c.accepted? = some count ∧
        requireInterval "evalEvery" c.evalEvery = .ok evalEvery ∧
        requireInterval "saveEvery" c.saveEvery = .ok saveEvery ∧
        ∃ a final curve, Concluded t evalEvery saveEvery count a final r.lastEvaluation ∧
          (curve = [] ∨ curve = [(t.history.length + count, curveKey)]) ∧
          Adds t { a with points := a.points ++ final, failed := a.failed ++ curve } u)
      (fun _ => InTime t.plan) := by
  cases accepted : c.accepted? with
  | none =>
    obtain ⟨e, ran⟩ := call_refused accepted t
    rintro _ rfl
    rw [ran]
    exact ⟨rfl, ordered⟩
  | some count =>
    obtain ⟨evalEvery, saveEvery, evaluates, saves⟩ := accepted_intervals accepted
    refine (ensures_call_of_result t c
      (fun n u => ∃ a, Scheduled evalEvery saveEvery t.history.length n a ∧ Adds t a u)
      (fun n latest u => ∃ a final, Concluded t evalEvery saveEvery n a final latest ∧
        Adds t { a with points := a.points ++ final } u)
      (fun n latest u => ∃ a final curve, Concluded t evalEvery saveEvery n a final latest ∧
        (curve = [] ∨ curve = [(t.history.length + n, curveKey)]) ∧
        Adds t { a with points := a.points ++ final, failed := a.failed ++ curve } u)
      ?_ ?_ ?_ ?_ ?_).weaken (fun _ => id) ?_ fun _ _ => id
    · rintro n latest u console ⟨a, final, curve, concluded, kinds, adds⟩
      exact ⟨a, final, curve, concluded, kinds, Adds.unheard t _ u console adds⟩
    · intro e refused
      rw [refused] at accepted
      cases accepted
    · intro n _ e s evaluates' saves'
      obtain ⟨console, ran⟩ := t.run_announceStart n
      cases evaluates.symm.trans evaluates'
      cases saves.symm.trans saves'
      rw [ran]
      exact trainMany_adds ordered _ n console
    · exact fun n _ => finalEvaluation_adds ordered
    · rintro n _ latest u ⟨a, final, concluded, adds⟩
      have inTime (curve : List (Nat × String)) (v : Trainer ω) (adds : Adds t { a with
          points := a.points ++ final, failed := a.failed ++ curve } v) : InTime t.plan v :=
        adds.inTime (by rw [concluded.scheduled.length]; exact concluded.ordered)
      refine (saveCurve_adds t { a with points := a.points ++ final } _).weaken (fun _ => id) ?_ ?_
        u adds
      · rintro _ v ⟨curve, kinds, adds⟩
        exact ⟨a, final, curve, concluded, kinds, adds⟩
      · rintro _ v ⟨curve, _, adds⟩
        exact inTime curve v adds
    · rintro r u ⟨n, latest, again, rfl, a, final, curve, concluded, kinds, adds⟩
      cases accepted.symm.trans again
      exact ⟨evalEvery, saveEvery, count, rfl, evaluates, saves, a, final, curve, concluded, kinds,
        adds⟩

theorem afterCalls_inTime {plan : TrainingPlan} (inTime : InTime plan t)
    (calls : List TrainingCall) : InTime plan (t.afterCalls calls) := by
  induction calls generalizing t with
  | nil => exact inTime
  | cons c calls ih =>
    obtain ⟨rfl, ordered⟩ := inTime
    have led := call_adds t c ordered t rfl
    rw [afterCalls_cons]
    apply ih
    rcases answered : (call c).run t with ⟨e | r, u⟩ <;> rw [answered] at led
    · exact led
    · obtain ⟨_, _, _, _, _, _, a, final, curve, concluded, _, adds⟩ := led
      apply adds.inTime
      rw [concluded.scheduled.length]
      exact concluded.ordered

end

/-- What a call that answers adds to the books of a trainer after any calls: a record for each of
its episodes; an evaluation at each multiple of its interval, and one after its last episode if that
was not due and there is anything to evaluate; for each multiple of the other interval an entry
under its key among the checkpoints or the failures, and besides at most a failure of the curve; an
announcement of each episode with the evaluation that was due after it. It answers with the
evaluation of its last episode, whenever that was made. -/
theorem schedule_met {request : TrainingRequest} {storage : TrainingStorage ω} {scene : Scene}
    {world : ω} {first : Trainer ω} (built : create request storage scene world = .ok first)
    (earlier : List TrainingCall) (c : TrainingCall) {n evalEvery saveEvery : Nat}
    (counted : Scene.requireCount "numEpisodes" c.count = .ok n)
    (evaluates : requireInterval "evalEvery" c.evalEvery = .ok evalEvery)
    (saves : requireInterval "saveEvery" c.saveEvery = .ok saveEvery)
    {r : TrainingResult} {u : Trainer ω}
    (answered : (call c).run (first.afterCalls earlier) = (.ok r, u)) :
    let t := first.afterCalls earlier
    let last := t.history.length + n
    ∃ a final curve, Scheduled evalEvery saveEvery t.history.length n a ∧
      Adds t { a with points := a.points ++ final, failed := a.failed ++ curve } u ∧
      final.map (·.episode) =
        (if 0 < n ∧ 0 < first.plan.evalEpisodes ∧ due evalEvery last = false then [last] else []) ∧
      (curve = [] ∨ curve = [(last, curveKey)]) ∧
      (∀ m, r.lastEvaluation = some m ↔ ⟨last, m⟩ ∈ u.evaluations) ∧
      (last < Quantity.exactBound → ∀ episode ∈ rounds saveEvery t.history.length n,
        checkpointKey (.count episode) = "checkpoint_ep" ++ toString episode) := by
  intro t last
  obtain ⟨plan, _, start⟩ := create_eq_ok built
  have opened : InTime first.plan first := by
    rw [start]
    exact ⟨rfl, .nil, nofun⟩
  obtain ⟨same, ordered⟩ := afterCalls_inTime opened earlier
  have accepted : c.accepted? = some n := by
    simp only [TrainingCall.accepted?, counted, evaluates, saves]
  have led := call_adds t c ordered t rfl
  rw [answered] at led
  obtain ⟨e, s, m, again, evaluates', saves', a, final, curve, concluded, kinds, adds⟩ := led
  cases accepted.symm.trans again
  cases evaluates.symm.trans evaluates'
  cases saves.symm.trans saves'
  refine ⟨a, final, curve, concluded.scheduled, adds, ?_, kinds, ?_, ?_⟩
  · rw [← same]
    exact concluded.closing
  · intro m
    rw [adds.evaluations]
    exact concluded.answer m
  · intro bound episode there
    exact checkpointKey_count ((mem_rounds.mp there).2.1.trans_lt bound)

def samplePlanned : Except Fault (Trainer Checkpoints.Memory) := do
  let env ← Environment.sample 1 (.ofFunction "echo" Interpreter.runEcho)
  create { evalEpisodes := .count 1, verbose := false } sampleStorage
    ⟨env.after [], sampleLearner, []⟩ []

/-- After one episode three more, evaluated every three and saved every two; the second one of all
cannot be saved. -/
theorem schedule_met_sample : ∃ first r u, samplePlanned = .ok first ∧
    (call ⟨.count 3, .count 3, .count 2⟩).run
      (first.afterCalls [⟨.count 1, .count 0, .count 0⟩]) = (.ok r, u) ∧
    u.evaluations.map (·.episode) = [1, 3, 4] ∧
    (∀ m, r.lastEvaluation = some m ↔ ⟨4, m⟩ ∈ u.evaluations) ∧
    ∃ outcomes : List (Nat × Bool), outcomes.map (·.1) = [2, 4] ∧
      u.checkpoints = storedKeys outcomes ∧ u.checkpoints = ["checkpoint_ep4"] := by
  obtain ⟨env, created⟩ : ∃ env,
    Environment.sample 1 (.ofFunction "echo" Interpreter.runEcho) = .ok env := ⟨_, rfl⟩
  obtain ⟨first, built⟩ : ∃ first, create { evalEpisodes := .count 1, verbose := false }
    sampleStorage ⟨env.after [], sampleLearner, []⟩ [] = .ok first := ⟨_, rfl⟩
  have whole : samplePlanned = .ok first := by
    rw [samplePlanned, created]
    exact built
  have run : samplePlanned.toOption.any (fun first =>
      let t := first.afterCalls [⟨.count 1, .count 0, .count 0⟩]
      let ran := (call ⟨.count 3, .count 3, .count 2⟩).run t
      ran.1.isOk && t.history.length == 1 && first.plan.evalEpisodes == 1 &&
        t.evaluations.map (·.episode) == [1] && t.checkpoints.isEmpty &&
        ran.2.checkpoints == ["checkpoint_ep4"]) = true := by
    decide +kernel
  simp only [whole, Except.toOption, Option.any_some, Bool.and_eq_true, beq_iff_eq,
    List.isEmpty_iff] at run
  obtain ⟨⟨⟨⟨⟨ok, one⟩, episodes⟩, evaluated⟩, unsaved⟩, saved⟩ := run
  rcases answered : (call ⟨.count 3, .count 3, .count 2⟩).run
    (first.afterCalls [⟨.count 1, .count 0, .count 0⟩]) with ⟨e | r, u⟩
  · rw [answered] at ok
    cases ok
  rw [answered] at saved
  obtain ⟨a, final, curve, scheduled, adds, closing, _, latest, _⟩ := schedule_met built
    [⟨.count 1, .count 0, .count 0⟩] ⟨.count 3, .count 3, .count 2⟩ rfl rfl rfl answered
  rw [one] at scheduled closing latest
  rw [episodes] at closing
  obtain ⟨outcomes, written, stored, _⟩ := scheduled.written
  refine ⟨first, r, u, whole, answered, ?_, latest, outcomes, written, ?_, saved⟩
  · rw [adds.evaluations, List.map_append, List.map_append, evaluated, scheduled.evaluated, closing]
    decide
  · rw [adds.checkpoints, unsaved, stored, List.nil_append]

end Trainer
end ProgramGym
