import Mathlib
import ProgramGym.Proofs.Environment.Runs
import ProgramGym.Proofs.Rollout
import ProgramGym.Proofs.Trainer.Calls

/-! The books of a trainer: the history, the evaluations, the checkpoints and their failures, and
the agent's own count of episodes. A call may be cut short inside an episode, in an evaluation, at
a write or by its arguments; what stands in the books by then is what later calls go on from. The
invariant says how far each book has been kept, so that it also holds halfway through an episode's
bookkeeping. Main statement: the books agree with one another after any calls. -/
namespace ProgramGym

theorem Quantity.eq_count_of_positive? {q : Quantity Float} {n : Nat}
    (positive : q.positive? = some n) : q = .count n := by
  cases q with
  | count m =>
    simp only [Quantity.positive?, Option.ite_none_right_eq_some, Option.some.injEq] at positive
    rw [positive.2]
  | other _ | foreign _ => cases positive

namespace Trainer
variable {ω : Type}

/-- Episodes in their order up to a last one. -/
def Ordered (episodes : List Nat) (last : Nat) : Prop :=
  episodes.Pairwise (· < ·) ∧ ∀ n ∈ episodes, n ≤ last

section
variable {episodes : List Nat} {last : Nat}

theorem Ordered.mono (ordered : Ordered episodes last) {later : Nat} (later_le : last ≤ later) :
    Ordered episodes later :=
  ⟨ordered.1, fun n there => (ordered.2 n there).trans later_le⟩

theorem Ordered.append (ordered : Ordered episodes last) {more : List Nat} {later : Nat}
    (sorted : more.Pairwise (· < ·)) (above : ∀ n ∈ more, last < n ∧ n ≤ later)
    (later_le : last ≤ later) : Ordered (episodes ++ more) later := by
  constructor
  · rw [List.pairwise_append]
    exact ⟨ordered.1, sorted, fun m early n late => (ordered.2 m early).trans_lt (above n late).1⟩
  · intro n there
    rcases List.mem_append.mp there with early | late
    · exact (ordered.2 n early).trans later_le
    · exact (above n late).2

theorem Ordered.below (ordered : Ordered episodes last) (fresh : last ∉ episodes) :
    ∀ n ∈ episodes, n < last :=
  fun n there => (ordered.2 n there).lt_of_ne fun same => fresh (same ▸ there)

theorem Ordered.concat (ordered : Ordered episodes last) (fresh : last ∉ episodes) :
    Ordered (episodes ++ [last]) last := by
  constructor
  · rw [List.pairwise_append]
    refine ⟨ordered.1, List.pairwise_singleton _ _, fun m early n late => ?_⟩
    rw [List.mem_singleton.mp late]
    exact ordered.below fresh m early
  · intro n there
    rcases List.mem_append.mp there with early | late
    · exact ordered.2 n early
    · exact (List.mem_singleton.mp late).le

end

section
variable {points earlier : List EvaluationPoint} {latest : EvaluationPoint} {last : Nat}

/-- Among ordered evaluations only the last one can be that of the last episode. -/
theorem Ordered.before (ordered : Ordered ((earlier ++ [latest]).map (·.episode)) last) :
    ∀ p ∈ earlier, p.episode < last := by
  intro p there
  have follows : p.episode < latest.episode := by
    have sorted := ordered.1
    rw [List.map_append, List.pairwise_append] at sorted
    exact sorted.2.2 _ (List.mem_map_of_mem there) _ (by simp)
  exact follows.trans_le (ordered.2 _ (by simp))

theorem stale_iff (ordered : Ordered (points.map (·.episode)) last) :
    (points.getLast?.all fun p => p.episode != last) = true ↔ last ∉ points.map (·.episode) := by
  rcases points.eq_nil_or_concat' with rfl | ⟨earlier, latest, rfl⟩
  · simp
  have old : last ∉ earlier.map (·.episode) := by
    intro there
    obtain ⟨p, there, same⟩ := List.mem_map.mp there
    exact (ordered.before p there).ne same
  simp only [List.getLast?_concat, Option.all_some, bne_iff_ne, List.map_append, List.map_singleton,
    List.mem_append, List.mem_singleton, old, false_or]
  exact ne_comm

end

/-- How far the books have been kept. -/
structure Marks where
  /-- Episodes that the agent has counted. -/
  trained : Nat
  recorded : Nat
  /-- No evaluation came after a later episode. -/
  evaluated : Nat
  /-- No checkpoint was tried after a later episode. -/
  saved : Nat

/-- All books are kept up to an episode. -/
def Marks.at (n : Nat) : Marks := ⟨n, n, n, n⟩

/-- An agent's counter goes up to the bound of exact numbers and stays there. -/
def counted (n : Nat) : Quantity Float := .count (min n Quantity.exactBound)

/-- Checkpoints in the order of their episodes, and failures under other keys. -/
def Filed (saved : Nat) (checkpoints : List String) (failures : List CheckpointFailure) : Prop :=
  ∃ stored : List Nat, checkpoints = stored.map (fun n => checkpointKey (.count n)) ∧
    stored.Pairwise (· < ·) ∧ (∀ n ∈ stored, n ≤ saved) ∧
    ∀ f ∈ failures, f.key = curveKey ∨
      (f.key = checkpointKey (.count f.episode) ∧ f.episode ∉ stored ∧ f.episode ≤ saved)

structure Books (start : Nat) (m : Marks) (t : Trainer ω) : Prop where
  budget : 0 < t.scene.env.rules.settings.maxSteps
  counter : t.scene.agent.episodes = counted (start + m.trained)
  numbered : t.history.map (·.episode) = List.range' 1 m.recorded
  ordered : (t.evaluations.map (·.episode)).Pairwise (· < ·)
  evaluated : ∀ p ∈ t.evaluations, p.episode ≤ m.evaluated
  filed : Filed m.saved t.checkpoints t.failures

/-- The books agree, whatever came before. -/
def Balanced (start : Nat) (t : Trainer ω) : Prop := ∃ n, Books start (.at n) t

section
variable {start : Nat} {m : Marks} {t : Trainer ω}

theorem next_counted (n : Nat) : (counted n).next = counted (n + 1) := by
  unfold counted
  by_cases below : n < Quantity.exactBound
  · rw [Nat.min_eq_left (Nat.le_of_lt below), Nat.min_eq_left below, Quantity.next, if_pos below]
  · have rounded : Scalar.toNat? (Scalar.nat Quantity.exactBound + Scalar.nat 1 : Float) =
        some Quantity.exactBound := by decide +kernel
    have atBound : (Quantity.count Quantity.exactBound : Quantity Float).next =
        .count Quantity.exactBound := by
      rw [Quantity.next, if_neg (Nat.lt_irrefl _), Quantity.ofScalar, rounded]
    rw [Nat.min_eq_right (Nat.le_of_not_lt below), Nat.min_eq_right (by omega), atBound]

theorem Books.length (books : Books start m t) : t.history.length = m.recorded := by
  simpa using congrArg List.length books.numbered

/-- Books that are kept up to somewhere are kept no further than any later mark. -/
theorem Books.mono {evaluated saved : Nat} (books : Books start m t)
    (evaluations : m.evaluated ≤ evaluated) (checkpoints : m.saved ≤ saved) :
    Books start { m with evaluated, saved } t := by
  obtain ⟨stored, keys, sorted, bound, failures⟩ := books.filed
  exact { books with
    evaluated := fun p there => (books.evaluated p there).trans evaluations
    filed := ⟨stored, keys, sorted, fun n there => (bound n there).trans checkpoints,
      fun f there => (failures f there).imp id fun ⟨key, fresh, below⟩ =>
        ⟨key, fresh, below.trans checkpoints⟩⟩ }

theorem Books.unheard (start : Nat) (m : Marks) : Unheard (Books start m : Trainer ω → Prop) :=
  fun _ _ books => { books with }

theorem Filed.store {saved episode : Nat} {checkpoints : List String}
    {failures : List CheckpointFailure} (filed : Filed saved checkpoints failures)
    (later : saved < episode) :
    Filed episode (checkpoints ++ [checkpointKey (.count episode)]) failures := by
  obtain ⟨stored, keys, sorted, bound, failed⟩ := filed
  have ordered : Ordered (stored ++ [episode]) episode :=
    Ordered.append ⟨sorted, bound⟩ (List.pairwise_singleton _ _) (by simpa using later) later.le
  refine ⟨_, by simp [keys], ordered.1, ordered.2, fun f there => (failed f there).imp id ?_⟩
  rintro ⟨key, fresh, below⟩
  exact ⟨key, by simp [fresh, (below.trans_lt later).ne], below.trans later.le⟩

theorem Filed.fail {saved episode : Nat} {checkpoints : List String}
    {failures : List CheckpointFailure} (filed : Filed saved checkpoints failures)
    (later : saved < episode) (error : String) :
    Filed episode checkpoints
      (failures ++ [⟨episode, checkpointKey (.count episode), error⟩]) := by
  obtain ⟨stored, keys, sorted, bound, failed⟩ := filed
  refine ⟨stored, keys, sorted, fun n there => (bound n there).trans later.le, fun f there => ?_⟩
  rcases List.mem_append.mp there with there | there
  · exact (failed f there).imp id fun ⟨key, fresh, below⟩ => ⟨key, fresh, below.trans later.le⟩
  · cases List.mem_singleton.mp there
    exact .inr ⟨rfl, fun there => absurd (bound _ there) (Nat.not_le.mpr later), le_rfl⟩

theorem Filed.failCurve {saved : Nat} {checkpoints : List String}
    {failures : List CheckpointFailure} (filed : Filed saved checkpoints failures)
    (episode : Nat) (error : String) :
    Filed saved checkpoints (failures ++ [⟨episode, curveKey, error⟩]) := by
  obtain ⟨stored, keys, sorted, bound, failed⟩ := filed
  refine ⟨stored, keys, sorted, bound, fun f there => ?_⟩
  rcases List.mem_append.mp there with there | there
  · exact failed f there
  · cases List.mem_singleton.mp there
    exact .inl rfl

/-! What an episode, an evaluation and a write do to the books. -/

/-- An episode that ends well is counted before it is recorded. -/
theorem runEpisode_books {n : Nat} :
    Op.Ensures (Books start (.at n) : Trainer ω → Prop)
      (inScene (Scene.runEpisode true (n + 1)))
      (fun record t => record.episode = n + 1 ∧ Books start { Marks.at n with trained := n + 1 } t)
      (fun _ => Balanced start) := by
  refine Op.ensures_onPart fun t books s same => ?_
  subst same
  have rules := Rollout.run_rules true (n + 1) t.scene.env t.scene.agent
  rw [Scene.run_runEpisode]
  rcases ran : Rollout.run true (n + 1) t.scene.env t.scene.agent with ⟨fault | record, env, agent⟩
    <;> rw [ran] at rules
  · have same := (Rollout.run_error books.budget ran).episodes
    exact ⟨n, { books with
      budget := rules ▸ books.budget
      counter := same.trans books.counter }⟩
  · obtain ⟨numbered, counts⟩ := Rollout.run_ok books.budget ran
    refine ⟨numbered, { books with
      budget := rules ▸ books.budget
      counter := ?_ }⟩
    change agent.episodes = _
    rw [counts.episodes, if_pos rfl, books.counter]
    exact next_counted _

theorem record_books {n : Nat} {record : EpisodeRecord Float} (numbered : record.episode = n + 1)
    (books : Books start { Marks.at n with trained := n + 1 } t) :
    Books start ⟨n + 1, n + 1, n, n⟩ { t with history := t.history ++ [record] } :=
  { books with
    numbered := by
      simp [books.numbered, numbered, List.range'_concat, Nat.add_comm, Marks.at] }

/-- A greedy episode leaves the books alone, whether it ends well or not. -/
theorem greedy_books (t : Trainer ω) (number : Nat) :
    Op.Ensures (fun s => Books start m { t with scene := s }) (Scene.runEpisode false number)
      (fun _ s => Books start m { t with scene := s })
      (fun _ s => Books start m { t with scene := s }) := by
  intro s books
  have rules := Rollout.run_rules false number s.env s.agent
  rw [Scene.run_runEpisode]
  rcases ran : Rollout.run false number s.env s.agent with ⟨fault | record, env, agent⟩ <;>
    rw [ran] at rules
  · have same := (Rollout.run_error books.budget ran).episodes
    exact { books with budget := rules ▸ books.budget, counter := same.trans books.counter }
  · have same := (Rollout.run_ok books.budget ran).2.episodes
    exact { books with budget := rules ▸ books.budget, counter := same.trans books.counter }

theorem note_books {episode : Nat} (metrics : Metrics Float)
    (later : ∀ p ∈ t.evaluations, p.episode < episode) (books : Books start m t) :
    Books start { m with evaluated := episode }
      { t with evaluations := t.evaluations ++ [⟨episode, metrics⟩] } where
  budget := books.budget
  counter := books.counter
  numbered := books.numbered
  ordered := by
    simpa [List.pairwise_append, books.ordered] using later
  evaluated := by
    simpa [or_imp, forall_and] using fun p there => (later p there).le
  filed := books.filed

theorem evaluate_books {episode : Nat} :
    Op.Ensures (fun t : Trainer ω => Books start m t ∧ ∀ p ∈ t.evaluations, p.episode < episode)
      (evaluate episode) (fun _ => Books start { m with evaluated := episode })
      (fun _ => Books start m) :=
  ensures_evaluate (fun _ console holds => ⟨holds.1.unheard _ _ _ console, holds.2⟩)
    (fun t number => (greedy_books t number).frame (∀ p ∈ t.evaluations, p.episode < episode))
    fun _ metrics holds => note_books metrics holds.2 holds.1

theorem saveCheckpoint_books {n : Nat} (behind : m.saved < n) :
    Op.Ensures (Books start m : Trainer ω → Prop) (saveCheckpoint n)
      (fun _ => Books start { m with saved := n }) (fun _ => Books start { m with saved := n }) := by
  refine ensures_persist (fun _ => Books.unheard _ _) ?_ (fun _ _ books _ => books)
    fun _ _ books _ => books
  have failed (e : Fault) (t : Trainer ω) (books : Books start m t) :
      Books start { m with saved := n } { t with
        failures := t.failures ++ [⟨n, checkpointKey (.count n), e.message⟩] } :=
    { books with filed := books.filed.fail behind e.message }
  refine Op.ensures_get fun t => ?_
  refine Op.Ensures.bind (fun _ => Books start m) ?_ fun payload => ?_
  · exact (Op.ensures_ofExcept _).weaken (fun _ holds => holds.2) (fun _ _ holds => holds.2)
      (fun _ _ holds => failed _ _ holds.2)
  refine Op.Ensures.bind (fun _ => Books start m) ?_ fun _ => ?_
  · refine Op.ensures_onPart fun u books world _ => ?_
    rcases (t.storage.checkpoints.save (checkpointKey (.count n)) payload).run world with
      ⟨e | _, world⟩
    · exact failed e { u with world } { books with }
    · exact { books with }
  · exact Op.ensures_modify fun t books => { books with filed := books.filed.store behind }

theorem saveCurve_books (episode : Nat) :
    Op.Ensures (Books start m : Trainer ω → Prop) (saveCurve episode) (fun _ => Books start m)
      (fun _ => Books start m) := by
  refine ensures_persist (fun _ => Books.unheard _ _) ?_ (fun _ _ books _ => books)
    fun _ _ books _ => books
  refine Op.ensures_get fun t => Op.ensures_onPart fun u holds world _ => ?_
  obtain ⟨rfl, books⟩ := holds
  rcases (u.storage.writeCurve (curveJson u.history).indented).run world with ⟨e | _, world⟩
  · exact { books with filed := books.filed.failCurve episode e.message }
  · exact { books with }

/-! A whole call. -/

theorem trainOne_books (n last evalEvery saveEvery : Nat) :
    Op.Ensures (Books start (.at n) : Trainer ω → Prop)
      (trainOne (n + 1) last evalEvery saveEvery) (fun _ => Books start (.at (n + 1)))
      (fun _ => Balanced start) := by
  have evaluation : Op.Ensures (Books start ⟨n + 1, n + 1, n, n⟩ : Trainer ω → Prop)
      (evaluate (n + 1)) (fun _ => Books start ⟨n + 1, n + 1, n + 1, n⟩)
      (fun _ => Balanced start) :=
    evaluate_books.weaken
      (fun t books => ⟨books, fun p there => Nat.lt_succ_of_le (books.evaluated p there)⟩)
      (fun _ _ => id) fun _ t books => ⟨n + 1, books.mono (Nat.le_succ n) (Nat.le_succ n)⟩
  have checkpoint : Op.Ensures (Books start ⟨n + 1, n + 1, n + 1, n⟩ : Trainer ω → Prop)
      (saveCheckpoint (n + 1)) (fun _ => Books start (.at (n + 1))) (fun _ => Balanced start) :=
    (saveCheckpoint_books (Nat.lt_succ_self n)).weaken (fun _ => id) (fun _ _ => id)
      fun _ _ books => ⟨n + 1, books⟩
  exact ensures_trainOne last evalEvery saveEvery (Books.unheard _ _) runEpisode_books
    (fun _ _ ran => record_books ran.1 ran.2)
    (fun _ => evaluation) (fun _ _ books => books.mono (Nat.le_succ n) le_rfl)
    (fun _ => checkpoint) (fun _ _ books => books.mono le_rfl (Nat.le_succ n))
    fun _ _ books => { books with }

/-- Where the last evaluation came after an earlier episode, all of them did. -/
theorem Books.evaluations_lt {n count : Nat} (books : Books start (.at n) t)
    (stale : t.unevaluated n count = true) : ∀ p ∈ t.evaluations, p.episode < n := by
  have ordered : Ordered (t.evaluations.map (·.episode)) n :=
    ⟨books.ordered, List.forall_mem_map.mpr books.evaluated⟩
  have fresh : n ∉ t.evaluations.map (·.episode) :=
    (stale_iff ordered).mp (Bool.and_eq_true_iff.mp stale).1
  exact List.forall_mem_map.mp (ordered.below fresh)

theorem finalEvaluation_books (n count : Nat) :
    Op.Ensures (Books start (.at n) : Trainer ω → Prop) (finalEvaluation n count)
      (fun _ => Books start (.at n)) (fun _ => Balanced start) :=
  ensures_finalEvaluation
    (evaluate_books.weaken (fun _ holds => ⟨holds.1, holds.1.evaluations_lt holds.2⟩)
      (fun _ _ => id) fun _ _ books => ⟨n, books⟩)
    fun _ books _ => books

/-- A call keeps the books balanced, however it ends, and reports the length of the history. -/
theorem call_books (c : TrainingCall) :
    Op.Ensures (Balanced start : Trainer ω → Prop) (call c)
      (fun r t => r.totalEpisodes = t.history.length ∧ Balanced start t)
      (fun _ => Balanced start) := by
  rintro t ⟨n, books⟩
  have length : t.history.length = n := books.length
  have balanced (r : TrainingResult) (u : Trainer ω) (led : r.totalEpisodes = u.history.length ∧
      ∃ count, c.accepted? = some count ∧ Books start (.at (n + count)) u) :
      r.totalEpisodes = u.history.length ∧ Balanced start u := by
    obtain ⟨total, count, _, books⟩ := led
    exact ⟨total, n + count, books⟩
  refine (ensures_call t c (fun i => Books start (.at (n + i))) (fun i => Books start (.at (n + i)))
    (fun i => Books start (.at (n + i))) (Books.unheard _ _) (fun _ => Books.unheard _ _) books
    (fun _ _ => ⟨n, books⟩) ?_ ?_ ?_).weaken (fun _ => id) balanced (fun _ _ => id) t rfl
  · intro count _ i _ evalEvery saveEvery _ _
    rw [length, Nat.add_right_comm]
    exact trainOne_books (n + i) _ _ _
  · intro count _
    rw [length]
    exact finalEvaluation_books (n + count) count
  · intro count _
    exact (saveCurve_books _).weaken (fun _ => id) (fun _ _ => id) fun _ _ books => ⟨_, books⟩

theorem afterCalls_balanced (balanced : Balanced start t) (calls : List TrainingCall) :
    Balanced start (t.afterCalls calls) := by
  induction calls generalizing t with
  | nil => exact balanced
  | cons c calls ih =>
    have led := call_books c t balanced
    rw [afterCalls_cons]
    rcases answered : (call c).run t with ⟨fault | r, u⟩ <;> rw [answered] at led
    · exact ih led
    · exact ih led.2

theorem create_balanced {task : Task} {vocabulary : Vocabulary} {interpreter : Interpreter Float}
    {reward : Reward Float} {request : SettingsRequest} {made : Environment Float}
    (created : Environment.create task vocabulary interpreter reward request = .ok made)
    (past : List (Command Float)) {agent : Agent} (counts : agent.episodes = .count start)
    (below : start < Quantity.exactBound) {console : List Entry} {training : TrainingRequest}
    {storage : TrainingStorage ω} {world : ω}
    (built : create training storage ⟨made.after past, agent, console⟩ world = .ok t) :
    Balanced start t := by
  obtain ⟨settings, resolved, rfl⟩ := Environment.create_eq_ok created
  obtain ⟨plan, _, rfl⟩ := create_eq_ok built
  have budget : 0 < settings.maxSteps := Settings.maxSteps_pos resolved
  refine ⟨0, ?_, ?_, rfl, .nil, by simp, [], by simp⟩
  · rw [Environment.after_rules]
    exact budget
  · rw [counts, counted]
    exact congrArg _ (Nat.min_eq_left below.le).symm

/-! What the keys say. -/

theorem checkpointKey_count {n : Nat} (exact : n < Quantity.exactBound) :
    checkpointKey (.count n) = "checkpoint_ep" ++ toString n := by
  rw [checkpointKey, Quantity.text, if_pos exact]

theorem key_injective {m n : Nat}
    (same : "checkpoint_ep" ++ toString m = "checkpoint_ep" ++ toString n) : m = n :=
  Nat.repr_injective (String.append_right_inj _ |>.mp same)

theorem key_ne_curveKey (n : Nat) : "checkpoint_ep" ++ toString n ≠ curveKey := by
  intro same
  have := congrArg (fun key => key.toList.head?) same
  simp [curveKey] at this

theorem Filed.disjoint {saved : Nat} {checkpoints : List String}
    {failures : List CheckpointFailure} (filed : Filed saved checkpoints failures)
    (exact : saved < Quantity.exactBound) :
    ∃ stored : List Nat, checkpoints = stored.map (fun n => "checkpoint_ep" ++ toString n) ∧
      stored.Pairwise (· < ·) ∧ (∀ n ∈ stored, n ≤ saved) ∧
      ∀ f ∈ failures, f.key ∉ checkpoints := by
  obtain ⟨stored, keys, sorted, bound, failed⟩ := filed
  have keys : checkpoints = stored.map (fun n => "checkpoint_ep" ++ toString n) :=
    keys.trans (List.map_congr_left fun n there =>
      checkpointKey_count ((bound n there).trans_lt exact))
  refine ⟨stored, keys, sorted, bound, fun f there filed => ?_⟩
  rw [keys] at filed
  obtain ⟨n, kept, same⟩ := List.mem_map.mp filed
  rcases failed f there with curve | ⟨key, fresh, below⟩
  · exact key_ne_curveKey n (same.trans curve)
  · rw [key, checkpointKey_count (below.trans_lt exact)] at same
    exact fresh (key_injective same ▸ kept)

end

/-- The books of a trainer after any calls, those among them that were cut short, as long as the
agent's counter is below the bound of exact numbers: episodes are numbered without a gap, the agent
has counted just those, evaluations and checkpoints are in the order of their episodes, nothing is
both kept and failed, and what a call reports is the length of the history. -/
theorem books_agree {task : Task} {vocabulary : Vocabulary} {interpreter : Interpreter Float}
    {reward : Reward Float} {request : SettingsRequest} {made : Environment Float}
    (created : Environment.create task vocabulary interpreter reward request = .ok made)
    (past : List (Command Float)) {agent : Agent} {start : Nat}
    (counts : agent.episodes = .count start) (below : start < Quantity.exactBound)
    {console : List Entry}
    {training : TrainingRequest} {storage : TrainingStorage ω} {world : ω} {t : Trainer ω}
    (built : create training storage ⟨made.after past, agent, console⟩ world = .ok t)
    (calls : List TrainingCall)
    (stays : ∃ m < Quantity.exactBound, (t.afterCalls calls).scene.agent.episodes = .count m) :
    let u := t.afterCalls calls
    u.history.map (·.episode) = List.range' 1 u.history.length ∧
    u.scene.agent.episodes = .count (start + u.history.length) ∧
    ((u.evaluations.map (·.episode)).Pairwise (· < ·) ∧
      ∀ p ∈ u.evaluations, p.episode ≤ u.history.length) ∧
    (∃ stored : List Nat, u.checkpoints = stored.map (fun n => "checkpoint_ep" ++ toString n) ∧
      stored.Pairwise (· < ·) ∧ (∀ n ∈ stored, n ≤ u.history.length) ∧
      ∀ f ∈ u.failures, f.key ∉ u.checkpoints) ∧
    ∀ c r v, (call c).run u = (.ok r, v) → r.totalEpisodes = v.history.length := by
  intro u
  have balanced : Balanced start u :=
    afterCalls_balanced (create_balanced created past counts below built) calls
  obtain ⟨n, books⟩ := balanced
  obtain ⟨m, exact, stays⟩ := stays
  have length : u.history.length = n := books.length
  have capped : counted (start + n) = .count m := books.counter.symm.trans stays
  have within : start + n < Quantity.exactBound := by
    have : min (start + n) Quantity.exactBound = m := Quantity.count.inj capped
    omega
  rw [length]
  refine ⟨books.numbered, ?_, ⟨books.ordered, books.evaluated⟩,
    books.filed.disjoint (Nat.lt_of_le_of_lt (Nat.le_add_left _ _) within), ?_⟩
  · rw [books.counter]
    exact congrArg _ (Nat.min_eq_left within.le)
  · intro c r v answered
    have led := call_books c u ⟨n, books⟩
    rw [answered] at led
    exact led.1

/-- A learner that hardly explores, shuns the end token and has counted seven episodes. -/
def sampleLearner : Agent where
  spaces := ⟨3, 16⟩
  source := .ofSeed 1
  clock := .moment 0
  episodes := .count 7
  updated := .moment 0
  learner := .qlearning ⟨{ QSettings.default with epsilonMin := 0 },
    [List.replicate 16 0, List.replicate 16 0, List.replicate 16 (-1)], 0.001⟩

/-- An interpreter that crashes at its third call. -/
def sampleInterpreter : Interpreter Float :=
  .failingAt (.ofFunction "echo" Interpreter.runEcho) [3] "crash"

/-- A memory without room for the second checkpoint. -/
def sampleStorage : TrainingStorage Checkpoints.Memory where
  checkpoints := Checkpoints.refusing fun key =>
    if key == "checkpoint_ep2" then some (.failure "full") else none
  writeCurve _ := pure ()

/-- Evaluates with one episode and stops at a failed write. -/
def sampleRequest : TrainingRequest :=
  { evalEpisodes := .count 1, verbose := false, stopOnFailure := true }

def sample : Except Fault (Trainer Checkpoints.Memory) := do
  let env ← Environment.sample 1 sampleInterpreter
  create sampleRequest sampleStorage ⟨env.after [.step (.count 0)], sampleLearner, []⟩ []

/-- The first call ends at a crash in an evaluation, the second one is refused, the third one ends at the failed
write. -/
def sampleCalls : List TrainingCall :=
  [⟨.count 2, .count 1, .count 1⟩, ⟨.count 1, .other 0.5, .count 0⟩,
    ⟨.count 2, .count 2, .count 1⟩, ⟨.count 1, .count 0, .count 1⟩]

theorem books_agree_sample : ∃ t, sample = .ok t ∧
    let u := t.afterCalls sampleCalls
    u.history.length = 3 ∧ u.scene.agent.episodes = .count (7 + 3) ∧
    u.failures.map (·.key) = ["checkpoint_ep2"] ∧ u.checkpoints.length = 1 ∧
    ∃ stored : List Nat, u.checkpoints = stored.map (fun n => "checkpoint_ep" ++ toString n) ∧
      stored.Pairwise (· < ·) ∧ (∀ n ∈ stored, n ≤ 3) ∧ ∀ f ∈ u.failures, f.key ∉ u.checkpoints := by
  obtain ⟨made, created⟩ : ∃ made, Environment.sample 1 sampleInterpreter = .ok made := ⟨_, rfl⟩
  obtain ⟨t, built⟩ : ∃ t, create sampleRequest sampleStorage
    ⟨made.after [.step (.count 0)], sampleLearner, []⟩ [] = .ok t := ⟨_, rfl⟩
  have whole : sample = .ok t := by
    rw [sample, created]
    exact built
  have run : sample.toOption.any (fun t =>
      let u := t.afterCalls sampleCalls
      u.history.length == 3 && u.scene.agent.episodes.positive? == some 10 &&
        u.failures.map (·.key) == ["checkpoint_ep2"] && u.checkpoints.length == 1) = true := by
    decide +kernel
  simp only [whole, Except.toOption, Option.any_some, Bool.and_eq_true, beq_iff_eq] at run
  obtain ⟨⟨⟨length, counter⟩, failures⟩, stored⟩ := run
  have agree := books_agree created [.step (.count 0)] rfl (by decide) built sampleCalls
    ⟨10, by decide, Quantity.eq_count_of_positive? counter⟩
  exact ⟨t, whole, length, length ▸ agree.2.1, failures, stored, length ▸ agree.2.2.2.1⟩

end Trainer
end ProgramGym
