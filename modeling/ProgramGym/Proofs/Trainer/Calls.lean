import ProgramGym.Proofs.Checks
import ProgramGym.Proofs.Operations
import ProgramGym.Trainer

/-! Calls of a trainer one after the other, and contracts of the parts of a call that hardly
matter to what is recorded: what goes to the console, and the writes, whose failures are recorded
and passed on only if the plan says so. -/
namespace ProgramGym

namespace Scene
variable {p : Scene → Prop} {failed : Fault → Scene → Prop}

theorem ensures_runEpisodes {train : Bool}
    (kept : ∀ episode, Op.Ensures p (runEpisode train episode) (fun _ => p) failed)
    (first count : Nat) : Op.Ensures p (runEpisodes train first count) (fun _ => p) failed := by
  induction count generalizing first with
  | zero => exact Op.ensures_pure fun _ => id
  | succ count ih =>
    exact (kept first).bind _ fun _ => (ih (first + 1)).bind _ fun _ => Op.ensures_pure fun _ => id

/-- An evaluation is greedy episodes and, if it reports, two lines on the console. -/
theorem ensures_evaluate (unheard : ∀ s console, p s → p { s with console })
    (kept : ∀ episode, Op.Ensures p (runEpisode false episode) (fun _ => p) failed)
    (verbose : Bool) (count : Nat) :
    Op.Ensures p (evaluate verbose (.count count)) (fun _ => p) failed := by
  have logged (text : String) : Op.Ensures p (logIf verbose text) (fun _ => p) failed := by
    cases verbose with
    | true => exact Op.ensures_modify fun s holds => unheard s _ holds
    | false => exact Op.ensures_pure fun _ => id
  have episodes : Op.Ensures p (greedyEpisodes (.count count)) (fun _ => p) failed :=
    ensures_runEpisodes kept 1 count
  refine episodes.bind _ fun records => Op.ensures_get fun t => Op.Ensures.weaken ?_
    (fun _ holds => holds.2) (fun _ _ => id) (fun _ _ => id)
  exact (logged _).bind _ fun _ => (logged _).bind _ fun _ => Op.ensures_pure fun _ => id

end Scene

/-- The arguments of a training call. -/
structure TrainingCall where
  count : Quantity Float
  evalEvery : Quantity Float
  saveEvery : Quantity Float

/-- The number of episodes that a call trains for, unless an argument is refused. -/
def TrainingCall.accepted? (c : TrainingCall) : Option Nat :=
  match Scene.requireCount "numEpisodes" c.count, Trainer.requireInterval "evalEvery" c.evalEvery,
    Trainer.requireInterval "saveEvery" c.saveEvery with
  | .ok count, .ok _, .ok _ => some count
  | _, _, _ => none

theorem TrainingPlan.resolve_stopOnFailure {request : TrainingRequest} {plan : TrainingPlan}
    (resolved : TrainingPlan.resolve request = .ok plan) :
    plan.stopOnFailure = request.stopOnFailure := by
  unfold TrainingPlan.resolve at resolved
  split at resolved
  · cases resolved
  · obtain ⟨_, _, made⟩ := bind_eq_ok.mp resolved
    cases made
    rfl

namespace Trainer
variable {ω : Type}

def call (c : TrainingCall) : Op (Trainer ω) TrainingResult :=
  train c.count c.evalEvery c.saveEvery

/-- The trainer after calls that answered or failed. -/
def afterCalls (t : Trainer ω) (calls : List TrainingCall) : Trainer ω :=
  calls.foldl (fun t c => ((call c).run t).2) t

theorem afterCalls_cons (t : Trainer ω) (c : TrainingCall) (calls : List TrainingCall) :
    t.afterCalls (c :: calls) = ((call c).run t).2.afterCalls calls := rfl

theorem create_eq_ok {request : TrainingRequest} {storage : TrainingStorage ω} {scene : Scene}
    {world : ω} {t : Trainer ω} (built : create request storage scene world = .ok t) :
    ∃ plan, TrainingPlan.resolve request = .ok plan ∧
      t = ⟨plan, storage, scene, world, [], [], [], [], []⟩ := by
  obtain ⟨plan, resolved, made⟩ := bind_eq_ok.mp built
  exact ⟨plan, resolved, (Except.ok.inj made).symm⟩

/-- What a failed write is passed on as: a fault of the store is its own, any other becomes one. -/
def passedOn (key : String) : Fault → Fault
  | .checkpoint other cause => .checkpoint other cause
  | fault => .checkpoint key (.writeFailed fault.message)

/-- The console has no say in a property. -/
def Unheard (p : Trainer ω → Prop) : Prop :=
  ∀ t console, p t → p { t with scene := { t.scene with console } }

section
variable {p pre post : Trainer ω → Prop} {failed : Fault → Trainer ω → Prop}

theorem ensures_write (unheard : Unheard p) (level : Level) (text : String) :
    Op.Ensures p (inScene (Scene.write level text)) (fun _ => p) failed := by
  refine Op.ensures_onPart fun t holds s same => ?_
  subst same
  exact unheard t _ holds

theorem ensures_logIf (unheard : Unheard p) (verbose : Bool) (text : String) :
    Op.Ensures p (inScene (Scene.logIf verbose text)) (fun _ => p) failed := by
  cases verbose with
  | true => exact ensures_write unheard .log text
  | false => exact Op.ensures_pure fun _ => id

theorem ensures_announceStart (unheard : Unheard p) (count : Nat) :
    Op.Ensures p (announceStart count) (fun _ => p) failed :=
  Op.ensures_get fun _ =>
    ((ensures_logIf unheard _ _).bind _ fun _ => ensures_logIf unheard _ _).weaken
      (fun _ holds => holds.2) (fun _ _ => id) (fun _ _ => id)

/-- What is announced at the start only goes to the console. -/
theorem run_announceStart (t : Trainer ω) (count : Nat) :
    ∃ console, (announceStart count).run t =
      (.ok (), { t with scene := { t.scene with console } }) := by
  have led : Op.Ensures (· = t) (announceStart count)
      (fun _ u => ∃ console, u = { t with scene := { t.scene with console } }) fun _ _ => False :=
    (ensures_announceStart (fun u console same => ⟨console, by rw [same.choose_spec]⟩) count).weaken
      (fun u same => ⟨t.scene.console, same⟩) (fun _ _ => id) fun _ _ => id
  have led := led t rfl
  rcases ran : (announceStart count).run t with ⟨fault | u, v⟩ <;> rw [ran] at led
  · exact led.elim
  · obtain ⟨console, rfl⟩ := led
    exact ⟨console, rfl⟩

theorem ensures_announceEnd (unheard : Unheard p) (r : TrainingResult) :
    Op.Ensures p (announceEnd r) (fun _ => p) failed := by
  refine Op.ensures_get fun _ => Op.Ensures.weaken ?_
    (fun _ holds => holds.2) (fun _ _ => id) (fun _ _ => id)
  refine (ensures_logIf unheard _ _).bind _ fun _ => (ensures_logIf unheard _ _).bind _ fun _ => ?_
  exact Op.Ensures.ite (fun _ => ensures_write unheard _ _) fun _ => Op.ensures_pure fun _ => id

/-- An evaluation that ends well is noted. -/
theorem ensures_evaluate {post : Metrics Float → Trainer ω → Prop} (unheard : Unheard pre)
    {episode : Nat}
    (kept : ∀ (t : Trainer ω) number, Op.Ensures (fun s => pre { t with scene := s })
      (Scene.runEpisode false number) (fun _ s => pre { t with scene := s })
      (fun e s => failed e { t with scene := s }))
    (noted : ∀ t metrics, pre t →
      post metrics { t with evaluations := t.evaluations ++ [⟨episode, metrics⟩] }) :
    Op.Ensures pre (evaluate episode) post failed := by
  refine Op.ensures_get fun t => ?_
  have evaluated : Op.Ensures (fun u => u = t ∧ pre u) (inScene (Scene.evaluate
      t.plan.reportEvaluations (.count t.plan.evalEpisodes))) (fun _ => pre) failed := by
    refine Op.ensures_onPart fun u holds => Op.Ensures.weaken
      (Scene.ensures_evaluate (fun s console => unheard { u with scene := s } console)
        (kept u) _ _) ?_ (fun _ _ => id) (fun _ _ => id)
    rintro s rfl
    exact holds.2
  refine evaluated.bind _ fun metrics => ?_
  exact Op.Ensures.bind (fun _ => post metrics)
    (Op.ensures_modify fun t holds => noted t metrics holds) fun _ => Op.ensures_pure fun _ => id

/-- A write that fails is recorded. Only a plan that stops on failures fails with it. -/
theorem ensures_persist {failing : Fault → Trainer ω → Prop} (unheard : ∀ e, Unheard (failing e))
    {episode : Nat} {key : String} {write : Op (Trainer ω) Unit}
    (written : Op.Ensures pre write (fun _ => post) fun e t =>
      failing e { t with failures := t.failures ++ [⟨episode, key, e.message⟩] })
    (goes : ∀ e t, failing e t → t.plan.stopOnFailure = false → post t)
    (stops : ∀ e t, failing e t → t.plan.stopOnFailure = true → failed (passedOn key e) t) :
    Op.Ensures pre (persist episode key write) (fun _ => post) failed := by
  refine Op.Ensures.bind _ written.attempt fun outcome => ?_
  cases outcome with
  | ok _ => exact Op.ensures_pure fun _ => id
  | error e =>
    have reported : Op.Ensures _ _ _ failed := ensures_write
      (fun t console (holds : failing e { t with
        failures := t.failures ++ [⟨episode, key, e.message⟩] }) => unheard e _ console holds)
      .error s!"[Trainer] Checkpoint {key} failed: {e.message}"
    refine reported.bind _ fun _ => ?_
    refine Op.Ensures.bind (fun _ => failing e) (Op.ensures_modify fun _ => id) fun _ => ?_
    refine Op.ensures_get fun t => ?_
    refine Op.Ensures.ite (fun stop => ?_) fun goesOn => Op.ensures_pure fun s holds => ?_
    · cases e <;> exact Op.ensures_throw fun s holds => stops _ s holds.2 (holds.1 ▸ stop)
    · exact goes e s holds.2 (holds.1 ▸ Bool.eq_false_iff.mpr goesOn)

/-- What writes leave behind, in the world and in the books about them, has no say in a property. -/
def Unwritten (p : Trainer ω → Prop) : Prop :=
  ∀ t world checkpoints failures, p t → p { t with world, checkpoints, failures }

/-- Failed writes do not stop a trainer whose plan says so. -/
theorem not_stopped (lenient : ∀ t, p t → t.plan.stopOnFailure = false) (e : Fault) (t : Trainer ω)
    (holds : p t) (stops : t.plan.stopOnFailure = true) : failed e t := by
  rw [lenient t holds] at stops
  cases stops

theorem ensures_saveCheckpoint (unheard : Unheard p) (unwritten : Unwritten p)
    (stops : ∀ e t, p t → t.plan.stopOnFailure = true → failed e t) (episode : Nat) :
    Op.Ensures p (saveCheckpoint episode) (fun _ => p) failed := by
  apply ensures_persist (fun _ => unheard) _ (fun _ _ holds _ => holds) fun _ => stops _
  apply Op.ensures_get
  intro t
  refine Op.Ensures.bind (fun _ => p) ?_ fun payload => Op.Ensures.bind (fun _ => p) ?_ fun _ => ?_
  · exact (Op.ensures_ofExcept _).weaken (fun _ => And.right) (fun _ _ => And.right)
      fun _ u holds => unwritten u u.world u.checkpoints _ holds.2
  · apply Op.ensures_onPart
    intro u holds world same
    rcases (t.storage.checkpoints.save (checkpointKey (.count episode)) payload).run world with
      ⟨fault | _, after⟩
    · exact unwritten u after u.checkpoints _ holds
    · exact unwritten u after u.checkpoints u.failures holds
  · exact Op.ensures_modify fun u holds => unwritten u u.world _ u.failures holds

theorem ensures_saveCurve (unheard : Unheard p) (unwritten : Unwritten p)
    (stops : ∀ e t, p t → t.plan.stopOnFailure = true → failed e t) (episode : Nat) :
    Op.Ensures p (saveCurve episode) (fun _ => p) failed := by
  apply ensures_persist (fun _ => unheard) _ (fun _ _ holds _ => holds) fun _ => stops _
  apply Op.ensures_get
  intro t
  apply Op.ensures_onPart
  rintro u ⟨rfl, holds⟩ world same
  rcases (u.storage.writeCurve (curveJson u.history).indented).run world with ⟨fault | _, after⟩
  · exact unwritten u after u.checkpoints _ holds
  · exact unwritten u after u.checkpoints u.failures holds

end

/-! An episode's bookkeeping, part by part. -/

/-- The evaluation that is due after an episode, with what is said of it. -/
def evaluateDue (episode last interval : Nat) : Op (Trainer ω) (Option (Metrics Float)) :=
  if due interval episode then do
    let metrics ← evaluate episode
    let t ← get
    inScene (Scene.logIf t.plan.verbose (t.progressText episode last interval))
    inScene (Scene.logIf t.plan.verbose (evaluationText episode metrics))
    pure (some metrics)
  else pure none

def saveDue (episode interval : Nat) : Op (Trainer ω) Unit :=
  if due interval episode then saveCheckpoint episode else pure ()

def record (r : EpisodeRecord Float) (t : Trainer ω) : Trainer ω :=
  { t with history := t.history ++ [r] }

def announce (a : Announcement) (t : Trainer ω) : Trainer ω :=
  { t with announcements := t.announcements ++ [a] }

theorem trainOne_eq (episode last evalEvery saveEvery : Nat) :
    trainOne (ω := ω) episode last evalEvery saveEvery = (do
      let r ← inScene (Scene.runEpisode true episode)
      modify (record r)
      let evaluation ← evaluateDue episode last evalEvery
      saveDue episode saveEvery
      modify (announce ⟨r, evaluation⟩)) := by
  unfold trainOne evaluateDue saveDue
  by_cases evaluates : due evalEvery episode <;> by_cases saves : due saveEvery episode <;>
    simp only [evaluates, saves, bind_assoc, pure_bind, if_true, if_false, Bool.false_eq_true] <;>
    rfl

/-- Whether the last episode of a call calls for an evaluation of its own. -/
def unevaluated (t : Trainer ω) (last count : Nat) : Bool :=
  (t.evaluations.getLast?.all fun p => p.episode != last) &&
    (0 < t.plan.evalEpisodes && 0 < count)

/-- The last evaluation, if it came after this episode. -/
def latest? (t : Trainer ω) (last : Nat) : Option (Metrics Float) :=
  (t.evaluations.getLast?.filter (·.episode == last)).map (·.metrics)

section
variable {pre post trained recorded evaluated saved : Trainer ω → Prop}
  {failed : Fault → Trainer ω → Prop} {episode : Nat}

theorem ensures_evaluateDue {post : Option (Metrics Float) → Trainer ω → Prop}
    (last interval : Nat) (unheard : ∀ m, Unheard (post m))
    (onDue : due interval episode = true →
      Op.Ensures pre (evaluate episode) (fun m => post (some m)) failed)
    (otherwise : due interval episode = false → ∀ t, pre t → post none t) :
    Op.Ensures pre (evaluateDue episode last interval) post failed := by
  refine Op.Ensures.ite (fun isDue => ?_) fun notDue =>
    Op.ensures_pure (otherwise (Bool.eq_false_iff.mpr notDue))
  refine (onDue isDue).bind _ fun metrics => Op.ensures_get fun t => Op.Ensures.weaken ?_
    (fun _ holds => holds.2) (fun _ _ => id) (fun _ _ => id)
  exact (ensures_logIf (unheard _) _ _).bind _ fun _ =>
    (ensures_logIf (unheard _) _ _).bind _ fun _ => Op.ensures_pure fun _ => id

/-- An episode, its record, the evaluation and the checkpoint that may be due, the announcement. -/
theorem ensures_trainOne (last evalEvery saveEvery : Nat)
    {ran : EpisodeRecord Float → Trainer ω → Prop} (unheard : Unheard evaluated)
    (run : Op.Ensures pre (inScene (Scene.runEpisode true episode)) ran failed)
    (noted : ∀ r t, ran r t → recorded (record r t))
    (evaluation : due evalEvery episode = true →
      Op.Ensures recorded (evaluate episode) (fun _ => evaluated) failed)
    (unevaluated : due evalEvery episode = false → ∀ t, recorded t → evaluated t)
    (checkpoint : due saveEvery episode = true →
      Op.Ensures evaluated (saveCheckpoint episode) (fun _ => saved) failed)
    (unsaved : due saveEvery episode = false → ∀ t, evaluated t → saved t)
    (announced : ∀ a t, saved t → post (announce a t)) :
    Op.Ensures pre (trainOne episode last evalEvery saveEvery) (fun _ => post) failed := by
  rw [trainOne_eq]
  refine run.bind _ fun r => ?_
  refine Op.Ensures.bind (fun _ => recorded) (Op.ensures_modify (noted r)) fun _ => ?_
  refine (ensures_evaluateDue last evalEvery (fun _ => unheard) evaluation unevaluated).bind _
    fun _ => ?_
  refine Op.Ensures.bind (fun _ => saved) ?_ fun _ => Op.ensures_modify (announced _)
  exact Op.Ensures.ite checkpoint fun notDue =>
    Op.ensures_pure (unsaved (Bool.eq_false_iff.mpr notDue))

/-- At the end of a call an evaluation is made only after an episode of that call, and only if
the last one came earlier. -/
theorem ensures_finalEvaluation {post : Option (Metrics Float) → Trainer ω → Prop}
    {last count : Nat}
    (evaluation : Op.Ensures (fun t => pre t ∧ t.unevaluated last count = true)
      (evaluate last) (fun m => post (some m)) failed)
    (otherwise : ∀ t, pre t → t.unevaluated last count = false → post (t.latest? last) t) :
    Op.Ensures pre (finalEvaluation last count) post failed := by
  refine Op.ensures_get fun t => ?_
  have missing (stale : (t.evaluations.getLast?.all fun p => p.episode != last) = true)
      (older : t.latest? last = none) :
      Op.Ensures (fun u => u = t ∧ pre u)
        (if 0 < t.plan.evalEpisodes && 0 < count then some <$> evaluate last else pure none)
        post failed := by
    refine Op.Ensures.ite (fun due => ?_) fun spared => Op.ensures_pure ?_
    · rw [map_eq_pure_bind]
      refine Op.Ensures.bind _ (evaluation.weaken ?_ (fun _ _ => id) (fun _ _ => id))
        fun _ => Op.ensures_pure fun _ => id
      rintro u ⟨rfl, holds⟩
      exact ⟨holds, by rw [unevaluated, stale, due]; rfl⟩
    · rintro u ⟨rfl, holds⟩
      have spared : u.unevaluated last count = false := by
        rw [unevaluated, stale, Bool.eq_false_iff.mpr spared]
        rfl
      exact older ▸ otherwise u holds spared
  cases latest : t.evaluations.getLast? with
  | none => exact missing (by rw [latest]; rfl) (by rw [latest?, latest]; rfl)
  | some point =>
    refine Op.Ensures.ite (fun same => Op.ensures_pure ?_) fun stale => ?_
    · rintro u ⟨rfl, holds⟩
      have kept := otherwise u holds (by simp [unevaluated, latest, beq_iff_eq.mp same])
      rw [latest?, latest, Option.filter_some, same] at kept
      exact kept
    · rw [beq_iff_eq] at stale
      exact missing (by simpa [latest] using stale) (by simpa [latest?, latest] using stale)

end

theorem accepted_intervals {c : TrainingCall} {n : Nat} (accepted : c.accepted? = some n) :
    ∃ evalEvery saveEvery, requireInterval "evalEvery" c.evalEvery = .ok evalEvery ∧
      requireInterval "saveEvery" c.saveEvery = .ok saveEvery := by
  unfold TrainingCall.accepted? at accepted
  split at accepted
  · next evaluates saves => exact ⟨_, _, evaluates, saves⟩
  · cases accepted

/-- A call that is refused leaves the trainer as it is. -/
theorem call_refused {c : TrainingCall} (refused : c.accepted? = none) (t : Trainer ω) :
    ∃ e, (call c).run t = (.error e, t) := by
  unfold call train
  cases counted : Scene.requireCount "numEpisodes" c.count with
  | error e => exact ⟨e, rfl⟩
  | ok count =>
    cases evaluates : requireInterval "evalEvery" c.evalEvery with
    | error e => exact ⟨e, rfl⟩
    | ok evalEvery =>
      cases saves : requireInterval "saveEvery" c.saveEvery with
      | error e => exact ⟨e, rfl⟩
      | ok saveEvery => simp [TrainingCall.accepted?, counted, evaluates, saves] at refused

section
variable {kept : Nat → Trainer ω → Prop} {failed : Fault → Trainer ω → Prop}

theorem ensures_trainMany {last evalEvery saveEvery total first : Nat}
    (one : ∀ i < total, Op.Ensures (kept i)
      (trainOne (first + i) last evalEvery saveEvery) (fun _ => kept (i + 1)) failed)
    (count done : Nat) (rest : done + count = total) :
    Op.Ensures (kept done) (trainMany last evalEvery saveEvery count (first + done))
      (fun _ => kept total) failed := by
  induction count generalizing done with
  | zero => exact Op.ensures_pure fun _ holds => rest ▸ holds
  | succ count ih =>
    exact (one done (by omega)).bind _ fun _ => ih (done + 1) (by omega)

/-- A call that is not refused trains, evaluates at the end if need be, writes the curve, and
answers from the books. -/
theorem ensures_call_of_result (t : Trainer ω) (c : TrainingCall) (trained : Nat → Trainer ω → Prop)
    (evaluated finished : Nat → Option (Metrics Float) → Trainer ω → Prop)
    (unheard : ∀ i m, Unheard (finished i m))
    (refused : ∀ e, c.accepted? = none → failed e t)
    (many : ∀ count, c.accepted? = some count → ∀ evalEvery saveEvery,
      requireInterval "evalEvery" c.evalEvery = .ok evalEvery →
      requireInterval "saveEvery" c.saveEvery = .ok saveEvery →
      Op.Ensures (· = ((announceStart count).run t).2)
        (trainMany (t.history.length + count) evalEvery saveEvery count (t.history.length + 1))
        (fun _ => trained count) failed)
    (evaluation : ∀ count, c.accepted? = some count → Op.Ensures (trained count)
      (finalEvaluation (t.history.length + count) count) (evaluated count) failed)
    (curve : ∀ count, c.accepted? = some count → ∀ m, Op.Ensures (evaluated count m)
      (saveCurve (t.history.length + count)) (fun _ => finished count m) failed) :
    Op.Ensures (· = t) (call c) (fun r u => ∃ count m, c.accepted? = some count ∧
      r = u.result m ∧ finished count m u) failed := by
  unfold call train
  cases counted : Scene.requireCount "numEpisodes" c.count with
  | error e => exact fun s same => same ▸ refused e (by simp [TrainingCall.accepted?, counted])
  | ok count =>
  cases evaluates : requireInterval "evalEvery" c.evalEvery with
  | error e =>
    exact fun s same => same ▸ refused e (by simp [TrainingCall.accepted?, counted, evaluates])
  | ok evalEvery =>
  cases saves : requireInterval "saveEvery" c.saveEvery with
  | error e =>
    exact fun s same => same ▸ refused e (by simp [TrainingCall.accepted?, evaluates, saves])
  | ok saveEvery =>
  have accepted : c.accepted? = some count := by
    simp [TrainingCall.accepted?, counted, evaluates, saves]
  have many := many count accepted evalEvery saveEvery evaluates saves
  obtain ⟨console, ran⟩ := t.run_announceStart count
  have started : Op.Ensures (· = t) (announceStart count)
      (fun _ u => u = { t with scene := { t.scene with console } }) failed := by
    rintro _ rfl
    rw [ran]
  rw [ran] at many
  refine started.bind _ fun _ => Op.ensures_get fun u => ?_
  -- the numbers of the episodes are counted from the history that is read only here
  refine Op.Ensures.given (c := u.history = t.history) (fun v holds => holds.1 ▸ holds.2 ▸ rfl)
    fun same => ?_
  rw [same]
  refine Op.Ensures.bind _ (many.weaken (fun v holds => holds.2) (fun _ _ => id)
    (fun _ _ => id)) fun _ => ?_
  refine (evaluation count accepted).bind _ fun m => (curve count accepted m).bind _ fun _ => ?_
  refine Op.ensures_get fun v => ?_
  have announced : Op.Ensures (fun w => w = v ∧ finished count m w) (announceEnd (v.result m))
      (fun _ w => v.result m = w.result m ∧ finished count m w) failed :=
    (ensures_announceEnd (fun w console holds => ⟨holds.1, unheard count m w console holds.2⟩)
      _).weaken (fun w holds => ⟨holds.1 ▸ rfl, holds.2⟩) (fun _ _ => id) (fun _ _ => id)
  exact announced.bind _ fun _ => Op.ensures_pure fun w holds =>
    ⟨count, m, accepted, holds.1, holds.2⟩

/-- The same, where it does not matter what is answered. -/
theorem ensures_call_of_many (t : Trainer ω) (c : TrainingCall)
    (trained evaluated finished : Nat → Trainer ω → Prop) (unheard : ∀ i, Unheard (finished i))
    (refused : ∀ e, c.accepted? = none → failed e t)
    (many : ∀ count, c.accepted? = some count → ∀ evalEvery saveEvery,
      requireInterval "evalEvery" c.evalEvery = .ok evalEvery →
      requireInterval "saveEvery" c.saveEvery = .ok saveEvery →
      Op.Ensures (· = ((announceStart count).run t).2)
        (trainMany (t.history.length + count) evalEvery saveEvery count (t.history.length + 1))
        (fun _ => trained count) failed)
    (evaluation : ∀ count, c.accepted? = some count → Op.Ensures (trained count)
      (finalEvaluation (t.history.length + count) count) (fun _ => evaluated count) failed)
    (curve : ∀ count, c.accepted? = some count → Op.Ensures (evaluated count)
      (saveCurve (t.history.length + count)) (fun _ => finished count) failed) :
    Op.Ensures (· = t) (call c) (fun r u => r.totalEpisodes = u.history.length ∧
      ∃ count, c.accepted? = some count ∧ finished count u) failed := by
  refine (ensures_call_of_result t c trained (fun i _ => evaluated i) (fun i _ => finished i)
    (fun i _ => unheard i) refused many evaluation fun count accepted _ =>
      curve count accepted).weaken (fun _ => id) ?_ fun _ _ => id
  rintro r u ⟨count, m, accepted, rfl, holds⟩
  exact ⟨rfl, count, accepted, holds⟩

/-- The same, episode by episode. -/
theorem ensures_call (t : Trainer ω) (c : TrainingCall)
    (kept evaluated finished : Nat → Trainer ω → Prop)
    (unheard : Unheard (kept 0)) (unheardAfter : ∀ i, Unheard (finished i))
    (opened : kept 0 t) (refused : ∀ e, c.accepted? = none → failed e t)
    (one : ∀ count, c.accepted? = some count → ∀ i < count, ∀ evalEvery saveEvery,
      requireInterval "evalEvery" c.evalEvery = .ok evalEvery →
      requireInterval "saveEvery" c.saveEvery = .ok saveEvery →
      Op.Ensures (kept i)
        (trainOne (t.history.length + 1 + i) (t.history.length + count) evalEvery saveEvery)
        (fun _ => kept (i + 1)) failed)
    (evaluation : ∀ count, c.accepted? = some count → Op.Ensures (kept count)
      (finalEvaluation (t.history.length + count) count) (fun _ => evaluated count) failed)
    (curve : ∀ count, c.accepted? = some count → Op.Ensures (evaluated count)
      (saveCurve (t.history.length + count)) (fun _ => finished count) failed) :
    Op.Ensures (· = t) (call c) (fun r u => r.totalEpisodes = u.history.length ∧
      ∃ count, c.accepted? = some count ∧ finished count u) failed := by
  refine ensures_call_of_many t c kept evaluated finished unheardAfter refused
    (fun count accepted evalEvery saveEvery evaluates saves => ?_) evaluation curve
  have trained := ensures_trainMany
    (fun i below => one count accepted i below evalEvery saveEvery evaluates saves) count 0
    (Nat.zero_add _)
  refine trained.weaken (fun u same => ?_) (fun _ _ => id) fun _ _ => id
  obtain ⟨console, ran⟩ := t.run_announceStart count
  rw [same, ran]
  exact unheard t console opened

end
end Trainer
end ProgramGym
