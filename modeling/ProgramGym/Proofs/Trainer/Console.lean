import ProgramGym.Proofs.Rollout
import ProgramGym.Proofs.Trainer.Calls

/-! What the console shows has no part in a training. It is written to and never read: trainers that
differ in nothing else answer every call alike, and go on differing in nothing else. -/
namespace ProgramGym

/-- The second scene differs from the first one in what its console shows. -/
def Scene.Relogged (s t : Scene) : Prop := ∃ console, t = { s with console }

namespace Scene.Relogged

theorem respects_write (level : Level) (text : String) :
    Op.Respects Relogged (write level text) := by
  refine Op.respects_modify fun s t relogged => ?_
  obtain ⟨console, rfl⟩ := relogged
  exact ⟨console ++ [⟨level, text⟩], rfl⟩

theorem respects_logIf (verbose : Bool) (text : String) :
    Op.Respects Relogged (logIf verbose text) :=
  (respects_write .log text).ite (Op.respects_pure ())

theorem respects_runEpisode (train : Bool) (episode : Nat) :
    Op.Respects Relogged (runEpisode train episode) := by
  rintro s _ ⟨console, rfl⟩
  rw [run_runEpisode, run_runEpisode]
  exact ⟨rfl, console, rfl⟩

theorem respects_evaluate (verbose : Bool) (count : Quantity Float) :
    Op.Respects Relogged (evaluate verbose count) := by
  refine Scene.respects_evaluate (respects_runEpisode false) (respects_write .log) ?_ verbose count
  rintro s _ ⟨_, rfl⟩
  exact ⟨rfl, rfl⟩

end Scene.Relogged

namespace Trainer
variable {ω : Type}

/-- The same trainer with something else on its console. -/
def relog (console : List Entry) (t : Trainer ω) : Trainer ω :=
  { t with scene := { t.scene with console } }

/-- The second trainer differs from the first one in what its console shows. -/
def Relogged (t u : Trainer ω) : Prop := ∃ console, u = t.relog console

namespace Relogged

theorem respects_modify {f : Trainer ω → Trainer ω}
    (blind : ∀ (t : Trainer ω) console, f (t.relog console) = (f t).relog console) :
    Op.Respects Relogged (modify f : Op (Trainer ω) Unit) := by
  refine Op.respects_modify fun t u relogged => ?_
  obtain ⟨console, rfl⟩ := relogged
  exact ⟨console, blind t console⟩

theorem respects_get {β : Type} {next : Trainer ω → Op (Trainer ω) β}
    (blind : ∀ (t : Trainer ω) console, next (t.relog console) = next t)
    (rest : ∀ t, Op.Respects Relogged (next t)) : Op.Respects Relogged (get >>= next) := by
  refine Op.respects_get (fun t u relogged => ?_) rest
  obtain ⟨console, rfl⟩ := relogged
  exact (blind t console).symm

theorem respects_inScene {β : Type} {op : Op Scene β} (respected : Op.Respects Scene.Relogged op) :
    Op.Respects Relogged (inScene op : Op (Trainer ω) β) := by
  refine respected.onPart (fun t u relogged => ?_) fun t u s v relogged after => ?_
  · obtain ⟨console, rfl⟩ := relogged
    exact ⟨console, rfl⟩
  · obtain ⟨_, rfl⟩ := relogged
    obtain ⟨console, rfl⟩ := after
    exact ⟨console, rfl⟩

theorem respects_inWorld {β : Type} (op : Op ω β) :
    Op.Respects Relogged (inWorld op : Op (Trainer ω) β) := by
  refine (Op.respects_eq op).onPart (fun t u relogged => ?_) fun t u v w relogged same => ?_
  · obtain ⟨_, rfl⟩ := relogged
    rfl
  · obtain ⟨console, rfl⟩ := relogged
    subst same
    exact ⟨console, rfl⟩

theorem respects_logIf (verbose : Bool) (text : String) :
    Op.Respects Relogged (inScene (Scene.logIf verbose text) : Op (Trainer ω) Unit) :=
  respects_inScene (Scene.Relogged.respects_logIf verbose text)

theorem respects_evaluate (episode : Nat) :
    Op.Respects Relogged (evaluate episode : Op (Trainer ω) (Metrics Float)) := by
  refine respects_get (fun _ _ => rfl) fun t => ?_
  refine (respects_inScene (Scene.Relogged.respects_evaluate _ _)).bind fun metrics => ?_
  exact (respects_modify fun _ _ => rfl).bind fun _ => Op.respects_pure _

/-- A write that fails is told on the console, but what follows from it is not read there. -/
theorem respects_persist {episode : Nat} {key : String} {write : Op (Trainer ω) Unit}
    (respected : Op.Respects Relogged write) :
    Op.Respects Relogged (persist episode key write) := by
  refine respected.attempt.bind fun outcome => ?_
  cases outcome with
  | ok _ => exact Op.respects_pure ()
  | error fault =>
    refine (respects_inScene (Scene.Relogged.respects_write _ _)).bind fun _ => ?_
    refine (respects_modify fun _ _ => rfl).bind fun _ => ?_
    refine respects_get (fun _ _ => rfl) fun t => Op.Respects.ite ?_ (Op.respects_pure ())
    cases fault <;> exact Op.respects_throw _

theorem respects_saveCheckpoint (episode : Nat) :
    Op.Respects Relogged (saveCheckpoint episode : Op (Trainer ω) Unit) := by
  refine respects_persist (respects_get (fun _ _ => rfl) fun t => ?_)
  refine (Op.respects_ofExcept _).bind fun payload => ?_
  exact (respects_inWorld _).bind fun _ => respects_modify fun _ _ => rfl

theorem respects_saveCurve (episode : Nat) :
    Op.Respects Relogged (saveCurve episode : Op (Trainer ω) Unit) :=
  respects_persist (respects_get (fun _ _ => rfl) fun _ => respects_inWorld _)

theorem respects_evaluateDue (episode last interval : Nat) :
    Op.Respects Relogged
      (evaluateDue episode last interval : Op (Trainer ω) (Option (Metrics Float))) := by
  refine Op.Respects.ite ((respects_evaluate episode).bind fun metrics => ?_) (Op.respects_pure _)
  refine respects_get (fun _ _ => rfl) fun t => ?_
  exact (respects_logIf _ _).bind fun _ => (respects_logIf _ _).bind fun _ => Op.respects_pure _

theorem respects_trainOne (episode last evalEvery saveEvery : Nat) :
    Op.Respects Relogged (trainOne episode last evalEvery saveEvery : Op (Trainer ω) Unit) := by
  rw [trainOne_eq]
  refine (respects_inScene (Scene.Relogged.respects_runEpisode true episode)).bind fun r => ?_
  refine (respects_modify fun _ _ => rfl).bind fun _ => ?_
  refine (respects_evaluateDue episode last evalEvery).bind fun evaluation => ?_
  refine Op.Respects.bind ?_ fun _ => respects_modify fun _ _ => rfl
  exact (respects_saveCheckpoint episode).ite (Op.respects_pure ())

theorem respects_trainMany (last evalEvery saveEvery count episode : Nat) :
    Op.Respects Relogged
      (trainMany last evalEvery saveEvery count episode : Op (Trainer ω) Unit) := by
  induction count generalizing episode with
  | zero => exact Op.respects_pure ()
  | succ count ih =>
    exact (respects_trainOne episode last evalEvery saveEvery).bind fun _ => ih (episode + 1)

theorem respects_finalEvaluation (last count : Nat) :
    Op.Respects Relogged
      (finalEvaluation last count : Op (Trainer ω) (Option (Metrics Float))) := by
  refine respects_get (fun _ _ => rfl) fun t => ?_
  have evaluated : Op.Respects Relogged
      (if 0 < t.plan.evalEpisodes && 0 < count then some <$> evaluate last else pure none :
        Op (Trainer ω) (Option (Metrics Float))) := by
    refine Op.Respects.ite ?_ (Op.respects_pure _)
    rw [map_eq_pure_bind]
    exact (respects_evaluate last).bind fun _ => Op.respects_pure _
  cases t.evaluations.getLast? with
  | none => exact evaluated
  | some point => exact (Op.respects_pure _).ite evaluated

theorem respects_announceStart (count : Nat) :
    Op.Respects Relogged (announceStart count : Op (Trainer ω) Unit) :=
  respects_get (fun _ _ => rfl) fun _ => (respects_logIf _ _).bind fun _ => respects_logIf _ _

theorem respects_announceEnd (r : TrainingResult) :
    Op.Respects Relogged (announceEnd r : Op (Trainer ω) Unit) := by
  refine respects_get (fun _ _ => rfl) fun t => ?_
  refine (respects_logIf _ _).bind fun _ => (respects_logIf _ _).bind fun _ => ?_
  exact (respects_inScene (Scene.Relogged.respects_write _ _)).ite (Op.respects_pure ())

theorem respects_call (c : TrainingCall) :
    Op.Respects Relogged (call c : Op (Trainer ω) TrainingResult) := by
  refine (Op.respects_ofExcept _).bind fun count => ?_
  refine (Op.respects_ofExcept _).bind fun evalEvery => ?_
  refine (Op.respects_ofExcept _).bind fun saveEvery => ?_
  refine (respects_announceStart count).bind fun _ => respects_get (fun _ _ => rfl) fun t => ?_
  refine (respects_trainMany _ _ _ _ _).bind fun _ => ?_
  refine (respects_finalEvaluation _ _).bind fun lastEvaluation => ?_
  refine (respects_saveCurve _).bind fun _ => respects_get (fun _ _ => rfl) fun t => ?_
  exact (respects_announceEnd _).bind fun _ => Op.respects_pure _

end Relogged

/-- Whatever a console shows, a call does the same. -/
theorem run_call_relog (c : TrainingCall) (t : Trainer ω) (shown : List Entry) :
    ∃ written, (call c).run (t.relog shown) =
      (((call c).run t).1, ((call c).run t).2.relog written) := by
  obtain ⟨answer, written, left⟩ := Relogged.respects_call c t (t.relog shown) ⟨shown, rfl⟩
  exact ⟨written, Prod.ext answer.symm left⟩

theorem create_relog (request : TrainingRequest) (storage : TrainingStorage ω)
    (env : Environment Float) (agent : Agent) (console shown : List Entry) (world : ω) :
    create request storage ⟨env, agent, shown⟩ world =
      (create request storage ⟨env, agent, console⟩ world).map (relog shown) := by
  unfold create
  cases TrainingPlan.resolve request <;> rfl

end Trainer
end ProgramGym
