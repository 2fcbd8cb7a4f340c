import Mathlib.Logic.Function.Iterate
import ProgramGym.Proofs.ClosedLoop
import ProgramGym.Proofs.Trainer.Calls

/-! What calls of a trainer come to. However a call ends, the environment keeps its rules and the
agent stays of its kind. Where the interpreter never faults, the agent can always choose and failed
writes are only recorded, every call that is not refused is answered: it makes the episodes that it
was asked for, numbers them on, and the agent counts them one by one. -/
namespace ProgramGym.Trainer
variable {ω : Type}

/-- The rules and the kind of agent that a trainer was made for. -/
structure Employs (r : Rules Float) (a : Agent) (t : Trainer ω) : Prop where
  rules : t.scene.env.rules = r
  alike : a.Alike t.scene.agent

theorem runEpisode_employs {r : Rules Float} (budget : 0 < r.settings.maxSteps) {a : Agent}
    (train : Bool) (episode : Nat) (t : Trainer ω) :
    Op.Ensures (fun s => Employs r a { t with scene := s }) (Scene.runEpisode train episode)
      (fun _ s => Employs r a { t with scene := s })
      fun _ s => Employs r a { t with scene := s } := by
  rintro s ⟨rules, alike⟩
  have kept := Rollout.run_rules train episode s.env s.agent
  obtain ⟨spaces, kind⟩ := Rollout.run_alike (rules ▸ budget) train episode s.agent
  have after : Employs r a { t with
      scene := { s with
        env := (Rollout.run train episode s.env s.agent).2.1
        agent := (Rollout.run train episode s.env s.agent).2.2 } } :=
    ⟨kept.trans rules, spaces.trans alike.1, kind.trans alike.2⟩
  rw [Scene.run_runEpisode]
  cases (Rollout.run train episode s.env s.agent).1 <;> exact after

theorem call_employs (c : TrainingCall) (t : Trainer ω)
    (budget : 0 < t.scene.env.rules.settings.maxSteps) :
    Employs t.scene.env.rules t.scene.agent ((call c).run t).2 := by
  let kept : Trainer ω → Prop := Employs t.scene.env.rules t.scene.agent
  have unheard : Unheard kept := fun _ _ holds => { holds with }
  have unwritten : Unwritten kept := fun _ _ _ _ holds => { holds with }
  have start : kept t := ⟨rfl, rfl, rfl⟩
  have evaluated (episode : Nat) : Op.Ensures kept (evaluate episode) (fun _ => kept)
      fun _ => kept :=
    ensures_evaluate unheard (fun t number => runEpisode_employs budget false number t)
      fun _ _ holds => { holds with }
  have trained (episode : Nat) : Op.Ensures kept (inScene (Scene.runEpisode true episode))
      (fun _ => kept) fun _ => kept := by
    refine Op.ensures_onPart fun t holds => ?_
    exact (runEpisode_employs budget true episode t).weaken (fun s same => same ▸ holds)
      (fun _ _ => id) fun _ _ => id
  have led : Op.Ensures (· = t) (call c) (fun result u =>
      result.totalEpisodes = u.history.length ∧ ∃ count, c.accepted? = some count ∧ kept u)
      fun _ => kept :=
    ensures_call t c (fun _ => kept) (fun _ => kept) (fun _ => kept) unheard (fun _ => unheard)
      start (fun _ _ => start)
      (fun _ _ _ _ _ _ _ _ => ensures_trainOne _ _ _ unheard (trained _)
        (fun _ _ holds => { holds with }) (fun _ => evaluated _) (fun _ _ => id)
        (fun _ => ensures_saveCheckpoint unheard unwritten (fun _ _ holds _ => holds) _)
        (fun _ _ => id) fun _ _ holds => { holds with })
      (fun _ _ => ensures_finalEvaluation
        ((evaluated _).weaken (fun _ => And.left) (fun _ _ => id) fun _ _ => id)
        fun _ holds _ => holds)
      (fun _ _ => ensures_saveCurve unheard unwritten (fun _ _ holds _ => holds) _)
  replace led := led t rfl
  rcases ran : (call c).run t with ⟨fault | result, u⟩ <;> rw [ran] at led
  · exact led
  · obtain ⟨_, _, _, holds⟩ := led
    exact holds

/-- A trainer after so many episodes with the agent that it began with. -/
structure Advanced (r : Rules Float) (a : Agent) (n : Nat) (t : Trainer ω) : Prop where
  rules : t.scene.env.rules = r
  able : t.scene.agent.Able r.spaces
  counter : t.scene.agent.episodes = Quantity.next^[n] a.episodes
  numbered : t.history.map (·.episode) = List.range' 1 n
  lenient : t.plan.stopOnFailure = false

section
variable {r : Rules Float} {a : Agent} {n : Nat} {failed : Fault → Trainer ω → Prop}

theorem Advanced.unheard (r : Rules Float) (a : Agent) (n : Nat) :
    Unheard (Advanced r a n : Trainer ω → Prop) :=
  fun _ _ advanced => { advanced with }

theorem Advanced.unwritten (r : Rules Float) (a : Agent) (n : Nat) :
    Unwritten (Advanced r a n : Trainer ω → Prop) :=
  fun _ _ _ _ advanced => { advanced with }

theorem Advanced.length {t : Trainer ω} (advanced : Advanced r a n t) : t.history.length = n := by
  simpa using congrArg List.length advanced.numbered

theorem saveCheckpoint_advanced (episode : Nat) :
    Op.Ensures (Advanced r a n : Trainer ω → Prop) (saveCheckpoint episode)
      (fun _ => Advanced r a n) failed :=
  ensures_saveCheckpoint (Advanced.unheard r a n) (Advanced.unwritten r a n)
    (not_stopped fun _ advanced => advanced.lenient) episode

theorem saveCurve_advanced (episode : Nat) :
    Op.Ensures (Advanced r a n : Trainer ω → Prop) (saveCurve episode)
      (fun _ => Advanced r a n) failed :=
  ensures_saveCurve (Advanced.unheard r a n) (Advanced.unwritten r a n)
    (not_stopped fun _ advanced => advanced.lenient) episode

variable (budget : 0 < r.settings.maxSteps) (total : r.interpreter.NeverFaults)
  (small : r.spaces.actions ≤ Quantity.exactBound)

include budget total small in
theorem runEpisode_advanced :
    Op.Ensures (Advanced r a n : Trainer ω → Prop) (inScene (Scene.runEpisode true (n + 1)))
      (fun x t => Advanced r a (n + 1) (record x t)) failed := by
  refine Op.ensures_onPart fun t advanced s same => ?_
  subst same
  obtain ⟨rfl, able, counter, numbered, lenient⟩ := advanced
  obtain ⟨x, env, b, ran, rules, able, number, counts⟩ :=
    Rollout.run_counted budget total small able true (n + 1)
  rw [Scene.run_runEpisode, ran]
  refine ⟨rules, able, ?_, ?_, lenient⟩
  · rw [Function.iterate_succ_apply', ← counter]
    exact counts.episodes
  · change (t.history ++ [x]).map (·.episode) = _
    rw [List.map_append, numbered, List.range'_concat, List.map_singleton, number, Nat.one_mul,
      Nat.add_comm n 1]

include budget total small in
theorem evaluate_advanced (episode : Nat) :
    Op.Ensures (Advanced r a n : Trainer ω → Prop) (evaluate episode)
      (fun _ => Advanced r a n) failed := by
  refine ensures_evaluate (Advanced.unheard r a n) (fun t number s advanced => ?_)
    fun _ _ advanced => { advanced with }
  obtain ⟨rfl, able, counter, numbered, lenient⟩ := advanced
  obtain ⟨x, env, b, ran, rules, able, _, counts⟩ :=
    Rollout.run_counted budget total small able false number
  rw [Scene.run_runEpisode, ran]
  exact ⟨rules, able, counts.episodes.trans counter, numbered, lenient⟩

include budget total small in
theorem trainOne_advanced (last evalEvery saveEvery : Nat) :
    Op.Ensures (Advanced r a n : Trainer ω → Prop) (trainOne (n + 1) last evalEvery saveEvery)
      (fun _ => Advanced r a (n + 1)) failed :=
  ensures_trainOne last evalEvery saveEvery (Advanced.unheard r a (n + 1))
    (runEpisode_advanced budget total small) (fun _ _ => id)
    (fun _ => evaluate_advanced budget total small _) (fun _ _ => id)
    (fun _ => saveCheckpoint_advanced _) (fun _ _ => id) fun _ _ advanced => { advanced with }

include budget total small in
/-- The answer is drawn from books that are kept to the end. -/
theorem call_advanced {t : Trainer ω} (advanced : Advanced r a n t) {c : TrainingCall} {count : Nat}
    (accepted : c.accepted? = some count) :
    ∃ result u, (call c).run t = (.ok result, u) ∧ Advanced r a (n + count) u ∧
      result.totalEpisodes = n + count ∧
      result.history.map (·.episode) = List.range' 1 (n + count) := by
  have length := advanced.length
  have led : Op.Ensures (· = t) (call c) (fun result u => ∃ count m, c.accepted? = some count ∧
      result = u.result m ∧ Advanced r a (n + count) u) fun _ _ => False := by
    refine ensures_call_of_result t c (fun count => Advanced r a (n + count))
      (fun count _ => Advanced r a (n + count)) (fun count _ => Advanced r a (n + count))
      (fun _ _ => Advanced.unheard _ _ _)
      (fun _ refused => by rw [refused] at accepted; cases accepted)
      (fun count _ evalEvery saveEvery _ _ => ?_) (fun count _ => ?_)
      (fun count _ _ => saveCurve_advanced _)
    · obtain ⟨console, announced⟩ := t.run_announceStart count
      have one (i : Nat) (_ : i < count) :
          Op.Ensures (Advanced r a (n + i) : Trainer ω → Prop)
            (trainOne (n + 1 + i) (n + count) evalEvery saveEvery)
            (fun _ => Advanced r a (n + (i + 1))) fun _ _ => False := by
        rw [Nat.add_right_comm]
        exact trainOne_advanced budget total small _ _ _
      rw [length, announced]
      refine (ensures_trainMany one count 0 (Nat.zero_add count)).weaken (fun u same => ?_)
        (fun _ _ => id) fun _ _ => id
      rw [same]
      exact Advanced.unheard r a n t console advanced
    · exact ensures_finalEvaluation
        ((evaluate_advanced budget total small _).weaken (fun _ holds => holds.1) (fun _ _ => id)
          fun _ _ => id)
        fun _ after _ => after
  replace led := led t rfl
  rcases answered : (call c).run t with ⟨fault | result, u⟩ <;> rw [answered] at led
  · exact led.elim
  · obtain ⟨made, m, same, rfl, after⟩ := led
    cases accepted.symm.trans same
    exact ⟨_, u, rfl, after, after.length, after.numbered⟩

end

theorem create_advanced {request : TrainingRequest} {storage : TrainingStorage ω} {scene : Scene}
    {world : ω} {t : Trainer ω} (built : create request storage scene world = .ok t)
    (able : scene.agent.Able scene.env.rules.spaces) (lenient : request.stopOnFailure = false) :
    Advanced scene.env.rules scene.agent 0 t := by
  obtain ⟨plan, resolved, rfl⟩ := create_eq_ok built
  exact ⟨rfl, able, rfl, rfl, (TrainingPlan.resolve_stopOnFailure resolved).trans lenient⟩

end ProgramGym.Trainer
