import Mathlib
import ProgramGym.Proofs.Agent.Counters

/-! Exploration over the life of an agent that loads nothing but what agents have saved. Settings are
refused that start below the floor, a decay stops at it, and a text brings both numbers back in the
order they had; only exploration set by hand is not held against the floor. Main statement: the end
of an episode leaves no more exploration than before exactly if that was not below the floor, and it
never is unless it was set there. -/
namespace ProgramGym
open Binary64

theorem Number.le_reread {x y : Float} (first : x.isFinite = true) (second : y.isFinite = true) :
    reread x ≤ reread y ↔ x ≤ y := by
  rw [le_iff_compare, le_iff_compare, (compare_reread first _).1, (compare_reread second _).2]

theorem Binary64.Probability.finite {x : Float} (probability : Probability x) :
    x.isFinite = true := by
  obtain ⟨v, _, worth⟩ := probability.worth
  change x.toModel.unpack.isFinite = true
  cases worth with
  | zero _ unpacked | finite _ unpacked =>
    rw [unpacked]
    rfl

theorem Binary64.Probability.reread {x : Float} (probability : Probability x) :
    Probability (Number.reread x) := by
  have finite := probability.finite
  obtain ⟨low, high⟩ := probability
  rw [le_iff_compare] at low high
  constructor
  · rw [le_iff_compare, (Number.compare_reread finite _).2]
    exact low
  · rw [le_iff_compare, (Number.compare_reread finite _).1]
    exact high

namespace Agent
variable {a b : Agent} {text : String} {saved : SavedAgent}

/-- What is read from a saved text is what was saved, each number as its text. -/
theorem read_own (written : b.save = .ok text) (read : SavedAgent.read text = .ok saved) :
    ∃ updated, saved = (b.saved updated).readBack := by
  obtain ⟨updated, _, rfl⟩ := save_eq_ok written
  have settings : (b.saved updated).settings.Ordered := b.learner.ordered_settings
  have state : (b.saved updated).state.Ordered := b.learner.ordered_state
  have finite := SavedAgent.finite_of_read settings state read
  rw [SavedAgent.read_write_finite settings state finite] at read
  exact ⟨updated, (Except.ok.inj read).symm⟩

theorem readOwn_kind (readable : a.readOwn text = .ok saved) : saved.kind = a.kind := by
  obtain ⟨read, _, readable⟩ := bind_eq_ok.mp readable
  dsimp only at readable
  split at readable
  · cases readable
  · next same =>
    split at readable
    · cases readable
    · cases readable
      simpa using same

/-- A learner that takes over what another one has saved has its settings and its exploration, each
number as its text. -/
theorem load_own {q : QLearner Float} (shaped : b.Shaped) (written : b.save = .ok text)
    (accepted : (a.load text).1 = .ok ()) (learner : a.learner = .qlearning q) :
    ∃ own taken, b.learner = .qlearning own ∧ (a.load text).2.learner = .qlearning taken ∧
      taken.settings = own.settings.map Number.reread ∧
      taken.epsilon = Number.reread own.epsilon := by
  obtain ⟨saved, taken, readable⟩ := takes_of_load accepted
  obtain ⟨updated, rfl⟩ := read_own written taken.1
  have kind : b.kind = .qlearning := (readOwn_kind readable).trans (congrArg Learner.kind learner)
  obtain ⟨own, its⟩ := learner_of_kind kind
  obtain ⟨settings, resolved, loaded⟩ := (load_taken taken).2 q learner
  have given : (b.saved updated).readBack.settingsGiven =
      (own.settings.map Number.reread).members.given := by
    rw [SavedAgent.settingsGiven, SavedAgent.readBack, Agent.saved, its]
    rfl
  have state : (b.saved updated).readBack.state.get? "epsilon" =
      some (Number.reread own.epsilon) := by
    rw [SavedAgent.readBack, Agent.saved, its]
    rfl
  rw [given, QSettings.resolve_given (QSettings.valid_reread (shaped.valid its))] at resolved
  rw [state] at loaded
  cases resolved
  exact ⟨own, _, its, loaded, rfl, rfl⟩

theorem explores_of_kind (other : a.kind ≠ .qlearning) : a.Explores :=
  fun e its => absurd ((epsilon?_kind a).mpr ⟨e, its⟩) other

theorem Call.Proper.fresh {call : Call} (proper : call.Proper) : call.loads = false := by
  cases call with
  | load text => exact proper.elim
  | _ => rfl

/-- Whatever an agent has been through, it explores with a probability. -/
theorem Reached.explores (reached : a.Reached) : a.Explores := by
  induction reached with
  | @create kind actions features settings source clock a dated created =>
    by_cases learns : kind = .qlearning
    · obtain ⟨q, learner, same⟩ := create_explores (learns ▸ created)
      have valid := (shaped_create created).valid learner
      exact explores_of_learner learner (same ▸ Range.probability valid.epsilon)
    · exact explores_of_kind ((create_kind created).symm ▸ learns)
  | @call a call proper reached ih =>
    by_cases learns : a.kind = .qlearning
    · exact explores_fresh reached.sound.shaped learns ih proper.fresh
    · exact explores_of_kind ((a.perform_alike call).2.symm ▸ learns)
  | @load a b text written source reached ihSource ih =>
    by_cases learns : a.kind = .qlearning
    · by_cases accepted : (a.load text).1 = .ok ()
      · obtain ⟨q, learner⟩ := learner_of_kind learns
        obtain ⟨own, taken, its, loaded, _, same⟩ :=
          load_own source.sound.shaped written accepted learner
        exact explores_of_learner loaded (same ▸ (ihSource.probability its).reread)
      · exact fun e its => ih e ((load_untaken accepted).2 ▸ its)
    · exact explores_of_kind ((a.load_alike text).2.symm ▸ learns)

/-- Exploration is at the floor of its settings or above. -/
def Floored (a : Agent) : Prop :=
  ∀ q, a.learner = .qlearning q → q.settings.epsilonMin ≤ q.epsilon

/-- A call that does not set exploration below the floor. -/
def Call.Above (a : Agent) : Call → Prop
  | .setEpsilon epsilon => ∀ q, a.learner = .qlearning q → q.settings.epsilonMin ≤ epsilon
  | _ => True

theorem floored_of_learner {q : QLearner Float} (learner : a.learner = .qlearning q)
    (above : q.settings.epsilonMin ≤ q.epsilon) : a.Floored := by
  intro p its
  cases learner.symm.trans its
  exact above

theorem floored_of_kind (other : a.kind ≠ .qlearning) : a.Floored :=
  fun _ its => absurd (congrArg Learner.kind its) other

theorem floored_fresh (shaped : a.Shaped) (learns : a.kind = .qlearning) (explores : a.Explores)
    (floored : a.Floored) {call : Call} (fresh : call.loads = false) (above : call.Above a) :
    (a.perform call).2.Floored := by
  obtain ⟨q, learner⟩ := learner_of_kind learns
  have valid := shaped.valid learner
  have probability := explores.probability learner
  have floor := floored q learner
  have decayed := QLearner.floor_le_decay valid probability
  cases call with
  | load text => cases fresh
  | act features explore =>
    change (a.act features explore).2.Floored
    rw [act_source]
    exact floored
  | startEpisode => simpa [perform, startEpisode, learner] using floored
  | learn features action reward next done =>
    change (a.learn features action reward next done).2.Floored
    unfold learn
    cases a.admits features action next done with
    | error fault => exact floored
    | ok i =>
      simp only [learner]
      cases done with
      | true => exact floored_of_learner rfl decayed
      | false => exact floored_of_learner rfl floor
  | setEpsilon epsilon =>
    change (a.take (setLearnerEpsilon a.learner epsilon)).2.Floored
    cases set : setLearnerEpsilon a.learner epsilon with
    | error fault => exact floored
    | ok l =>
      obtain ⟨p, its, rfl⟩ := setLearnerEpsilon_eq_ok set
      exact floored_of_learner rfl (above p its)
  | decayEpsilon =>
    simp only [perform, learner, decayLearnerEpsilon, take]
    exact floored_of_learner rfl decayed
  | reset =>
    simp only [perform, reset, learner, Learner.restart]
    exact floored_of_learner rfl valid.floor_le
  | save | look | wait now => exact floored

/-- Agents that come about without exploration that is set below the floor. -/
inductive Steady : Agent → Prop where
  | create {kind : AgentKind} {actions features : Quantity Float} {settings : Json.Members Json}
      {source : Source Float} {clock : Instant} {a : Agent} (dated : clock.Dated)
      (created : create kind actions features settings source clock = .ok a) : Steady a
  | call {a : Agent} {call : Call} (proper : call.Proper) (above : call.Above a)
      (steady : Steady a) : Steady (a.perform call).2
  | load {a b : Agent} {text : String} (written : b.save = .ok text) (source : Steady b)
      (steady : Steady a) (accepted : (a.load text).1 = .ok ()) : Steady (a.load text).2

theorem Steady.reached (steady : a.Steady) : a.Reached := by
  induction steady with
  | create dated created => exact .create dated created
  | call proper _ _ ih => exact .call proper ih
  | load written _ _ _ source ih => exact .load written source ih

theorem Steady.floored (steady : a.Steady) : a.Floored := by
  induction steady with
  | @create kind actions features settings source clock a dated created =>
    by_cases learns : kind = .qlearning
    · obtain ⟨q, learner, same⟩ := create_explores (learns ▸ created)
      have valid := (shaped_create created).valid learner
      exact floored_of_learner learner (same ▸ valid.floor_le)
    · exact floored_of_kind ((create_kind created).symm ▸ learns)
  | @call a call proper above steady ih =>
    by_cases learns : a.kind = .qlearning
    · have reached := steady.reached
      exact floored_fresh reached.sound.shaped learns reached.explores ih proper.fresh above
    · exact floored_of_kind ((a.perform_alike call).2.symm ▸ learns)
  | @load a b text written source steady accepted ihSource ih =>
    by_cases learns : a.kind = .qlearning
    · obtain ⟨q, learner⟩ := learner_of_kind learns
      have reached := source.reached
      obtain ⟨own, taken, its, loaded, settings, epsilon⟩ :=
        load_own reached.sound.shaped written accepted learner
      refine floored_of_learner loaded ?_
      rw [settings, epsilon]
      have floor := Range.finite_of_contains (reached.sound.shaped.valid its).epsilonMin
      exact (Number.le_reread floor (reached.explores.probability its).finite).mpr (ihSource own its)
    · exact floored_of_kind ((a.load_alike text).2.symm ▸ learns)

/-- One agent explores no more than another one. -/
def Calmer (a b : Agent) : Prop :=
  ∃ e f, a.epsilon? = some e ∧ b.epsilon? = some f ∧ e ≤ f

theorem calmer_iff {p q : QLearner Float} (first : a.learner = .qlearning p)
    (second : b.learner = .qlearning q) : a.Calmer b ↔ p.epsilon ≤ q.epsilon := by
  simp [Calmer, epsilon?, first, second]

/-- How exploration changes with a step that is learned from and with a decay, for every agent that
was made and has loaded nothing but saved texts. Within an episode it does not change, nor with a
step that is refused. At the end of an episode, and by a decay, it does not grow exactly if it was
not below the floor; and so it never grows as long as it is not set below the floor by hand. -/
theorem exploration_shrinks (reached : a.Reached) {q : QLearner Float}
    (learner : a.learner = .qlearning q) :
    ((a.perform .decayEpsilon).2.Calmer a ↔ q.settings.epsilonMin ≤ q.epsilon) ∧
    (∀ features action reward next done,
      let learned := a.learn features action reward next done
      (learned.1 = .ok () → done = true →
        (learned.2.Calmer a ↔ q.settings.epsilonMin ≤ q.epsilon)) ∧
      ((learned.1 = .ok () → done = false) → learned.2.epsilon? = a.epsilon?)) ∧
    (a.Steady → (a.perform .decayEpsilon).2.Calmer a ∧
      ∀ features action reward next done,
        (a.learn features action reward next done).2.Calmer a) := by
  have shaped := reached.sound.shaped
  have valid := shaped.valid learner
  have probability := reached.explores.probability learner
  have lowered := QLearner.decay_le_iff valid probability
  have decayed : (a.perform .decayEpsilon).2.Calmer a ↔ q.settings.epsilonMin ≤ q.epsilon := by
    have its : (a.perform .decayEpsilon).2.learner = .qlearning q.decay := by
      simp only [perform, learner, decayLearnerEpsilon, take]
    rw [calmer_iff its learner, lowered]
  have learned (features : List Float) (action : Quantity Float) (reward : Float)
      (next : List Float) (done : Bool) :
      let learned := a.learn features action reward next done
      (learned.1 = .ok () → done = true →
        (learned.2.Calmer a ↔ q.settings.epsilonMin ≤ q.epsilon)) ∧
      ((learned.1 = .ok () → done = false) → learned.2.epsilon? = a.epsilon?) := by
    unfold learn
    cases a.admits features action next done with
    | error fault =>
      refine ⟨fun accepted => ?_, fun _ => rfl⟩
      cases accepted
    | ok i =>
      simp only [learner]
      cases done with
      | false =>
        refine ⟨fun _ ended => absurd ended Bool.false_ne_true, fun _ => ?_⟩
        change some q.epsilon = a.epsilon?
        simp [epsilon?, learner]
      | true =>
        refine ⟨fun _ _ => ?_, fun within => absurd (within trivial).symm Bool.false_ne_true⟩
        rw [calmer_iff rfl learner]
        exact lowered
  refine ⟨decayed, learned, fun steady => ?_⟩
  have floor := steady.floored q learner
  refine ⟨decayed.mpr floor, fun features action reward next done => ?_⟩
  obtain ⟨ended, within⟩ := learned features action reward next done
  by_cases counts : (a.learn features action reward next done).1 = .ok () ∧ done = true
  · exact (ended counts.1 counts.2).mpr floor
  · have same := within fun accepted => by
      simpa [accepted] using counts
    have its : a.epsilon? = some q.epsilon := by simp [epsilon?, learner]
    obtain ⟨v, _, worth⟩ := probability.worth
    exact ⟨q.epsilon, q.epsilon, same.trans its, its, (worth.le_iff worth).mpr le_rfl⟩

/-- The sample with exploration switched off. -/
def quiet : Agent := { sample with learner := .qlearning ⟨.default, [[0]], 0⟩ }

theorem quiet_eq : sample.perform (.setEpsilon 0) = (.done (.ok ()), quiet) := by
  have inside : LearnerSettings.unit.contains 0 = true := by decide +kernel
  have set : setLearnerEpsilon sample.learner 0 = .ok quiet.learner := by
    simp only [setLearnerEpsilon, sample, setEpsilon, LearnerSettings.require, inside, if_true]
    rfl
  rw [perform, set]
  rfl

theorem exploration_shrinks_sample :
    (sample.perform .decayEpsilon).2.Calmer sample ∧
    (sample.perform (.setEpsilon 0)).1 = .done (.ok ()) ∧ quiet.Reached ∧
    ¬ (quiet.perform .decayEpsilon).2.Calmer quiet := by
  have dated : (Instant.moment 0).Dated := ⟨0, rfl, by decide⟩
  have created : create .qlearning (.count 1) (.count 1) [] (.ofSeed 0) (.moment 0) = .ok sample :=
    rfl
  have steady : sample.Steady := .create dated created
  have shrinks := (exploration_shrinks steady.reached rfl).2.2 steady
  have reached : quiet.Reached := by
    have called : (sample.perform (.setEpsilon 0)).2.Reached := .call trivial steady.reached
    rwa [quiet_eq] at called
  have low : ¬ QSettings.default.epsilonMin ≤ (0 : Float) := by decide +kernel
  refine ⟨shrinks.1, by rw [quiet_eq], reached, fun calmer => low ?_⟩
  exact (exploration_shrinks reached rfl).1.mp calmer

/-- A decay and the end of an episode switch exploration on that was switched off. -/
theorem exploration_grows :
    create .qlearning (.count 1) (.count 1) [] (.ofSeed 0) (.moment 0) = .ok sample ∧
    sample.perform (.setEpsilon 0) = (.done (.ok ()), quiet) ∧ quiet.epsilon? = some 0 ∧
    (∃ e, (quiet.perform .decayEpsilon).2.epsilon? = some e ∧ 0 < e) ∧
    (quiet.learn [1] (.count 0) 1 [0] true).1 = .ok () ∧
    ∃ e, (quiet.learn [1] (.count 0) 1 [0] true).2.epsilon? = some e ∧ 0 < e := by
  have raised : (0 : Float) < (QLearner.mk QSettings.default [[0]] (0 : Float)).decay.epsilon := by
    decide +kernel
  exact ⟨rfl, quiet_eq, rfl, ⟨_, rfl, raised⟩, rfl, _, rfl, raised⟩

end Agent
end ProgramGym
