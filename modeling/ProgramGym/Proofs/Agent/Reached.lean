import Mathlib
import ProgramGym.Proofs.Agent.Acting
import ProgramGym.Proofs.Agent.Calls
import ProgramGym.Proofs.Agent.Saving
import ProgramGym.Proofs.Calendar
import ProgramGym.Proofs.Decimal.Counting
import ProgramGym.Proofs.Learner.Settings

/-! The agents that come about: made with settings that are accepted, asked for whatever they
offer, and loaded with what such agents have saved. Main statement: settings in range, weights of
the shape of the spaces, a counter that reads as itself and a time that can be written are theirs
after every call. -/
namespace ProgramGym

/-- A moment near enough to be represented. -/
def Instant.Dated (t : Instant) : Prop :=
  ∃ n : Int, t = .moment n ∧ n.natAbs ≤ Calendar.farthest.natAbs

theorem Instant.Dated.ofText {t : Instant} (dated : t.Dated) {text : String}
    (written : t.isoText? = some text) : Instant.ofText text = t := by
  obtain ⟨n, rfl, near⟩ := dated
  exact Instant.ofText_isoText? near written

/-- One row for each action, one weight for each feature. -/
structure Spaces.Fits (spaces : Spaces) (weights : List (List Float)) : Prop where
  rows : weights.length = spaces.actions
  columns : ∀ row ∈ weights, row.length = spaces.features

namespace Learner

/-- A learner that suits its spaces. -/
def Sound (spaces : Spaces) : Learner → Prop
  | random => True
  | qlearning q => spaces.features < vectorLimit ∧ q.settings.Valid ∧ spaces.Fits q.weights
  | policyGradient p => spaces.features < vectorLimit ∧ p.settings.Valid ∧ spaces.Fits p.weights ∧
      ∀ step ∈ p.buffer, step.features.length = spaces.features

end Learner

namespace Agent

structure Sound (a : Agent) : Prop where
  actions : 1 ≤ a.spaces.actions
  features : 1 ≤ a.spaces.features
  clock : a.clock.Dated
  updated : a.updated.Dated
  episodes : a.episodes.Canonical
  learner : a.learner.Sound a.spaces

/-- A call that brings no text of unknown origin and sets no clock to a time that is none. -/
def Call.Proper : Call → Prop
  | .load _ => False
  | .wait now => now.Dated
  | _ => True

inductive Reached : Agent → Prop where
  | create {kind : AgentKind} {actions features : Quantity Float} {settings : Json.Members Json}
      {source : Source Float} {clock : Instant} {a : Agent} (dated : clock.Dated)
      (created : create kind actions features settings source clock = .ok a) : Reached a
  | call {a : Agent} {call : Call} (proper : call.Proper) (reached : Reached a) :
      Reached (a.perform call).2
  | load {a b : Agent} {text : String} (saved : b.save = .ok text) (source : Reached b)
      (reached : Reached a) : Reached (a.load text).2

end Agent

section
variable {spaces : Spaces} {source : Source Float}

theorem length_many {α β : Type} (draw : Source α → β × Source α) (count : Nat) (s : Source α) :
    (s.many draw count).1.length = count := by
  induction count generalizing s with
  | zero => rfl
  | succ count ih => simp [Source.many, ih]

theorem length_initialRow (columns : Nat) (scale : Float) (s : Source Float) :
    (Linear.initialRow columns scale s).1.length = columns := by
  unfold Linear.initialRow
  split
  · simp [Source.nextNormals, length_many]
  · simp

theorem fits_initialMatrix (rows columns : Nat) (scale : Float) (s : Source Float) :
    Spaces.Fits ⟨rows, columns⟩ (Linear.initialMatrix rows columns scale s).1 := by
  induction rows generalizing s with
  | zero => exact ⟨rfl, by simp [Linear.initialMatrix]⟩
  | succ rows ih =>
    obtain ⟨count, widths⟩ := ih (Linear.initialRow columns scale s).2
    refine ⟨congrArg (· + 1) count, fun row inside => ?_⟩
    rcases List.mem_cons.mp inside with rfl | later
    · exact length_initialRow columns scale s
    · exact widths row later

theorem features_of_lengthCheck {u : Unit}
    (checked : (if spaces.features < Learner.vectorLimit then pure () else throw .badLength :
      Except Fault Unit) = .ok u) : spaces.features < Learner.vectorLimit := by
  split at checked
  · assumption
  · cases checked

theorem sound_create {kind : AgentKind} {settings : Json.Members Json} {learner : Learner}
    {rest : Source Float}
    (created : Learner.create kind spaces settings source = .ok (learner, rest)) :
    learner.Sound spaces ∧ learner.kind = kind := by
  cases kind with
  | random =>
    cases created
    exact ⟨trivial, rfl⟩
  | qlearning =>
    obtain ⟨settings, resolved, created⟩ := bind_eq_ok.mp created
    obtain ⟨_, checked, created⟩ := bind_eq_ok.mp created
    cases created
    exact ⟨⟨features_of_lengthCheck checked, QSettings.valid_of_resolve resolved,
      fits_initialMatrix ..⟩, rfl⟩
  | policyGradient =>
    obtain ⟨settings, resolved, created⟩ := bind_eq_ok.mp created
    obtain ⟨_, checked, created⟩ := bind_eq_ok.mp created
    cases created
    exact ⟨⟨features_of_lengthCheck checked, PolicySettings.valid_of_resolve resolved,
      fits_initialMatrix .., by simp⟩, rfl⟩

theorem sound_restart {learner : Learner} (sound : learner.Sound spaces) :
    (learner.restart spaces source).1.Sound spaces := by
  cases learner with
  | random => trivial
  | qlearning q => exact ⟨sound.1, sound.2.1, fits_initialMatrix ..⟩
  | policyGradient p =>
    exact ⟨sound.1, sound.2.1, fits_initialMatrix .., by simp⟩

theorem length_addScaled {row direction : List Float} (factor : Float)
    (first : row.length = spaces.features) (second : direction.length = spaces.features) :
    (Linear.addScaled row factor direction).length = spaces.features := by
  simp [Linear.addScaled, first, second]

theorem fits_set {weights : List (List Float)} (fits : spaces.Fits weights) {row : List Float}
    (i : Nat) (length : i < weights.length → row.length = spaces.features) :
    spaces.Fits (weights.set i row) where
  rows := by rw [List.length_set, fits.rows]
  columns r inside := by
    obtain ⟨k, bound, rfl⟩ := List.getElem_of_mem inside
    rw [List.length_set] at bound
    rw [List.getElem_set]
    split
    · next same => exact length (same ▸ bound)
    · exact fits.columns _ (List.getElem_mem bound)

/-- Learning moves one row along the features. -/
theorem fits_update {q : QLearner Float} (fits : spaces.Fits q.weights) {features : List Float}
    (length : features.length = spaces.features) (action : Nat) (reward : Float)
    (next : List Float) (done : Bool) :
    spaces.Fits (q.update features action reward next done).weights := by
  refine fits_set fits action fun bound => length_addScaled _ ?_ length
  rw [List.getD_eq_getElem _ _ bound]
  exact fits.columns _ (List.getElem_mem bound)

theorem sound_learnQ {q : QLearner Float} (sound : (Learner.qlearning q).Sound spaces)
    {features : List Float} (length : features.length = spaces.features) (action : Nat)
    (reward : Float) (next : List Float) (done : Bool) :
    (Learner.qlearning (q.learn features action reward next done)).Sound spaces := by
  obtain ⟨small, valid, fits⟩ := sound
  have updated := fits_update fits length action reward next done
  unfold QLearner.learn
  cases done <;> exact ⟨small, valid, updated⟩

theorem fits_addStep {p : PolicyLearner Float} {gradient : List (List Float)}
    (fits : spaces.Fits gradient) {step : PolicyStep Float}
    (length : step.features.length = spaces.features) (return_ : Float) :
    spaces.Fits (p.addStep gradient step return_) := by
  unfold PolicyLearner.addStep
  dsimp only
  split
  · exact fits
  · refine ⟨by simp [fits.rows], fun row inside => ?_⟩
    obtain ⟨⟨before, i⟩, member, rfl⟩ := List.mem_map.mp inside
    exact length_addScaled _ (fits.columns _ (List.fst_mem_of_mem_zipIdx member)) length

theorem fits_gradient {p : PolicyLearner Float} (fits : spaces.Fits p.weights)
    (buffered : ∀ step ∈ p.buffer, step.features.length = spaces.features) :
    spaces.Fits p.gradient := by
  have zero : spaces.Fits (p.weights.map fun row => row.map fun _ => (Scalar.nat 0 : Float)) := by
    refine ⟨by simp [fits.rows], fun row inside => ?_⟩
    obtain ⟨before, member, rfl⟩ := List.mem_map.mp inside
    rw [List.length_map, fits.columns before member]
  refine List.foldlRecOn _ _ zero fun gradient fits => ?_
  rintro ⟨step, return_⟩ member
  exact fits_addStep fits (buffered step (List.of_mem_zip member).1) return_

theorem fits_ascend {p : PolicyLearner Float} (fits : spaces.Fits p.weights)
    (buffered : ∀ step ∈ p.buffer, step.features.length = spaces.features) :
    spaces.Fits p.ascend.weights := by
  have gradient := fits_gradient fits buffered
  refine ⟨by simp [PolicyLearner.ascend, fits.rows, gradient.rows], fun row inside => ?_⟩
  obtain ⟨i, bound, rfl⟩ := List.getElem_of_mem inside
  simp only [PolicyLearner.ascend, List.length_zipWith] at bound
  simp only [PolicyLearner.ascend, List.getElem_zipWith]
  exact length_addScaled _ (fits.columns _ (List.getElem_mem _))
    (gradient.columns _ (List.getElem_mem _))

theorem sound_learnPolicy {p : PolicyLearner Float}
    (sound : (Learner.policyGradient p).Sound spaces) {step : PolicyStep Float}
    (length : step.features.length = spaces.features) (done : Bool) :
    (Learner.policyGradient (p.learn step done)).Sound spaces := by
  obtain ⟨small, valid, fits, buffered⟩ := sound
  have longer : ∀ s ∈ p.buffer ++ [step], s.features.length = spaces.features :=
    List.forall_mem_append.mpr ⟨buffered, List.forall_mem_singleton.mpr length⟩
  unfold PolicyLearner.learn
  cases done with
  | true =>
    have settings (p : PolicyLearner Float) (x : Float) :
        (p.updateBaseline x).settings = p.settings := by
      unfold PolicyLearner.updateBaseline
      split <;> rfl
    refine ⟨small, ?_, @fits_ascend spaces { p with buffer := p.buffer ++ [step] } fits longer,
      by simp [PolicyLearner.ascend]⟩
    simp only [if_true, PolicyLearner.ascend, settings]
    exact valid
  | false => exact ⟨small, valid, fits, longer⟩

end

namespace Agent
variable {a b : Agent}

/-- What every call leaves in place, even one that loads a text of unknown origin. -/
structure Shaped (a : Agent) : Prop where
  actions : 1 ≤ a.spaces.actions
  features : 1 ≤ a.spaces.features
  learner : a.learner.Sound a.spaces
  episodes : a.episodes.Canonical

theorem Sound.shaped (sound : a.Sound) : a.Shaped :=
  ⟨sound.actions, sound.features, sound.learner, sound.episodes⟩

theorem Shaped.sound (shaped : a.Shaped) (clock : a.clock.Dated) (updated : a.updated.Dated) :
    a.Sound :=
  ⟨shaped.actions, shaped.features, clock, updated, shaped.episodes, shaped.learner⟩

theorem Shaped.withLearner (shaped : a.Shaped) {learner : Learner}
    (suits : learner.Sound a.spaces) : Shaped { a with learner } :=
  { shaped with learner := suits }

theorem length_of_requireFeatures {features : List Float}
    (accepted : a.requireFeatures features = .ok ()) : features.length = a.spaces.features := by
  unfold requireFeatures at accepted
  split at accepted
  · next same => exact beq_iff_eq.mp same
  · cases accepted

/-- The uniform chooser learns from anything; the others look at the action and the features that
they are given. -/
theorem checks_of_admits {features : List Float} {action : Quantity Float} {next : List Float}
    {done : Bool} {i : Nat} (learns : a.kind ≠ .random)
    (admitted : a.admits features action next done = .ok i) :
    a.requireAction action = .ok i ∧ a.requireFeatures features = .ok () := by
  unfold admits at admitted
  cases chosen : a.learner with
  | random =>
    rw [kind, chosen] at learns
    exact absurd rfl learns
  | policyGradient p =>
    rw [chosen] at admitted
    obtain ⟨j, named, admitted⟩ := bind_eq_ok.mp admitted
    obtain ⟨_, checked, admitted⟩ := bind_eq_ok.mp admitted
    cases admitted
    exact ⟨named, checked⟩
  | qlearning q =>
    rw [chosen] at admitted
    obtain ⟨j, named, admitted⟩ := bind_eq_ok.mp admitted
    obtain ⟨_, checked, admitted⟩ := bind_eq_ok.mp admitted
    suffices j = i from this ▸ ⟨named, checked⟩
    cases done with
    | true => exact Except.ok.inj admitted
    | false =>
      obtain ⟨_, _, admitted⟩ := bind_eq_ok.mp admitted
      exact Except.ok.inj admitted

theorem length_of_admits {features : List Float} {action : Quantity Float} {next : List Float}
    {done : Bool} {i : Nat} (learns : a.kind ≠ .random)
    (admitted : a.admits features action next done = .ok i) :
    features.length = a.spaces.features :=
  length_of_requireFeatures (checks_of_admits learns admitted).2

theorem shaped_act (shaped : a.Shaped) (features : List Float) (explore : Bool) :
    (a.act features explore).2.Shaped := by
  rw [act_source]
  exact { shaped with }

theorem Shaped.learned (shaped : a.Shaped) {learner : Learner} (suits : learner.Sound a.spaces)
    (done : Bool) : (a.withLearner learner done).Shaped := by
  have taken := shaped.withLearner suits
  cases done with
  | true => exact { taken with episodes := Quantity.canonical_next shaped.episodes }
  | false => exact taken

theorem shaped_learn (shaped : a.Shaped) (features : List Float) (action : Quantity Float)
    (reward : Float) (next : List Float) (done : Bool) :
    (a.learn features action reward next done).2.Shaped := by
  unfold learn
  cases admitted : a.admits features action next done with
  | error fault => exact shaped
  | ok i =>
    have length (learns : a.kind ≠ .random) := length_of_admits learns admitted
    have suits := shaped.learner
    refine shaped.learned ?_ done
    cases chosen : a.learner with
    | random => trivial
    | qlearning q =>
      have learns : a.kind ≠ .random := by simp [kind, chosen, Learner.kind]
      rw [chosen] at suits
      exact sound_learnQ suits (length learns) i reward next done
    | policyGradient p =>
      have learns : a.kind ≠ .random := by simp [kind, chosen, Learner.kind]
      rw [chosen] at suits
      exact @sound_learnPolicy a.spaces p suits ⟨features, i, reward⟩ (length learns) done

theorem shaped_startEpisode (shaped : a.Shaped) : a.startEpisode.Shaped := by
  have suits := shaped.learner
  unfold startEpisode
  cases chosen : a.learner with
  | policyGradient p =>
    rw [chosen] at suits
    obtain ⟨small, valid, fits, _⟩ := suits
    exact shaped.withLearner ⟨small, valid, fits, by simp [PolicyLearner.startEpisode]⟩
  | random | qlearning q => exact shaped

theorem shaped_take (shaped : a.Shaped) {learner : Except Fault Learner}
    (suits : ∀ l, learner = .ok l → l.Sound a.spaces) : (a.take learner).2.Shaped := by
  cases learner with
  | error fault => exact shaped
  | ok l => exact shaped.withLearner (suits l rfl)

theorem fits_of_fitsWeights {weights : List (List Float)}
    (accepted : a.fitsWeights weights = true) : a.spaces.Fits weights := by
  simp only [fitsWeights, Bool.and_eq_true, beq_iff_eq, List.all_eq_true] at accepted
  exact ⟨accepted.1, accepted.2⟩

theorem shaped_withCounters (shaped : a.Shaped) (saved : SavedAgent) :
    (a.withCounters saved).Shaped :=
  { shaped with episodes := Quantity.canonical_ofScalar _ }

/-- Settings are taken over only if they pass, weights only if they fit. -/
theorem shaped_loadQ (shaped : a.Shaped) {q : QLearner Float} (learner : a.learner = .qlearning q)
    (saved : SavedAgent) : (a.loadQ q saved).2.Shaped := by
  obtain ⟨small, _, fits⟩ : Learner.Sound a.spaces (.qlearning q) := learner ▸ shaped.learner
  unfold loadQ
  cases resolved : QSettings.resolve saved.settingsGiven with
  | error fault => exact shaped
  | ok settings =>
    have valid := QSettings.valid_of_resolve resolved
    dsimp only
    split
    · next fitting =>
      have suits := fits_of_fitsWeights fitting
      refine shaped_withCounters ?_ saved
      exact shaped.withLearner ⟨small, valid, suits⟩
    · exact shaped.withLearner ⟨small, valid, fits⟩

theorem shaped_loadPolicy (shaped : a.Shaped) {p : PolicyLearner Float}
    (learner : a.learner = .policyGradient p) (saved : SavedAgent) :
    (a.loadPolicy p saved).2.Shaped := by
  obtain ⟨small, _, fits, buffered⟩ : Learner.Sound a.spaces (.policyGradient p) :=
    learner ▸ shaped.learner
  unfold loadPolicy
  cases resolved : PolicySettings.resolve saved.settingsGiven with
  | error fault => exact shaped
  | ok settings =>
    have valid := PolicySettings.valid_of_resolve resolved
    dsimp only
    split
    · next fitting =>
      have suits := fits_of_fitsWeights fitting
      refine shaped_withCounters ?_ saved
      exact shaped.withLearner ⟨small, valid, suits, by simp⟩
    · exact shaped.withLearner ⟨small, valid, fits, buffered⟩

theorem shaped_load (shaped : a.Shaped) (text : String) : (a.load text).2.Shaped := by
  unfold load
  cases a.readOwn text with
  | error fault => exact shaped
  | ok saved =>
    cases learner : a.learner with
    | random => exact shaped_withCounters shaped saved
    | qlearning q => exact shaped_loadQ shaped learner saved
    | policyGradient p => exact shaped_loadPolicy shaped learner saved

theorem setLearnerEpsilon_eq_ok {l set : Learner} {epsilon : Float}
    (taken : setLearnerEpsilon l epsilon = .ok set) :
    ∃ q, l = .qlearning q ∧ set = .qlearning { q with epsilon } := by
  cases l with
  | random | policyGradient p => cases taken
  | qlearning q =>
    unfold setLearnerEpsilon setEpsilon LearnerSettings.require at taken
    dsimp only at taken
    split at taken
    · exact ⟨q, rfl, (Except.ok.inj taken).symm⟩
    · cases taken

theorem decayLearnerEpsilon_eq_ok {l decayed : Learner}
    (taken : decayLearnerEpsilon l = .ok decayed) :
    ∃ q, l = .qlearning q ∧ decayed = .qlearning q.decay := by
  cases l with
  | random | policyGradient p => cases taken
  | qlearning q => exact ⟨q, rfl, (Except.ok.inj taken).symm⟩

theorem shaped_perform (shaped : a.Shaped) (call : Call) : (a.perform call).2.Shaped := by
  have suits := shaped.learner
  cases call with
  | act features explore => exact shaped_act shaped features explore
  | startEpisode => exact shaped_startEpisode shaped
  | learn features action reward next done =>
    exact shaped_learn shaped features action reward next done
  | setEpsilon epsilon =>
    refine shaped_take shaped fun l set => ?_
    obtain ⟨q, chosen, rfl⟩ := setLearnerEpsilon_eq_ok set
    rw [chosen] at suits
    exact suits
  | decayEpsilon =>
    refine shaped_take shaped fun l decayed => ?_
    obtain ⟨q, chosen, rfl⟩ := decayLearnerEpsilon_eq_ok decayed
    rw [chosen] at suits
    exact suits
  | reset =>
    exact { shaped with
      episodes := Quantity.canonical_count (by decide)
      learner := sound_restart suits }
  | load text => exact shaped_load shaped text
  | save | look => exact shaped
  | wait now => exact { shaped with }

/-- Where the time of the last update comes from: the clock, or a text that was loaded. -/
inductive Stamp where
  | clock
  | loaded (time : String)
  deriving DecidableEq

/-- The time that a call gives an agent, if it gives it one: that of the clock for an episode that
it counts or a new beginning, or the one that it loads. -/
def stamp? (a : Agent) : Call → Option Stamp
  | .learn features action reward next done =>
    match a.learn features action reward next done with
    | (.ok (), _) => if done then some .clock else none
    | (.error _, _) => none
  | .reset => some .clock
  | .load text =>
    match a.load text, a.readOwn text with
    | (.ok (), _), .ok saved => some (.loaded saved.updated)
    | _, _ => none
  | _ => none

def Stamp.time (now : Instant) : Stamp → Instant
  | clock => now
  | loaded time => .ofText time

/-- A load sets the time of the last update if it is accepted, and the clock never. -/
theorem load_times (a : Agent) (text : String) :
    (a.load text).2.clock = a.clock ∧ (a.load text).2.updated =
      ((a.stamp? (.load text)).map (·.time a.clock)).getD a.updated := by
  simp only [stamp?, load]
  cases read : a.readOwn text with
  | error fault => exact ⟨rfl, rfl⟩
  | ok saved =>
    cases a.learner with
    | random => exact ⟨rfl, rfl⟩
    | qlearning q =>
      simp only [loadQ]
      cases QSettings.resolve saved.settingsGiven with
      | error fault => exact ⟨rfl, rfl⟩
      | ok settings => cases fits : a.fitsWeights saved.weights <;> simp [withCounters, Stamp.time]
    | policyGradient p =>
      simp only [loadPolicy]
      cases PolicySettings.resolve saved.settingsGiven with
      | error fault => exact ⟨rfl, rfl⟩
      | ok settings => cases fits : a.fitsWeights saved.weights <;> simp [withCounters, Stamp.time]

/-- No call turns an agent into one of another kind or for other spaces. -/
theorem load_alike (a : Agent) (text : String) : a.Alike (a.load text).2 := by
  unfold load
  cases a.readOwn text with
  | error fault => exact ⟨rfl, rfl⟩
  | ok saved =>
    cases learner : a.learner with
    | random => exact ⟨rfl, rfl⟩
    | qlearning q =>
      have kept : a.kind = .qlearning := congrArg Learner.kind learner
      simp only [loadQ]
      cases QSettings.resolve saved.settingsGiven with
      | error fault => exact ⟨rfl, rfl⟩
      | ok settings =>
        dsimp only
        split <;> exact ⟨rfl, kept.symm⟩
    | policyGradient p =>
      have kept : a.kind = .policyGradient := congrArg Learner.kind learner
      simp only [loadPolicy]
      cases PolicySettings.resolve saved.settingsGiven with
      | error fault => exact ⟨rfl, rfl⟩
      | ok settings =>
        dsimp only
        split <;> exact ⟨rfl, kept.symm⟩

theorem take_alike (a : Agent) {learner : Except Fault Learner}
    (kept : ∀ l, learner = .ok l → l.kind = a.kind) : a.Alike (a.take learner).2 := by
  cases learner with
  | error fault => exact ⟨rfl, rfl⟩
  | ok l => exact ⟨rfl, kept l rfl⟩

theorem perform_alike (a : Agent) (call : Call) : a.Alike (a.perform call).2 := by
  cases call with
  | act features explore =>
    change a.Alike (a.act features explore).2
    rw [act_source]
    exact ⟨rfl, rfl⟩
  | startEpisode => exact a.startEpisode_counts.alike
  | learn features action reward next done =>
    change a.Alike (a.learn features action reward next done).2
    rcases a.learn_cases features action reward next done with
      ⟨_, taken⟩ | ⟨learner, kept, settled, taken⟩ <;> rw [taken]
    · exact ⟨rfl, rfl⟩
    · exact (a.withLearner_counts kept settled).alike
  | setEpsilon epsilon =>
    refine a.take_alike fun l set => ?_
    obtain ⟨q, chosen, rfl⟩ := setLearnerEpsilon_eq_ok set
    exact (congrArg Learner.kind chosen).symm
  | decayEpsilon =>
    refine a.take_alike fun l decayed => ?_
    obtain ⟨q, chosen, rfl⟩ := decayLearnerEpsilon_eq_ok decayed
    exact (congrArg Learner.kind chosen).symm
  | reset =>
    refine ⟨rfl, ?_⟩
    change (a.learner.restart a.spaces a.source).1.kind = a.learner.kind
    cases a.learner <;> rfl
  | load text => exact a.load_alike text
  | save | look | wait now => exact ⟨rfl, rfl⟩

theorem after_alike (a : Agent) (calls : List Call) : a.Alike (a.after calls) := by
  have step (b : Agent) (call : Call) (alike : a.Alike b) : a.Alike (b.perform call).2 :=
    have ⟨spaces, kind⟩ := b.perform_alike call
    ⟨spaces.trans alike.1, kind.trans alike.2⟩
  exact keeps_after step ⟨rfl, rfl⟩ calls

theorem perform_clock (a : Agent) (call : Call) :
    (a.perform call).2.clock = a.clock ∨
      ∃ now, call = .wait now ∧ (a.perform call).2.clock = now := by
  cases call with
  | act features explore =>
    refine .inl ?_
    change (a.act features explore).2.clock = a.clock
    rw [act_source]
  | startEpisode =>
    refine .inl ?_
    change a.startEpisode.clock = a.clock
    unfold startEpisode
    cases a.learner <;> rfl
  | learn features action reward next done =>
    refine .inl ?_
    change (a.learn features action reward next done).2.clock = a.clock
    rcases a.learn_cases features action reward next done with ⟨_, taken⟩ | ⟨_, _, _, taken⟩ <;>
      rw [taken]
    cases done <;> rfl
  | setEpsilon epsilon =>
    refine .inl ?_
    change (a.take (setLearnerEpsilon a.learner epsilon)).2.clock = a.clock
    cases setLearnerEpsilon a.learner epsilon <;> rfl
  | decayEpsilon =>
    refine .inl ?_
    change (a.take (decayLearnerEpsilon a.learner)).2.clock = a.clock
    cases decayLearnerEpsilon a.learner <;> rfl
  | load text => exact .inl (a.load_times text).1
  | reset | save | look => exact .inl rfl
  | wait now => exact .inr ⟨now, rfl, rfl⟩

/-- A call leaves the time of the last update alone unless it gives the agent another. -/
theorem perform_updated (a : Agent) (call : Call) :
    (a.perform call).2.updated = ((a.stamp? call).map (·.time a.clock)).getD a.updated := by
  cases call with
  | act features explore =>
    change (a.act features explore).2.updated = a.updated
    rw [act_source]
  | startEpisode =>
    change a.startEpisode.updated = a.updated
    unfold startEpisode
    cases a.learner <;> rfl
  | learn features action reward next done =>
    change (a.learn features action reward next done).2.updated = _
    rcases a.learn_cases features action reward next done with ⟨_, taken⟩ | ⟨_, _, _, taken⟩ <;>
      simp only [stamp?, taken]
    · rfl
    · cases done <;> rfl
  | setEpsilon epsilon =>
    change (a.take (setLearnerEpsilon a.learner epsilon)).2.updated = a.updated
    cases setLearnerEpsilon a.learner epsilon <;> rfl
  | decayEpsilon =>
    change (a.take (decayLearnerEpsilon a.learner)).2.updated = a.updated
    cases decayLearnerEpsilon a.learner <;> rfl
  | load text => exact (a.load_times text).2
  | reset | save | look | wait now => rfl

/-- Only a load brings a time that is not the clock's. -/
theorem stamp?_proper (a : Agent) {call : Call} (proper : call.Proper) :
    a.stamp? call = none ∨ a.stamp? call = some .clock := by
  cases call with
  | learn features action reward next done =>
    simp only [stamp?]
    rcases a.learn features action reward next done with ⟨_ | _, _⟩
    · exact .inl rfl
    · cases done <;> simp
  | load text => exact absurd proper id
  | reset => exact .inr rfl
  | act | startEpisode | setEpsilon | decayEpsilon | save | look | wait => exact .inl rfl

/-- What an agent saves has a time that is read as the time of its last update. -/
theorem save_eq_ok {text : String} (saved : b.save = .ok text) :
    ∃ updated, b.updated.isoText? = some updated ∧ text = (b.saved updated).write := by
  unfold save at saved
  split at saved
  · next updated written => exact ⟨updated, written, (Except.ok.inj saved).symm⟩
  · cases saved

theorem readOwn_eq_ok {text : String} {saved : SavedAgent} (accepted : a.readOwn text = .ok saved) :
    SavedAgent.read text = .ok saved := by
  obtain ⟨read, readable, accepted⟩ := bind_eq_ok.mp accepted
  dsimp only at accepted
  split at accepted
  · cases accepted
  split at accepted
  · cases accepted
  · cases accepted
    exact readable

theorem sound_perform (sound : a.Sound) {call : Call} (proper : call.Proper) :
    (a.perform call).2.Sound := by
  refine (shaped_perform sound.shaped call).sound ?_ ?_
  · rcases a.perform_clock call with same | ⟨now, rfl, same⟩ <;> rw [same]
    · exact sound.clock
    · exact proper
  · rw [perform_updated]
    rcases a.stamp?_proper proper with kept | now
    · exact kept ▸ sound.updated
    · exact now ▸ sound.clock

/-- A load is sound whether it succeeds or is refused on the way, as long as the text is one that
a sound agent has saved: then its time can be written again. -/
theorem sound_load (sound : a.Sound) (source : b.Sound) {text : String}
    (saved : b.save = .ok text) : (a.load text).2.Sound := by
  obtain ⟨updated, written, rfl⟩ := save_eq_ok saved
  obtain ⟨text, spelled⟩ : ∃ text, text = (b.saved updated).write := ⟨_, rfl⟩
  rw [← spelled]
  obtain ⟨clock, time⟩ := a.load_times text
  refine (shaped_load sound.shaped text).sound (clock ▸ sound.clock) ?_
  rw [time]
  cases stamp : a.stamp? (.load text) with
  | none => exact sound.updated
  | some given =>
    simp only [stamp?] at stamp
    split at stamp
    · next read _ readable =>
      cases stamp
      rw [spelled] at readable
      have time : read.updated = updated := SavedAgent.updated_of_read (readOwn_eq_ok readable)
      change Instant.Dated (.ofText read.updated)
      rw [time, source.updated.ofText written]
      exact source.updated
    · cases stamp

theorem check_eq_ok {actions features : Quantity Float} {spaces : Spaces}
    (checked : Spaces.check actions features = .ok spaces) :
    (actions = .count spaces.actions ∧ features = .count spaces.features) ∧
      1 ≤ spaces.actions ∧ 1 ≤ spaces.features := by
  obtain ⟨_, actions, checked⟩ := bind_eq_ok.mp checked
  obtain ⟨_, features, checked⟩ := bind_eq_ok.mp checked
  cases checked
  obtain ⟨actions, some⟩ := Settings.positive_eq_ok actions
  obtain ⟨features, wide⟩ := Settings.positive_eq_ok features
  exact ⟨⟨actions, features⟩, some, wide⟩

/-- What a new agent starts with. -/
theorem create_eq_ok {kind : AgentKind} {actions features : Quantity Float}
    {settings : Json.Members Json} {source : Source Float} {clock : Instant} {a : Agent}
    (created : create kind actions features settings source clock = .ok a) :
    ∃ spaces learner rest, Spaces.check actions features = .ok spaces ∧
      Learner.create kind spaces settings source = .ok (learner, rest) ∧
      a = ⟨spaces, rest, clock, .count 0, clock, learner⟩ := by
  unfold create at created
  dsimp only at created
  split at created
  · obtain ⟨_, _, created⟩ := bind_eq_ok.mp created
    obtain ⟨spaces, checked, created⟩ := bind_eq_ok.mp created
    obtain ⟨⟨learner, rest⟩, made, created⟩ := bind_eq_ok.mp created
    exact ⟨spaces, learner, rest, checked, made, (Except.ok.inj created).symm⟩
  · obtain ⟨spaces, checked, created⟩ := bind_eq_ok.mp created
    obtain ⟨⟨learner, rest⟩, made, created⟩ := bind_eq_ok.mp created
    exact ⟨spaces, learner, rest, checked, made, (Except.ok.inj created).symm⟩

theorem shaped_create {kind : AgentKind} {actions features : Quantity Float}
    {settings : Json.Members Json} {source : Source Float} {clock : Instant}
    (created : create kind actions features settings source clock = .ok a) : a.Shaped := by
  obtain ⟨spaces, learner, rest, checked, made, rfl⟩ := create_eq_ok created
  obtain ⟨_, actions, features⟩ := check_eq_ok checked
  exact ⟨actions, features, (sound_create made).1, Quantity.canonical_count (by decide)⟩

theorem create_kind {kind : AgentKind} {actions features : Quantity Float}
    {settings : Json.Members Json} {source : Source Float} {clock : Instant} {a : Agent}
    (created : create kind actions features settings source clock = .ok a) : a.kind = kind := by
  obtain ⟨spaces, learner, rest, _, made, rfl⟩ := create_eq_ok created
  exact (sound_create made).2

/-- What comes about is sound. -/
theorem Reached.sound (reached : a.Reached) : a.Sound := by
  induction reached with
  | create dated created =>
    obtain ⟨_, _, _, _, _, rfl⟩ := create_eq_ok created
    exact (shaped_create created).sound dated dated
  | call proper _ ih => exact sound_perform ih proper
  | load saved _ _ source ih => exact sound_load ih source saved

end Agent
end ProgramGym
