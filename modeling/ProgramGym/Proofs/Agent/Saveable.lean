import ProgramGym.Proofs.Agent.Restoring
import ProgramGym.Proofs.Decimal.RoundTrip
import ProgramGym.Proofs.Selecting

/-! Which agents can be saved, and which saved states can be loaded. A load takes any text for the
time of the last update, and one that is no date cannot be written again; a number that is not
finite, loaded or come about in learning, is written as null, and null is no number for a load. All
else that a load checks holds of every agent, and goes on to hold when the sign of a zero gets lost
in writing. Main statement: these two are the only ways in which a checkpoint is lost. -/
namespace ProgramGym

namespace Number
variable {x : Float}

theorem reread_cases (finite : x.isFinite = true) : reread x = x ∨ x = -0.0 ∧ reread x = 0 := by
  by_cases zero : x = -0.0
  · refine .inr ⟨zero, ?_⟩
    rw [zero]
    decide +kernel
  · exact .inl (reread_self finite zero)

theorem finite_reread (finite : x.isFinite = true) : (reread x).isFinite = true := by
  rcases reread_cases finite with same | ⟨_, zero⟩
  · rw [same]
    exact finite
  · rw [zero]
    decide +kernel

open Float.Model

theorem unpack_negZero : (-0.0 : Float).toModel.unpack = .zero .negative := rfl

/-- Zeros of either sign compare alike. -/
theorem compare_zero (s t : UnpackedFloat.Sign) (u : UnpackedFloat) :
    (UnpackedFloat.zero s).compare u = (UnpackedFloat.zero t).compare u ∧
      u.compare (.zero s) = u.compare (.zero t) := by
  cases s <;> cases t <;> rcases u with sign | _ | sign | ⟨sign, _⟩ <;> first
    | exact ⟨rfl, rfl⟩
    | cases sign <;> exact ⟨rfl, rfl⟩

theorem compare_reread (finite : x.isFinite = true) (u : UnpackedFloat) :
    (reread x).toModel.unpack.compare u = x.toModel.unpack.compare u ∧
      u.compare (reread x).toModel.unpack = u.compare x.toModel.unpack := by
  rcases reread_cases finite with same | ⟨rfl, zero⟩
  · rw [same]
    exact ⟨rfl, rfl⟩
  · rw [zero, Binary64.unpack_zero, unpack_negZero]
    exact compare_zero _ _ u

theorem bne_reread (finite : x.isFinite = true) : (reread x != x) = false := by
  have same : (x == x) = true := by simpa using bne_self finite
  rw [Binary64.beq_iff_compare, ← (compare_reread finite _).1, ← Binary64.beq_iff_compare] at same
  simp [bne, same]

theorem lt_reread {y : Float} (first : x.isFinite = true) (second : y.isFinite = true) :
    reread x < reread y ↔ x < y := by
  rw [Binary64.lt_iff_compare, Binary64.lt_iff_compare, (compare_reread first _).1,
    (compare_reread second _).2]

end Number

theorem Range.contains_reread {range : Range} {x : Float} (inside : range.contains x = true) :
    range.contains (Number.reread x) = true := by
  have finite := finite_of_contains inside
  simp only [contains, gt_iff_lt, ge_iff_le, Binary64.lt_iff_compare, Binary64.le_iff_compare,
    (Number.compare_reread finite _).1, (Number.compare_reread finite _).2,
    Number.finite_reread finite, finite] at inside ⊢
  exact inside

namespace QSettings

theorem valid_reread {s : QSettings Float} (valid : s.Valid) : (s.map Number.reread).Valid where
  learningRate := Range.contains_reread valid.learningRate
  gamma := Range.contains_reread valid.gamma
  epsilon := Range.contains_reread valid.epsilon
  epsilonDecay := Range.contains_reread valid.epsilonDecay
  epsilonMin := Range.contains_reread valid.epsilonMin
  tdErrorClip := Range.contains_reread valid.tdErrorClip
  weightInit := Range.contains_reread valid.weightInit
  floor below := valid.floor ((Number.lt_reread (Range.finite_of_contains valid.epsilon)
    (Range.finite_of_contains valid.epsilonMin)).mp below)

end QSettings

namespace PolicySettings

theorem valid_reread {s : PolicySettings Float} (valid : s.Valid) :
    (s.map Number.reread).Valid where
  learningRate := Range.contains_reread valid.learningRate
  gamma := Range.contains_reread valid.gamma
  baselineMomentum := Range.contains_reread valid.baselineMomentum
  gradientClip := Range.contains_reread valid.gradientClip
  weightInit := Range.contains_reread valid.weightInit

end PolicySettings

theorem Spaces.Fits.map {spaces : Spaces} {weights : List (List Float)} (fits : spaces.Fits weights)
    (f : Float → Float) : spaces.Fits (weights.map (·.map f)) where
  rows := by rw [List.length_map, fits.rows]
  columns row inside := by
    obtain ⟨before, member, rfl⟩ := List.mem_map.mp inside
    rw [List.length_map, fits.columns before member]

namespace Agent
variable {a b : Agent} {text : String}

theorem readOwn_finite (finite : ∀ x ∈ a.numbers, x.isFinite = true) (kind : b.kind = a.kind)
    (spaces : b.spaces = a.spaces) (updated : String) :
    b.readOwn (a.saved updated).write = .ok (a.saved updated).readBack := by
  have same (n : Nat) (inside : Float.ofNat n ∈ a.numbers) :
      (Number.reread (Float.ofNat n) != Float.ofNat n) = false := Number.bne_reread (finite _ inside)
  have actions := same a.spaces.actions (by simp [numbers, SavedAgent.numbers, saved])
  have features := same a.spaces.features (by simp [numbers, SavedAgent.numbers, saved])
  refine bind_eq_ok.mpr ⟨_, SavedAgent.read_write_finite a.learner.ordered_settings
    a.learner.ordered_state finite, ?_⟩
  simp [SavedAgent.readBack, saved, kind, spaces, actions, features]
  rfl

theorem fitsWeights_readBack (fits : a.spaces.Fits a.learner.weights) (spaces : b.spaces = a.spaces)
    (updated : String) : b.fitsWeights (a.saved updated).readBack.weights = true :=
  fitsWeights_of_fits (spaces ▸ fits.map Number.reread)

/-- What every agent keeps is what a load checks beyond the numbers. -/
theorem load_finite (shaped : a.Shaped) (finite : ∀ x ∈ a.numbers, x.isFinite = true)
    (kind : b.kind = a.kind) (spaces : b.spaces = a.spaces) (updated : String) :
    (b.load (a.saved updated).write).1 = .ok () := by
  have suits := shaped.learner
  rw [load, readOwn_finite finite kind spaces]
  cases own : b.learner with
  | random => rfl
  | qlearning q =>
    cases learner : a.learner with
    | random | policyGradient p => simp [Agent.kind, Learner.kind, own, learner] at kind
    | qlearning its =>
      rw [learner] at suits
      have settings : (a.saved updated).readBack.settingsGiven =
          (its.settings.map Number.reread).members.given := by
        rw [SavedAgent.settingsGiven, SavedAgent.readBack, saved, learner]
        rfl
      have fits := fitsWeights_readBack (b := b) (learner ▸ suits.2.2) spaces updated
      simp [loadQ, settings, QSettings.resolve_given (QSettings.valid_reread suits.2.1), fits]
  | policyGradient p =>
    cases learner : a.learner with
    | random | qlearning q => simp [Agent.kind, Learner.kind, own, learner] at kind
    | policyGradient its =>
      rw [learner] at suits
      have settings : (a.saved updated).readBack.settingsGiven =
          (its.settings.map Number.reread).members.given := by
        rw [SavedAgent.settingsGiven, SavedAgent.readBack, saved, learner]
        rfl
      have fits := fitsWeights_readBack (b := b) (learner ▸ suits.2.2.1) spaces updated
      simp [loadPolicy, settings, PolicySettings.resolve_given (PolicySettings.valid_reread suits.2.1),
        fits]

/-- A saved state is accepted by an agent of its kind and spaces exactly if no number is lost. -/
theorem load_saved_iff (shaped : a.Shaped) (saved : a.save = .ok text) (kind : b.kind = a.kind)
    (spaces : b.spaces = a.spaces) :
    (b.load text).1 = .ok () ↔ ∀ x ∈ a.numbers, x.isFinite = true := by
  obtain ⟨updated, _, rfl⟩ := save_eq_ok saved
  refine ⟨fun accepted => ?_, fun finite => load_finite shaped finite kind spaces updated⟩
  cases readable : b.readOwn (a.saved updated).write with
  | error fault => simp [load, readable] at accepted
  | ok found =>
    have read := readOwn_eq_ok readable
    exact @SavedAgent.finite_of_read (a.saved updated) found a.learner.ordered_settings
      a.learner.ordered_state read

theorem save_ok_iff (a : Agent) : (∃ text, a.save = .ok text) ↔ a.updated ≠ .none := by
  unfold save
  cases a.updated with
  | moment n => simp [Instant.isoText?]
  | none => simp [Instant.isoText?]

/-! Where the time of the last update comes from. -/

/-- A call that sets the clock, if it does so, to a date. -/
def Call.Timely : Call → Prop
  | .wait now => now.Dated
  | _ => True

/-- The last time that calls have given an agent, or else the one from before. -/
def lastStamp (a : Agent) (stamp : Stamp) : List Call → Stamp
  | [] => stamp
  | call :: calls => lastStamp (a.perform call).2 ((a.stamp? call).getD stamp) calls

/-- The clock shows a date, and the time of the last update is one too unless it was loaded. -/
def Stamped (a : Agent) (stamp : Stamp) : Prop :=
  a.clock.Dated ∧ match stamp with
    | .clock => a.updated.Dated
    | .loaded time => a.updated = .ofText time

theorem stamped_perform {stamp : Stamp} (stamped : a.Stamped stamp) {call : Call}
    (timely : call.Timely) : (a.perform call).2.Stamped ((a.stamp? call).getD stamp) := by
  obtain ⟨clock, updated⟩ := stamped
  refine ⟨?_, ?_⟩
  · rcases a.perform_clock call with same | ⟨now, rfl, same⟩ <;> rw [same]
    · exact clock
    · exact timely
  · rw [perform_updated]
    cases a.stamp? call with
    | none => exact updated
    | some given =>
      cases given with
      | clock => exact clock
      | loaded time => rfl

theorem stamped_after {stamp : Stamp} (stamped : a.Stamped stamp) (calls : List Call)
    (timely : ∀ call ∈ calls, call.Timely) : (a.after calls).Stamped (a.lastStamp stamp calls) := by
  induction calls generalizing a stamp with
  | nil => exact stamped
  | cons call calls ih =>
    obtain ⟨first, rest⟩ := List.forall_mem_cons.mp timely
    exact ih (stamped_perform stamped first) rest

theorem updated_eq_none_iff {stamp : Stamp} (stamped : a.Stamped stamp) :
    a.updated = .none ↔ ∃ time, stamp = .loaded time ∧ Instant.ofText time = .none := by
  obtain ⟨_, updated⟩ := stamped
  cases stamp with
  | clock =>
    obtain ⟨n, moment, _⟩ := updated
    rw [moment]
    simp
  | loaded time =>
    change a.updated = .ofText time at updated
    rw [updated]
    simp

/-- When an agent that was made and asked for anything can be saved, and when the text can be loaded
by a new agent of its kind and spaces, for every order of calls. It cannot be saved exactly while
the last time that it was given is one that was loaded and is no date: until an episode is counted,
the agent is reset or another state is loaded. And what it saves is accepted exactly if its numbers
are finite. -/
theorem save_loads {kind : AgentKind} {actions features : Quantity Float}
    {settings : Json.Members Json} {source : Source Float} {clock : Instant} {made : Agent}
    (dated : clock.Dated)
    (created : create kind actions features settings source clock = .ok made)
    (calls : List Call) (timely : ∀ call ∈ calls, call.Timely) :
    let a := made.after calls
    ((∃ text, a.save = .ok text) ↔
      ∀ time, made.lastStamp .clock calls = .loaded time → Instant.ofText time ≠ .none) ∧
    ∀ text, a.save = .ok text → ∀ {given : Json.Members Json} {source : Source Float}
      {now : Instant} {fresh : Agent},
      create kind actions features given source now = .ok fresh →
      ((fresh.load text).1 = .ok () ↔ ∀ x ∈ a.numbers, x.isFinite = true) := by
  intro a
  have step (a : Agent) (call : Call) (shaped : a.Shaped) := shaped_perform shaped call
  have shaped : a.Shaped := keeps_after step (shaped_create created) calls
  have alike := made.after_alike calls
  have kinds := create_kind created
  obtain ⟨spaces, learner, rest, checked, _, built⟩ := create_eq_ok created
  have stamped : made.Stamped .clock := by
    rw [built]
    exact ⟨dated, dated⟩
  have stamped := stamped_after stamped calls timely
  refine ⟨?_, fun text saved given source now fresh another => ?_⟩
  · rw [save_ok_iff, ne_eq, updated_eq_none_iff stamped]
    simp only [not_exists, not_and]
  · refine load_saved_iff shaped saved ((create_kind another).trans (alike.2.trans kinds).symm) ?_
    obtain ⟨others, _, _, rechecked, _, rfl⟩ := create_eq_ok another
    cases checked.symm.trans rechecked
    rw [alike.1, built]

/-- A state for `sample` that takes whole steps and was last updated at no time. -/
def timeless : String :=
  "\x7b\"type\":\"qlearning\",\"actionSpaceSize\":1,\"featureDimension\":1," ++
  "\"config\":\x7b\"learningRate\":1\x7d,\"weights\":[[0]],\"state\":\x7b\x7d," ++
  "\"episodesTrained\":3,\"lastUpdated\":\"\"\x7d"

/-- An episode of one step along a feature that is too large for it. -/
def steep : Call := .learn [1e308] (.count 0) 10 [0] true

theorem ofText_empty : Instant.ofText "" = .none := by
  have none : Calendar.tokens "" = [] := rfl
  rw [Instant.ofText, none]
  simp [Calendar.strictly, Calendar.lenient]
  rfl

/-- After the load there is no date to write; after the episode there is one, and an infinite
weight. -/
theorem timeless_steep :
    sample.lastStamp .clock [.load timeless] = .loaded "" ∧
    sample.lastStamp .clock [.load timeless, steep] = .clock ∧
    ¬ ∀ x ∈ (sample.after [.load timeless, steep]).numbers, x.isFinite = true := by
  decide +kernel

theorem save_loads_sample : ∃ text,
    create .qlearning (.count 1) (.count 1) [] (.ofSeed 0) (.moment 0) = .ok sample ∧
    (¬ ∃ text, (sample.after [.load timeless]).save = .ok text) ∧
    (sample.after [.load timeless, steep]).save = .ok text ∧ (sample.load text).1 ≠ .ok () := by
  have dated : (Instant.moment 0).Dated := ⟨0, rfl, by decide⟩
  have created : create .qlearning (.count 1) (.count 1) [] (.ofSeed 0) (.moment 0) = .ok sample :=
    rfl
  obtain ⟨loaded, counted, infinite⟩ := timeless_steep
  have first := save_loads dated created [.load timeless] (by simp [Call.Timely])
  have second := save_loads dated created [.load timeless, steep] (by simp [Call.Timely, steep])
  obtain ⟨text, saved⟩ := second.1.mpr fun time stamp => nomatch counted.symm.trans stamp
  refine ⟨text, created, fun saved => ?_, saved, fun accepted => ?_⟩
  · exact first.1.mp saved "" loaded ofText_empty
  · exact infinite ((second.2 text saved created).mp accepted)

/-- A state is accepted that cannot be saved again, and an episode of finite numbers makes a state
that can be saved and not loaded. -/
theorem checkpoints_are_lost :
    create .qlearning (.count 1) (.count 1) [] (.ofSeed 0) (.moment 0) = .ok sample ∧
    (sample.load timeless).1 = .ok () ∧ (sample.load timeless).2.save = .error .noDate ∧
    ∃ text, (sample.after [.load timeless, steep]).save = .ok text ∧
      (sample.load text).1 ≠ .ok () := by
  have created : create .qlearning (.count 1) (.count 1) [] (.ofSeed 0) (.moment 0) = .ok sample :=
    rfl
  obtain ⟨loaded, counted, infinite⟩ := timeless_steep
  have given : sample.stamp? (.load timeless) = some (.loaded "") := by
    change (sample.stamp? (.load timeless)).getD .clock = .loaded "" at loaded
    cases stamp : sample.stamp? (.load timeless) with
    | none => simp [stamp] at loaded
    | some given => simpa [stamp] using loaded
  have accepted : (sample.load timeless).1 = .ok () := by
    simp only [stamp?] at given
    split at given
    · next loaded _ => rw [loaded]
    · cases given
  have updated : (sample.load timeless).2.updated = .none := by
    rw [(sample.load_times timeless).2, given]
    exact ofText_empty
  have dated : (Instant.moment 0).Dated := ⟨0, rfl, by decide⟩
  have shaped := shaped_perform (shaped_perform (shaped_create created) (.load timeless)) steep
  have alike := sample.after_alike [.load timeless, steep]
  have stamped : (sample.after [.load timeless, steep]).Stamped .clock :=
    counted ▸ stamped_after ⟨dated, dated⟩ _ (by simp [Call.Timely, steep])
  change (sample.after [.load timeless, steep]).Shaped at shaped
  generalize sample.after [.load timeless, steep] = a at infinite shaped alike stamped
  have dates : a.updated ≠ .none := by
    intro none
    obtain ⟨_, loaded, _⟩ := (updated_eq_none_iff stamped).mp none
    cases loaded
  obtain ⟨text, saved⟩ := (save_ok_iff a).mpr dates
  refine ⟨created, accepted, by simp [save, updated, Instant.isoText?], text, saved, fun loaded => ?_⟩
  exact infinite ((load_saved_iff shaped saved alike.2.symm alike.1.symm).mp loaded)

end Agent
end ProgramGym
