import ProgramGym.Proofs.Agent.Loading
import ProgramGym.Proofs.Agent.Reached

/-! Agents restored from what they have saved. A sound agent writes settings that pass their checks,
weights that fit, a counter that reads as itself and a time that is read again; so any agent of its
kind and spaces takes all of that over and keeps only its own source and clock. Main statement: an
agent that came about, with numbers that keep their values through their texts, is restored by a
new agent that loads its text and by the agent that the text describes. -/
namespace ProgramGym

theorem Number.parse?_text {x : Float} (finite : x.isFinite = true) :
    Json.parse? (Number.text x) = some (.number (Number.reread x)) := by
  have written : Number.text x = (Json.number x).compact := by
    simp [Json.compact, Json.chars, Json.numberChars, Number.text, finite]
  rw [written, Json.parse?_compact]
  simp [Json.reread, Json.mapValues, Json.rereadValue, finite]

theorem Number.kept_of_parse? {x : Float} (finite : x.isFinite = true)
    (back : Json.parse? (Number.text x) = some (.number x)) : Number.Kept x := by
  rw [Number.parse?_text finite] at back
  exact ⟨finite, Json.number.inj (Option.some.inj back)⟩

/-- Only what is no number differs from itself. -/
theorem Number.bne_self {x : Float} (finite : x.isFinite = true) : (x != x) = false := by
  have number : x ≠ .nan := by
    rintro rfl
    exact absurd finite (by decide +kernel)
  simpa using Float.beq_self_iff.mpr number

namespace Learner

theorem ordered_settings (l : Learner) : l.settings.Ordered := by
  cases l with
  | random => exact ⟨List.nodup_nil, nofun⟩
  | qlearning q =>
    have standard : QSettings.default.members.Ordered := ⟨by decide, by decide⟩
    exact standard.of_names rfl
  | policyGradient p =>
    have standard : PolicySettings.default.members.Ordered := ⟨by decide, by decide⟩
    exact standard.of_names rfl

theorem ordered_state (l : Learner) : l.state.Ordered := by
  have names : l.state.names.Nodup ∧ ∀ name ∈ l.state.names, Json.Members.index? name = none := by
    cases l with
    | random => exact ⟨List.nodup_nil, nofun⟩
    | qlearning q => exact ⟨List.nodup_singleton _, by simp [state, Json.Members.names]; decide⟩
    | policyGradient p =>
      have names : (policyGradient p).state.names = ["baseline", "baselineInitialized"] := rfl
      exact ⟨by rw [names]; decide, by rw [names]; decide⟩
  exact ⟨names.1, names.2⟩

/-- An untrained learner comes with the standard settings if there is room for its weights. -/
theorem create_standard {spaces : Spaces} {l : Learner} (sound : l.Sound spaces)
    (source : Source Float) : ∃ made, Learner.create l.kind spaces [] source = .ok made := by
  have room (small : spaces.features < vectorLimit) :
      (if spaces.features < vectorLimit then pure () else throw .badLength : Except Fault Unit) =
        .ok () := if_pos small
  cases l with
  | random => exact ⟨_, rfl⟩
  | qlearning q =>
    exact ⟨_, bind_eq_ok.mpr ⟨_, QSettings.resolve_nil, bind_eq_ok.mpr ⟨_, room sound.1, rfl⟩⟩⟩
  | policyGradient p =>
    exact ⟨_, bind_eq_ok.mpr ⟨_, PolicySettings.resolve_nil, bind_eq_ok.mpr ⟨_, room sound.1, rfl⟩⟩⟩

end Learner

namespace Agent
variable {a b : Agent} {text : String}

/-- The numbers that an agent is written with. -/
def numbers (a : Agent) : List Float := (a.saved "").numbers

theorem fitsWeights_of_fits {weights : List (List Float)} (fits : a.spaces.Fits weights) :
    a.fitsWeights weights = true := by
  simp only [fitsWeights, Bool.and_eq_true, beq_iff_eq, List.all_eq_true]
  exact ⟨fits.rows, fits.columns⟩

theorem read_saved (kept : ∀ x ∈ a.numbers, Number.Kept x) (updated : String) :
    SavedAgent.read (a.saved updated).write = .ok (a.saved updated) :=
  SavedAgent.read_write a.learner.ordered_settings a.learner.ordered_state kept

/-- Any agent of the kind and the spaces of another one takes its state for one of its own. -/
theorem readOwn_saved (kept : ∀ x ∈ a.numbers, Number.Kept x) (kind : b.kind = a.kind)
    (spaces : b.spaces = a.spaces) (updated : String) :
    b.readOwn (a.saved updated).write = .ok (a.saved updated) := by
  have finite (n : Nat) (inside : Float.ofNat n ∈ a.numbers) : (Float.ofNat n != Float.ofNat n) = false :=
    Number.bne_self (kept _ inside).1
  have actions := finite a.spaces.actions (by simp [numbers, SavedAgent.numbers, saved])
  have features := finite a.spaces.features (by simp [numbers, SavedAgent.numbers, saved])
  refine bind_eq_ok.mpr ⟨_, read_saved kept updated, ?_⟩
  simp [saved, kind, spaces, actions, features]
  rfl

theorem withCounters_saved (sound : a.Sound) {updated : String}
    (written : a.updated.isoText? = some updated) :
    b.withCounters (a.saved updated) = { b with episodes := a.episodes, updated := a.updated } := by
  have episodes : .ofScalar (a.saved updated).episodes = a.episodes := sound.episodes
  have time : Instant.ofText (a.saved updated).updated = a.updated := sound.updated.ofText written
  rw [withCounters, episodes, time]

theorem loadQ_saved {q own : QLearner Float} (sound : a.Sound) (learner : a.learner = .qlearning q)
    (spaces : b.spaces = a.spaces) {updated : String}
    (written : a.updated.isoText? = some updated) :
    b.loadQ own (a.saved updated) = (.ok (), { a with source := b.source, clock := b.clock }) := by
  obtain ⟨_, valid, fits⟩ : Learner.Sound a.spaces (.qlearning q) := learner ▸ sound.learner
  have settings : (a.saved updated).settingsGiven = q.settings.members.given := by
    rw [SavedAgent.settingsGiven, saved, learner]
    rfl
  have weights : (a.saved updated).weights = q.weights := congrArg Learner.weights learner
  have state : (a.saved updated).state.get? "epsilon" = some q.epsilon :=
    congrArg (Json.Members.get? "epsilon" ·.state) learner
  have fitting : b.fitsWeights q.weights = true := fitsWeights_of_fits (spaces ▸ fits)
  simp only [loadQ, settings, QSettings.resolve_given valid, weights, fitting, if_true, state,
    withCounters_saved sound written]
  simp only [spaces, learner]
  rfl

theorem loadPolicy_saved {p own : PolicyLearner Float} (sound : a.Sound)
    (learner : a.learner = .policyGradient p) (boundary : p.buffer = [])
    (spaces : b.spaces = a.spaces) {updated : String}
    (written : a.updated.isoText? = some updated) :
    b.loadPolicy own (a.saved updated) =
      (.ok (), { a with source := b.source, clock := b.clock }) := by
  obtain ⟨_, valid, fits, _⟩ : Learner.Sound a.spaces (.policyGradient p) := learner ▸ sound.learner
  have settings : (a.saved updated).settingsGiven = p.settings.members.given := by
    rw [SavedAgent.settingsGiven, saved, learner]
    rfl
  have weights : (a.saved updated).weights = p.weights := congrArg Learner.weights learner
  have baseline : (a.saved updated).state.get? "baseline" = some p.baseline :=
    congrArg (Json.Members.get? "baseline" ·.state) learner
  have initialized : (a.saved updated).state.get? "baselineInitialized" =
      some (if p.baselineSet then 1 else 0) :=
    congrArg (Json.Members.get? "baselineInitialized" ·.state) learner
  -- the flag is written as a number, and one is read as set
  have flag : (some (if p.baselineSet then (1 : Float) else 0)).any (· == 1) = p.baselineSet := by
    cases p.baselineSet <;> decide +kernel
  have fitting : b.fitsWeights p.weights = true := fitsWeights_of_fits (spaces ▸ fits)
  simp only [loadPolicy, settings, PolicySettings.resolve_given valid, weights, fitting, if_true,
    baseline, initialized, flag, withCounters_saved sound written]
  simp only [spaces, learner, ← boundary]
  rfl

/-- Any agent of the same kind and spaces becomes the agent whose text it loads, but for its source
and its clock. -/
theorem load_saved (sound : a.Sound) (boundary : a.learner.pending = [])
    (kept : ∀ x ∈ a.numbers, Number.Kept x) (saved : a.save = .ok text) (kind : b.kind = a.kind)
    (spaces : b.spaces = a.spaces) :
    b.load text = (.ok (), { a with source := b.source, clock := b.clock }) := by
  obtain ⟨updated, written, rfl⟩ := save_eq_ok saved
  rw [load, readOwn_saved kept kind spaces]
  cases own : b.learner with
  | random =>
    cases learner : a.learner with
    | random =>
      simp only [withCounters_saved sound written, spaces, own]
    | qlearning q | policyGradient p => simp [Agent.kind, Learner.kind, own, learner] at kind
  | qlearning q =>
    cases learner : a.learner with
    | qlearning its =>
      rw [← learner]
      exact loadQ_saved sound learner spaces written
    | random | policyGradient p => simp [Agent.kind, Learner.kind, own, learner] at kind
  | policyGradient p =>
    cases learner : a.learner with
    | policyGradient its =>
      rw [learner] at boundary
      rw [← learner]
      exact loadPolicy_saved sound learner boundary spaces written
    | random | qlearning q => simp [Agent.kind, Learner.kind, own, learner] at kind

/-- A text gives an agent back: settings, weights and what else the learner keeps, the counter and
the time of the last update are the same, and so is every answer from then on. -/
structure Restores (text : String) (a b : Agent) : Prop where
  spaces : b.spaces = a.spaces
  learner : b.learner = a.learner
  episodes : b.episodes = a.episodes
  updated : b.updated = a.updated
  again : b.save = .ok text
  alike : ∀ {s t : Source Float}, s.stream = t.stream → ∀ (now : Instant) (calls : List Call),
    { b with source := s, clock := now }.answers calls =
      { a with source := t, clock := now }.answers calls

theorem restores_withSource (saved : a.save = .ok text) (source : Source Float) (clock : Instant) :
    Restores text a { a with source, clock } where
  spaces := rfl
  learner := rfl
  episodes := rfl
  updated := rfl
  again := saved
  alike stream now calls := answers_twin (twin_withSource { a with clock := now } stream) calls

theorem create_standard (sound : a.Sound) {actions features : Quantity Float}
    (sizes : Spaces.check actions features = .ok a.spaces) (source : Source Float)
    (clock : Instant) :
    ∃ fresh, create a.kind actions features [] source clock = .ok fresh ∧
      fresh.spaces = a.spaces := by
  obtain ⟨⟨learner, rest⟩, made⟩ : ∃ made, Learner.create a.kind a.spaces [] source = .ok made :=
    Learner.create_standard sound.learner source
  refine ⟨⟨a.spaces, rest, clock, .count 0, clock, learner⟩, ?_, rfl⟩
  simp only [create, sizes, bind, Except.bind, made]
  split <;> rfl

/-- An agent that came about is given back by its text, whether a new agent of its kind and spaces
loads it or the text is all there is. That a number is read from its text as it was written is
assumed of the numbers that the agent holds. -/
theorem save_restores (reached : a.Reached) (boundary : a.learner.pending = [])
    (plain : ∀ x ∈ a.numbers, x.isFinite = true ∧ x ≠ -0.0)
    (printing : ∀ x ∈ a.numbers, x.isFinite = true → x ≠ -0.0 →
      Json.parse? (Number.text x) = some (.number x)) :
    ∃ text, a.save = .ok text ∧
      (∀ {actions features : Quantity Float} {settings : Json.Members Json} {source : Source Float}
        {clock : Instant} {fresh : Agent},
        create a.kind actions features settings source clock = .ok fresh →
        fresh.spaces = a.spaces → ∃ b, fresh.load text = (.ok (), b) ∧ Restores text a b) ∧
      ∀ {actions features : Quantity Float} (source : Source Float) (clock : Instant),
        Spaces.check actions features = .ok a.spaces →
        ∃ b, ofState text actions features source clock = .ok b ∧ Restores text a b := by
  have sound := reached.sound
  have kept : ∀ x ∈ a.numbers, Number.Kept x := fun x inside =>
    have ⟨finite, positive⟩ := plain x inside
    Number.kept_of_parse? finite (printing x inside finite positive)
  obtain ⟨n, time, _⟩ := sound.updated
  obtain ⟨updated, written⟩ : ∃ updated, a.updated.isoText? = some updated := by
    rw [time]
    exact ⟨_, rfl⟩
  have saved : a.save = .ok (a.saved updated).write := by rw [save, written]
  have loads {fresh : Agent} (kind : fresh.kind = a.kind) (spaces : fresh.spaces = a.spaces) :=
    load_saved sound boundary kept saved kind spaces
  refine ⟨_, saved, fun created spaces => ?_, fun source clock sizes => ?_⟩
  · exact ⟨_, loads (create_kind created) spaces, restores_withSource saved _ _⟩
  · obtain ⟨fresh, created, spaces⟩ := create_standard sound sizes source clock
    have loaded := loads (create_kind created) spaces
    refine ⟨_, bind_eq_ok.mpr ⟨_, read_saved kept updated, bind_eq_ok.mpr ⟨_, created, ?_⟩⟩,
      restores_withSource saved fresh.source fresh.clock⟩
    rw [loaded]
    rfl

/-- The sample after one step that ended its episode. -/
def schooled : Agent := (sample.perform (.learn [1] (.count 0) 0.5 [] true)).2

theorem save_restores_sample :
    ∃ text fresh b, schooled.save = .ok text ∧ schooled.episodes = .count 1 ∧
      create .qlearning (.count 1) (.count 1) [("gamma", .number 0.5)] (.ofSeed 7) (.moment 5) =
        .ok fresh ∧
      fresh.load text = (.ok (), b) ∧ Restores text schooled b := by
  have dated : (Instant.moment 0).Dated := ⟨0, rfl, by decide⟩
  have created : create .qlearning (.count 1) (.count 1) [] (.ofSeed 0) (.moment 0) = .ok sample :=
    rfl
  have reached : schooled.Reached := .call trivial (.create dated created)
  have plain : ∀ x ∈ schooled.numbers, x.isFinite = true ∧ x ≠ -0.0 := by decide +kernel
  have reread : ∀ x ∈ schooled.numbers, Number.reread x = x := by decide +kernel
  obtain ⟨text, saved, loads, _⟩ := save_restores reached rfl plain fun x inside finite _ => by
    rw [Number.parse?_text finite, reread x inside]
  obtain ⟨fresh, another⟩ : ∃ fresh, create .qlearning (.count 1) (.count 1)
    [("gamma", .number 0.5)] (.ofSeed 7) (.moment 5) = .ok fresh := ⟨_, rfl⟩
  have spaces : fresh.spaces = schooled.spaces := by
    cases another
    rfl
  obtain ⟨b, loaded, restores⟩ := loads another spaces
  exact ⟨text, fresh, b, saved, rfl, another, loaded, restores⟩

end Agent
end ProgramGym
