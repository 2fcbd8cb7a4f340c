import ProgramGym.Agent

/-! Loads that are refused. Everything but the settings of the learner stays as it was, and the
settings are taken over only by a state whose sole flaw is the shape of its weights. Main
statement: the exact texts whose refusal changes an agent. -/
namespace ProgramGym

namespace Learner

/-- The learner with settings taken over as a state gives them, unless they are refused. -/
def adopt? (settings : Json.Members Json) : Learner → Option Learner
  | random => none
  | qlearning q => (QSettings.resolve settings).toOption.map fun settings =>
    qlearning { q with settings }
  | policyGradient p => (PolicySettings.resolve settings).toOption.map fun settings =>
    policyGradient { p with settings }

/-- The second learner is the first one with settings of its own: weights, exploration or baseline,
and the steps kept of an episode are those of the first. -/
def AgreesButSettings : Learner → Learner → Prop
  | random, l => l = random
  | qlearning q, l => ∃ settings, l = qlearning { q with settings }
  | policyGradient p, l => ∃ settings, l = policyGradient { p with settings }

theorem agreesButSettings_refl (l : Learner) : l.AgreesButSettings l := by
  cases l with
  | random => rfl
  | qlearning q => exact ⟨q.settings, rfl⟩
  | policyGradient p => exact ⟨p.settings, rfl⟩

theorem agreesButSettings_adopt {l m : Learner} {settings : Json.Members Json}
    (adopted : l.adopt? settings = some m) : l.AgreesButSettings m := by
  cases l with
  | random => cases adopted
  | qlearning q | policyGradient p =>
    obtain ⟨settings, _, rfl⟩ := Option.map_eq_some_iff.mp adopted
    exact ⟨settings, rfl⟩

end Learner

namespace Agent

/-- The text is a state of the agent's kind and shape with settings that pass, which make its
learner the given one, but with weights of another shape. -/
def Misshapen (a : Agent) (text : String) (l : Learner) : Prop :=
  ∃ saved, a.readOwn text = .ok saved ∧ a.learner.adopt? saved.settingsGiven = some l ∧
    a.fitsWeights saved.weights = false

theorem misshapen_iff {a : Agent} {text : String} {saved : SavedAgent} {l : Learner}
    (readable : a.readOwn text = .ok saved) :
    a.Misshapen text l ↔
      a.learner.adopt? saved.settingsGiven = some l ∧ a.fitsWeights saved.weights = false := by
  constructor
  · rintro ⟨other, read, adopted, misfit⟩
    cases readable.symm.trans read
    exact ⟨adopted, misfit⟩
  · rintro ⟨adopted, misfit⟩
    exact ⟨saved, readable, adopted, misfit⟩

theorem misshapen_unique {a : Agent} {text : String} {l m : Learner}
    (first : a.Misshapen text l) (second : a.Misshapen text m) : l = m := by
  obtain ⟨saved, readable, adopted, _⟩ := first
  have adoptedToo := ((misshapen_iff readable).mp second).1
  exact Option.some.inj (adopted.symm.trans adoptedToo)

/-- Only the uniform chooser loads a state without taking settings over. -/
theorem load_unadopted {a : Agent} {text : String} {saved : SavedAgent}
    (readable : a.readOwn text = .ok saved)
    (refused : a.learner.adopt? saved.settingsGiven = none) :
    (a.load text).1 = .ok () ∨ ∃ fault, a.load text = (.error fault, a) := by
  rw [load, readable]
  cases learner : a.learner with
  | random => exact .inl rfl
  | qlearning q =>
    rw [learner] at refused
    cases resolved : QSettings.resolve saved.settingsGiven with
    | error fault => exact .inr ⟨fault, by simp [loadQ, resolved]⟩
    | ok settings => simp [Learner.adopt?, resolved, Except.toOption] at refused
  | policyGradient p =>
    rw [learner] at refused
    cases resolved : PolicySettings.resolve saved.settingsGiven with
    | error fault => exact .inr ⟨fault, by simp [loadPolicy, resolved]⟩
    | ok settings => simp [Learner.adopt?, resolved, Except.toOption] at refused

/-- Once the settings are taken over, the shape of the weights decides. -/
theorem load_adopted {a : Agent} {text : String} {saved : SavedAgent} {l : Learner}
    (readable : a.readOwn text = .ok saved)
    (adopted : a.learner.adopt? saved.settingsGiven = some l) :
    (a.fitsWeights saved.weights = true → (a.load text).1 = .ok ()) ∧
    (a.fitsWeights saved.weights = false →
      a.load text = (.error a.misshapen, { a with learner := l })) := by
  rw [load, readable]
  cases learner : a.learner with
  | random => rw [learner] at adopted; cases adopted
  | qlearning q =>
    rw [learner] at adopted
    cases resolved : QSettings.resolve saved.settingsGiven with
    | error fault => simp [Learner.adopt?, resolved, Except.toOption] at adopted
    | ok settings =>
      obtain rfl : _ = l := by simpa [Learner.adopt?, resolved, Except.toOption] using adopted
      exact ⟨fun fits => by simp [loadQ, resolved, fits], fun misfit => by
        simp [loadQ, resolved, misfit]⟩
  | policyGradient p =>
    rw [learner] at adopted
    cases resolved : PolicySettings.resolve saved.settingsGiven with
    | error fault => simp [Learner.adopt?, resolved, Except.toOption] at adopted
    | ok settings =>
      obtain rfl : _ = l := by simpa [Learner.adopt?, resolved, Except.toOption] using adopted
      exact ⟨fun fits => by simp [loadPolicy, resolved, fits], fun misfit => by
        simp [loadPolicy, resolved, misfit]⟩

theorem load_misshapen {a : Agent} {text : String} {l : Learner}
    (misshapen : a.Misshapen text l) :
    a.load text = (.error a.misshapen, { a with learner := l }) := by
  obtain ⟨saved, readable, adopted, misfit⟩ := misshapen
  exact (load_adopted readable adopted).2 misfit

/-- A load succeeds, or changes nothing, or takes settings over for a state that it then refuses. -/
theorem load_cases (a : Agent) (text : String) :
    (∃ l, a.Misshapen text l ∧ a.load text = (.error a.misshapen, { a with learner := l })) ∨
    (∀ l, ¬ a.Misshapen text l) ∧
      ((a.load text).1 = .ok () ∨ ∃ fault, a.load text = (.error fault, a)) := by
  cases readable : a.readOwn text with
  | error fault =>
    refine .inr ⟨?_, .inr ⟨fault, by rw [load, readable]⟩⟩
    rintro l ⟨saved, read, _⟩
    cases readable.symm.trans read
  | ok saved =>
    cases adopted : a.learner.adopt? saved.settingsGiven with
    | none =>
      refine .inr ⟨fun l misshapen => ?_, load_unadopted readable adopted⟩
      cases adopted.symm.trans ((misshapen_iff readable).mp misshapen).1
    | some l =>
      cases fits : a.fitsWeights saved.weights with
      | true =>
        refine .inr ⟨fun m misshapen => ?_, .inl ((load_adopted readable adopted).1 fits)⟩
        cases fits.symm.trans ((misshapen_iff readable).mp misshapen).2
      | false =>
        have misshapen := (misshapen_iff readable).mpr ⟨adopted, fits⟩
        exact .inl ⟨l, misshapen, load_misshapen misshapen⟩

/-- What a refused load leaves behind, for every agent and text. A state that suits the agent but
for the shape of its weights is refused for that and its settings stay; all else about the agent
is as before. So the agent is unchanged exactly when there is no such state, or it has the
agent's own settings. -/
theorem load_refused {a b : Agent} {text : String} {fault : Fault}
    (refused : a.load text = (.error fault, b)) :
    (∃ l, a.learner.AgreesButSettings l ∧ b = { a with learner := l }) ∧
    (∀ l, a.Misshapen text l → fault = a.misshapen ∧ b = { a with learner := l }) ∧
    (b = a ↔ ∀ l, a.Misshapen text l → l = a.learner) := by
  rcases load_cases a text with ⟨l, misshapen, loaded⟩ | ⟨suited, loaded | ⟨_, loaded⟩⟩
  · cases loaded.symm.trans refused
    refine ⟨?_, ?_, ?_, ?_⟩
    · obtain ⟨_, _, adopted, _⟩ := misshapen
      exact ⟨l, Learner.agreesButSettings_adopt adopted, rfl⟩
    · intro m misshapenToo
      exact ⟨rfl, misshapen_unique misshapen misshapenToo ▸ rfl⟩
    · intro unchanged m misshapenToo
      exact (misshapen_unique misshapenToo misshapen).trans (congrArg Agent.learner unchanged)
    · intro own
      rw [own l misshapen]
  · simp [refused] at loaded
  · cases loaded.symm.trans refused
    exact ⟨⟨a.learner, Learner.agreesButSettings_refl a.learner, rfl⟩,
      fun l misshapen => absurd misshapen (suited l),
      fun _ l misshapen => absurd misshapen (suited l), fun _ => rfl⟩

/-- An untrained learner for one action and one feature. -/
def sample : Agent where
  spaces := ⟨1, 1⟩
  source := .ofSeed 0
  clock := .moment 0
  episodes := .count 0
  updated := .moment 0
  learner := .qlearning ⟨.default, [[0]], 1⟩

/-- A uniform chooser for one action and one feature. -/
def chooser : Agent := { sample with learner := .random }

/-- A state for `sample` with a discount of its own and no weights at all. -/
def weightless : String :=
  "\x7b\"type\":\"qlearning\",\"actionSpaceSize\":1,\"featureDimension\":1," ++
  "\"config\":\x7b\"gamma\":0.5\x7d,\"weights\":[],\"state\":\x7b\x7d," ++
  "\"episodesTrained\":3,\"lastUpdated\":\"\"\x7d"

/-- Whether a learner has the discount that Q-learning has by default. -/
def hasDefaultDiscount (l : Learner) : Bool :=
  (l.settings.get? "gamma").any (· == QSettings.default.gamma)

theorem weightless_misshapen :
    ∃ l, sample.Misshapen weightless l ∧ hasDefaultDiscount l = false := by
  have read : (sample.readOwn weightless).toOption.any (fun saved =>
      !sample.fitsWeights saved.weights &&
        (sample.learner.adopt? saved.settingsGiven).any (!hasDefaultDiscount ·)) = true := by
    decide +kernel
  cases readable : sample.readOwn weightless with
  | error fault => simp [readable, Except.toOption] at read
  | ok saved =>
    simp only [readable, Except.toOption, Option.any_some, Bool.and_eq_true, Bool.not_eq_true',
      Option.any_eq_true] at read
    obtain ⟨misfit, l, adopted, changed⟩ := read
    exact ⟨l, (misshapen_iff readable).mpr ⟨adopted, misfit⟩, changed⟩

theorem load_refused_sample :
    ∃ fault b, sample.load weightless = (.error fault, b) ∧
      ∃ l, sample.Misshapen weightless l ∧ b = { sample with learner := l } := by
  obtain ⟨l, misshapen, _⟩ := weightless_misshapen
  have loaded := load_misshapen misshapen
  exact ⟨_, _, loaded, l, misshapen, ((load_refused loaded).2.1 l misshapen).2⟩

/-- A refused state changes the discount that the learner goes on with. -/
theorem refused_load_changes_discount :
    create .qlearning (.count 1) (.count 1) [] (.ofSeed 0) (.moment 0) = .ok sample ∧
    ∃ fault b, sample.load weightless = (.error fault, b) ∧ b ≠ sample ∧
      hasDefaultDiscount sample.learner = true ∧ hasDefaultDiscount b.learner = false := by
  obtain ⟨l, misshapen, changed⟩ := weightless_misshapen
  have default : hasDefaultDiscount sample.learner = true := by decide +kernel
  refine ⟨rfl, _, _, load_misshapen misshapen, fun same => ?_, default, changed⟩
  have own : l = sample.learner := congrArg Agent.learner same
  cases default.symm.trans (own ▸ changed)

end Agent
end ProgramGym
