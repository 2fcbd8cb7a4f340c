import ProgramGym.Proofs.Agent.Loading
import ProgramGym.Proofs.Agent.Reached

/-! Settings that agents of a kind do not know, given to a new agent or found in a saved state. Each
learner checks the names of its settings before it looks at their values, whichever way they come.
The uniform chooser, which knows no settings, is as strict when it is made; but it does not look at
the settings of a state that it loads. Main statement: this is the only way in which a foreign
setting gets past an agent. -/
namespace ProgramGym

/-- The names of the settings that agents of a kind know. -/
def AgentKind.settingNames : AgentKind → List Text
  | random => []
  | qlearning => QSettings.names
  | policyGradient => PolicySettings.names

/-- The complaint about all those names that agents of a kind do not know, in order. -/
def AgentKind.unknownAmong (kind : AgentKind) (names : List Text) : Misconfiguration :=
  .unknownSettings kind.name ((names.filter (!kind.settingNames.contains ·)).map Text.toString)

/-- A well-formed saved state of a kind, for given spaces. -/
structure StateOf (kind : AgentKind) (spaces : Spaces) (text : String) (saved : SavedAgent) :
    Prop where
  readable : SavedAgent.read text = .ok saved
  kind : saved.kind = kind
  actions : (saved.actions == Float.ofNat spaces.actions) = true
  features : (saved.features == Float.ofNat spaces.features) = true

theorem SavedAgent.names_settingsGiven (saved : SavedAgent) :
    saved.settingsGiven.names = saved.settings.names := by
  simp [settingsGiven, Json.Members.names]

section
variable {kind : AgentKind} {name : Text}

/-- One foreign name is enough to be refused, and all of them are named. -/
theorem requireKnown_foreign (kind : AgentKind) {names : List Text} (inside : name ∈ names)
    (foreign : name ∉ kind.settingNames) :
    LearnerSettings.requireKnown kind.name kind.settingNames names =
      .error (.configuration (kind.unknownAmong names)) := by
  have found : name ∈ names.filter (!kind.settingNames.contains ·) :=
    List.mem_filter.mpr ⟨inside, by simpa using foreign⟩
  unfold LearnerSettings.requireKnown AgentKind.unknownAmong
  cases unknown : names.filter (!kind.settingNames.contains ·) with
  | nil =>
    rw [unknown] at found
    cases found
  | cons first rest => rfl

variable {settings : Json.Members Json} (inside : name ∈ settings.names)
include inside

theorem QSettings.resolve_foreign (foreign : name ∉ QSettings.names) :
    QSettings.resolve settings =
      .error (.configuration (AgentKind.qlearning.unknownAmong settings.names)) := by
  have refused := requireKnown_foreign .qlearning inside foreign
  change LearnerSettings.requireKnown _ QSettings.names _ = _ at refused
  rw [resolve, refused]
  rfl

theorem PolicySettings.resolve_foreign (foreign : name ∉ PolicySettings.names) :
    PolicySettings.resolve settings =
      .error (.configuration (AgentKind.policyGradient.unknownAmong settings.names)) := by
  have refused := requireKnown_foreign .policyGradient inside foreign
  change LearnerSettings.requireKnown _ PolicySettings.names _ = _ at refused
  rw [resolve, refused]
  rfl

end

theorem Settings.positive_error {name : String} {q : Quantity Float} {fault : Fault}
    (refused : positive name q = .error fault) : ∃ cause, fault = .configuration cause := by
  unfold positive at refused
  split at refused
  · cases refused
  · cases refused
    exact ⟨_, rfl⟩

theorem Spaces.check_error {actions features : Quantity Float} {fault : Fault}
    (refused : check actions features = .error fault) : ∃ cause, fault = .configuration cause := by
  unfold check at refused
  cases first : Settings.positive "actionSpaceSize" actions with
  | error early =>
    obtain ⟨cause, rfl⟩ := Settings.positive_error first
    rw [first] at refused
    cases refused
    exact ⟨cause, rfl⟩
  | ok some =>
    cases second : Settings.positive "featureDimension" features with
    | error late =>
      obtain ⟨cause, rfl⟩ := Settings.positive_error second
      rw [first, second] at refused
      cases refused
      exact ⟨cause, rfl⟩
    | ok wide =>
      rw [first, second] at refused
      cases refused

namespace Agent
variable {kind : AgentKind} {name : Text} {actions features : Quantity Float} {spaces : Spaces}

/-- A learner is not made with a foreign setting. The uniform chooser has refused it by then. -/
theorem createLearner_foreign {settings : Json.Members Json} (learner : kind ≠ .random)
    (inside : name ∈ settings.names) (foreign : name ∉ kind.settingNames)
    (spaces : Spaces) (source : Source Float) :
    Learner.create kind spaces settings source =
      .error (.configuration (kind.unknownAmong settings.names)) := by
  cases kind with
  | random => exact absurd rfl learner
  | qlearning =>
    unfold Learner.create
    rw [QSettings.resolve_foreign inside foreign]
    rfl
  | policyGradient =>
    unfold Learner.create
    rw [PolicySettings.resolve_foreign inside foreign]
    rfl

/-- The uniform chooser looks at the settings first, a learner at the spaces. -/
theorem create_foreign {settings : Json.Members Json} (inside : name ∈ settings.names)
    (foreign : name ∉ kind.settingNames) (source : Source Float) (clock : Instant) :
    ∃ cause, create kind actions features settings source clock = .error (.configuration cause) ∧
      (kind = .random ∨ (Spaces.check actions features).isOk = true →
        cause = kind.unknownAmong settings.names) := by
  unfold create
  by_cases chooser : kind = .random
  · subst chooser
    have refused := requireKnown_foreign .random inside foreign
    change LearnerSettings.requireKnown _ [] _ = _ at refused
    refine ⟨_, ?_, fun _ => rfl⟩
    rw [beq_self_eq_true, if_pos rfl, refused]
    rfl
  · rw [if_neg (by simpa using chooser)]
    cases checked : Spaces.check actions features with
    | error fault =>
      obtain ⟨cause, rfl⟩ := Spaces.check_error checked
      refine ⟨cause, rfl, ?_⟩
      rintro (uniform | accepted)
      · exact absurd uniform chooser
      · cases accepted
    | ok spaces =>
      refine ⟨_, ?_, fun _ => rfl⟩
      simp only [createLearner_foreign chooser inside foreign, bind, Except.bind]

section
variable {a : Agent} {text : String} {saved : SavedAgent}

theorem readOwn_state (state : StateOf a.kind a.spaces text saved) :
    a.readOwn text = .ok saved := by
  obtain ⟨readable, kind, actions, features⟩ := state
  refine bind_eq_ok.mpr ⟨saved, readable, ?_⟩
  simp [kind, bne, actions, features]
  rfl

/-- Only the uniform chooser takes a state with a foreign setting, and then its counters alone. -/
theorem load_foreign (state : StateOf a.kind a.spaces text saved)
    (inside : name ∈ saved.settings.names) (foreign : name ∉ a.kind.settingNames) :
    a.load text =
      if a.kind = .random then (.ok (), a.withCounters saved)
      else (.error (.configuration (a.kind.unknownAmong saved.settings.names)), a) := by
  rw [← saved.names_settingsGiven] at inside ⊢
  rw [load, readOwn_state state]
  cases learner : a.learner with
  | random =>
    have kind : a.kind = .random := congrArg Learner.kind learner
    rw [if_pos kind]
  | qlearning q =>
    have kind : a.kind = .qlearning := congrArg Learner.kind learner
    rw [kind] at foreign ⊢
    simp [loadQ, QSettings.resolve_foreign inside foreign]
  | policyGradient p =>
    have kind : a.kind = .policyGradient := congrArg Learner.kind learner
    rw [kind] at foreign ⊢
    simp [loadPolicy, PolicySettings.resolve_foreign inside foreign]

end

/-- With the standard settings a learner comes about unless its vectors would be too long. -/
theorem createLearner_plain (learner : kind ≠ .random) (spaces : Spaces) (source : Source Float) :
    (spaces.features < Learner.vectorLimit ∧
      ∃ made, Learner.create kind spaces [] source = .ok made) ∨
    (¬ spaces.features < Learner.vectorLimit ∧
      Learner.create kind spaces [] source = .error .badLength) := by
  unfold Learner.create
  by_cases room : spaces.features < Learner.vectorLimit
  · refine .inl ⟨room, ?_⟩
    cases kind with
    | random => exact absurd rfl learner
    | qlearning =>
      rw [QSettings.resolve_nil, if_pos room]
      exact ⟨_, rfl⟩
    | policyGradient =>
      rw [PolicySettings.resolve_nil, if_pos room]
      exact ⟨_, rfl⟩
  · refine .inr ⟨room, ?_⟩
    cases kind with
    | random => exact absurd rfl learner
    | qlearning =>
      rw [QSettings.resolve_nil, if_neg room]
      rfl
    | policyGradient =>
      rw [PolicySettings.resolve_nil, if_neg room]
      rfl

theorem create_of_check (kind : AgentKind) (checked : Spaces.check actions features = .ok spaces)
    (source : Source Float) (clock : Instant) :
    create kind actions features [] source clock = (Learner.create kind spaces [] source).map
      fun (learner, source) => ⟨spaces, source, clock, .count 0, clock, learner⟩ := by
  unfold create
  rw [checked]
  simp only [bind, Except.bind]
  rcases Learner.create kind spaces [] source with fault | ⟨learner, rest⟩ <;> split <;> rfl

/-- The agent that a state with a foreign setting describes is a uniform chooser, if any. -/
theorem ofState_foreign {text : String} {saved : SavedAgent}
    (state : StateOf kind spaces text saved) (inside : name ∈ saved.settings.names)
    (foreign : name ∉ kind.settingNames) (checked : Spaces.check actions features = .ok spaces)
    (source : Source Float) (clock : Instant) :
    ofState text actions features source clock =
      if kind = .random then
        .ok ⟨spaces, source, clock, .ofScalar saved.episodes, .ofText saved.updated, .random⟩
      else if spaces.features < Learner.vectorLimit then
        .error (.configuration (kind.unknownAmong saved.settings.names))
      else .error .badLength := by
  have made := create_of_check kind checked source clock
  have loaded (a : Agent) (its : a.kind = kind) (given : a.spaces = spaces) :=
    load_foreign (its ▸ given ▸ state : StateOf a.kind a.spaces text saved) inside (its ▸ foreign)
  unfold ofState
  simp only [state.readable, state.kind, bind, Except.bind, made]
  by_cases chooser : kind = .random
  · subst chooser
    rw [if_pos rfl]
    simp only [Learner.create, pure, Except.pure, Except.map]
    rw [loaded _ rfl rfl]
    rfl
  rw [if_neg chooser]
  rcases createLearner_plain chooser spaces source with
    ⟨room, ⟨learner, rest⟩, created⟩ | ⟨narrow, refused⟩
  · obtain ⟨fresh, built⟩ : ∃ fresh, fresh = Agent.mk spaces rest clock (.count 0) clock learner :=
      ⟨_, rfl⟩
    have its : fresh.kind = kind := built ▸ (sound_create created).2
    have given : fresh.spaces = spaces := built ▸ rfl
    rw [if_pos room]
    simp only [created, Except.map, ← built]
    rw [loaded fresh its given, its, if_neg chooser]
    rfl
  · rw [if_neg narrow, refused]
    rfl

/-- What becomes of a setting that agents of a kind do not know. Nobody makes an agent with it. No
learner takes it from a state of its kind and spaces, and stays as it was; nor does such a state
make a learner, however long its vectors would be. The uniform chooser takes the state and leaves
the settings in it alone. -/
theorem foreign_settings (foreign : name ∉ kind.settingNames) :
    (∀ {settings : Json.Members Json}, name ∈ settings.names →
      ∀ (actions features : Quantity Float) (source : Source Float) (clock : Instant), ∃ cause,
        create kind actions features settings source clock = .error (.configuration cause) ∧
        (kind = .random ∨ (Spaces.check actions features).isOk = true →
          cause = kind.unknownAmong settings.names)) ∧
    ∀ {spaces : Spaces} {text : String} {saved : SavedAgent},
      StateOf kind spaces text saved → name ∈ saved.settings.names →
      (∀ a : Agent, a.kind = kind → a.spaces = spaces → a.load text =
        if kind = .random then (.ok (), a.withCounters saved)
        else (.error (.configuration (kind.unknownAmong saved.settings.names)), a)) ∧
      ∀ {actions features : Quantity Float}, Spaces.check actions features = .ok spaces →
        ∀ (source : Source Float) (clock : Instant), ofState text actions features source clock =
          if kind = .random then
            .ok ⟨spaces, source, clock, .ofScalar saved.episodes, .ofText saved.updated, .random⟩
          else if spaces.features < Learner.vectorLimit then
            .error (.configuration (kind.unknownAmong saved.settings.names))
          else .error .badLength := by
  constructor
  · intro settings inside actions features source clock
    exact create_foreign inside foreign source clock
  · intro spaces text saved state inside
    constructor
    · intro a its given
      subst its given
      exact load_foreign state inside foreign
    · intro actions features checked source clock
      exact ofState_foreign state inside foreign checked source clock

/-- A setting that only policy gradient knows. -/
def momentum : Text := "baselineMomentum"

/-- A state for one action and one feature with that setting. -/
def borrowing (kind : AgentKind) (weights : String) : String :=
  "\x7b\"type\":\"" ++ kind.name ++ "\",\"actionSpaceSize\":1,\"featureDimension\":1," ++
  "\"config\":\x7b\"baselineMomentum\":0.9\x7d,\"weights\":" ++ weights ++
  ",\"state\":\x7b\x7d,\"episodesTrained\":3,\"lastUpdated\":\"2024-01-01T00:00:00.000Z\"\x7d"

theorem borrowing_state (kind : AgentKind) (weights : String)
    (read : (SavedAgent.read (borrowing kind weights)).toOption.any (fun saved =>
      saved.kind == kind && saved.actions == Float.ofNat 1 && saved.features == Float.ofNat 1 &&
        saved.settings.names == [momentum]) = true) :
    ∃ saved, StateOf kind ⟨1, 1⟩ (borrowing kind weights) saved ∧
      saved.settings.names = [momentum] := by
  cases readable : SavedAgent.read (borrowing kind weights) with
  | error fault => simp [readable, Except.toOption] at read
  | ok saved =>
    simp only [readable, Except.toOption, Option.any_some, Bool.and_eq_true] at read
    obtain ⟨⟨⟨its, actions⟩, features⟩, names⟩ := read
    exact ⟨saved, ⟨readable, beq_iff_eq.mp its, actions, features⟩, beq_iff_eq.mp names⟩

theorem foreign_settings_sample :
    momentum ∉ AgentKind.qlearning.settingNames ∧
    create .qlearning (.count 1) (.count 1) [(momentum, .number 0.9)] (.ofSeed 0) (.moment 0) =
      .error (.configuration (AgentKind.qlearning.unknownAmong [momentum])) ∧
    sample.load (borrowing .qlearning "[[0]]") =
      (.error (.configuration (AgentKind.qlearning.unknownAmong [momentum])), sample) ∧
    ofState (borrowing .qlearning "[[0]]") (.count 1) (.count 1) (.ofSeed 0) (.moment 0) =
      .error (.configuration (AgentKind.qlearning.unknownAmong [momentum])) ∧
    (AgentKind.qlearning.unknownAmong [momentum]).message =
      "Unknown qlearning config key(s): baselineMomentum" := by
  have foreign : momentum ∉ AgentKind.qlearning.settingNames := by decide
  obtain ⟨fresh, states⟩ := foreign_settings foreign
  obtain ⟨saved, state, names⟩ := borrowing_state .qlearning "[[0]]" (by decide +kernel)
  obtain ⟨loads, describes⟩ := states state (by simp [names])
  rw [names] at loads describes
  refine ⟨foreign, ?_, loads sample rfl rfl, ?_, by decide +kernel⟩
  · have given : momentum ∈ Json.Members.names [(momentum, Json.number 0.9)] := List.mem_cons_self
    obtain ⟨cause, refused, named⟩ := fresh given (.count 1) (.count 1) (.ofSeed 0) (.moment 0)
    rw [refused, named (.inr rfl)]
    rfl
  · exact describes rfl (.ofSeed 0) (.moment 0)

/-- The uniform chooser knows no setting, but takes a state that has one, and is made from one. -/
theorem chooser_takes_foreign_setting :
    create .random (.count 1) (.count 1) [] (.ofSeed 0) (.moment 0) = .ok chooser ∧
    momentum ∉ AgentKind.random.settingNames ∧
    ∃ saved b, StateOf .random ⟨1, 1⟩ (borrowing .random "[]") saved ∧
      momentum ∈ saved.settings.names ∧
      chooser.load (borrowing .random "[]") = (.ok (), chooser.withCounters saved) ∧
      ofState (borrowing .random "[]") (.count 1) (.count 1) (.ofSeed 0) (.moment 0) = .ok b := by
  have foreign : momentum ∉ AgentKind.random.settingNames := by decide
  obtain ⟨saved, state, names⟩ := borrowing_state .random "[]" (by decide +kernel)
  have inside : momentum ∈ saved.settings.names := by simp [names]
  have one : Spaces.check (.count 1) (.count 1) = .ok ⟨1, 1⟩ := rfl
  have loaded : chooser.load _ = _ := load_foreign state inside foreign
  have described := ofState_foreign state inside foreign one (.ofSeed 0) (.moment 0)
  rw [if_pos rfl] at described
  exact ⟨rfl, foreign, saved, _, state, inside, loaded, described⟩

end Agent
end ProgramGym
