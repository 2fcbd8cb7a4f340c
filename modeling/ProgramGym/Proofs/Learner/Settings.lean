import ProgramGym.Learner.Settings
import ProgramGym.Proofs.Checks

/-! Settings that have passed their checks. Every setting is in its range, whether it was given or
left to its default. Main statement: settings that were resolved once are resolved to themselves. -/
namespace ProgramGym

theorem Range.finite_of_contains {range : Range} {x : Float} (inside : range.contains x = true) :
    x.isFinite = true := by
  simp only [contains, Bool.and_eq_true] at inside
  exact inside.1.1

namespace LearnerSettings
open Json
variable {settings : Members Json} {name : String} {range : Range} {default x : Float}

theorem setting_contains (standard : range.contains default = true)
    (accepted : setting settings name range default = .ok x) : range.contains x = true := by
  unfold setting at accepted
  split at accepted
  · cases accepted
    exact standard
  · unfold require at accepted
    split at accepted
    · cases accepted
      assumption
    · cases accepted
  · cases accepted

theorem setting_given (given : settings.get? name = some (.number x))
    (inside : range.contains x = true) : setting settings name range default = .ok x := by
  simp [setting, given, require, inside, Except.map]

theorem requireKnown_all (agent : String) (known : List Text) :
    requireKnown agent known known = .ok () := by
  have none : known.filter (!known.contains ·) = [] :=
    List.filter_eq_nil_iff.mpr fun name inside => by simp [inside]
  rw [requireKnown, none]

end LearnerSettings

open LearnerSettings

/-- Settings as they are written, still to be checked. -/
def Json.Members.given (members : Json.Members Float) : Json.Members Json :=
  members.map fun (name, x) => (name, .number x)

namespace QSettings

def map {α β : Type} (f : α → β) (s : QSettings α) : QSettings β where
  learningRate := f s.learningRate
  gamma := f s.gamma
  epsilon := f s.epsilon
  epsilonDecay := f s.epsilonDecay
  epsilonMin := f s.epsilonMin
  tdErrorClip := f s.tdErrorClip
  weightInit := f s.weightInit

/-- All settings are in their ranges, and exploration starts at its floor or above. -/
structure Valid (s : QSettings Float) : Prop where
  learningRate : positive.contains s.learningRate = true
  gamma : positiveUnit.contains s.gamma = true
  epsilon : unit.contains s.epsilon = true
  epsilonDecay : positiveUnit.contains s.epsilonDecay = true
  epsilonMin : unit.contains s.epsilonMin = true
  tdErrorClip : positiveBound.contains s.tdErrorClip = true
  weightInit : nonNegative.contains s.weightInit = true
  floor : ¬ s.epsilonMin > s.epsilon

theorem valid_default : default.Valid := by
  constructor <;> decide +kernel

theorem resolve_nil : resolve [] = .ok default := by
  -- every check passes by computation, except the comparison of floor and start
  iterate 8 refine bind_eq_ok.mpr ⟨_, rfl, ?_⟩
  rw [if_neg valid_default.floor]
  rfl

theorem valid_of_resolve {given : Json.Members Json} {s : QSettings Float}
    (resolved : resolve given = .ok s) : s.Valid := by
  have standard := valid_default
  obtain ⟨_, _, resolved⟩ := bind_eq_ok.mp resolved
  obtain ⟨_, learningRate, resolved⟩ := bind_eq_ok.mp resolved
  obtain ⟨_, gamma, resolved⟩ := bind_eq_ok.mp resolved
  obtain ⟨_, epsilon, resolved⟩ := bind_eq_ok.mp resolved
  obtain ⟨_, epsilonDecay, resolved⟩ := bind_eq_ok.mp resolved
  obtain ⟨_, epsilonMin, resolved⟩ := bind_eq_ok.mp resolved
  obtain ⟨_, tdErrorClip, resolved⟩ := bind_eq_ok.mp resolved
  obtain ⟨_, weightInit, resolved⟩ := bind_eq_ok.mp resolved
  dsimp only at resolved
  split at resolved
  · cases resolved
  · next floor =>
    cases resolved
    exact
      { learningRate := setting_contains standard.learningRate learningRate
        gamma := setting_contains standard.gamma gamma
        epsilon := setting_contains standard.epsilon epsilon
        epsilonDecay := setting_contains standard.epsilonDecay epsilonDecay
        epsilonMin := setting_contains standard.epsilonMin epsilonMin
        tdErrorClip := setting_contains standard.tdErrorClip tdErrorClip
        weightInit := setting_contains standard.weightInit weightInit
        floor }

theorem resolve_given {s : QSettings Float} (valid : s.Valid) : resolve s.members.given = .ok s := by
  have known : requireKnown AgentKind.qlearning.name names s.members.given.names = .ok () :=
    requireKnown_all _ names
  have given {name : String} {range : Range} {standard x : Float}
      (member : s.members.given.get? name = some (.number x)) (inside : range.contains x = true) :
      setting s.members.given name range standard = .ok x := setting_given member inside
  refine bind_eq_ok.mpr ⟨_, known, ?_⟩
  refine bind_eq_ok.mpr ⟨_, given rfl valid.learningRate, ?_⟩
  refine bind_eq_ok.mpr ⟨_, given rfl valid.gamma, ?_⟩
  refine bind_eq_ok.mpr ⟨_, given rfl valid.epsilon, ?_⟩
  refine bind_eq_ok.mpr ⟨_, given rfl valid.epsilonDecay, ?_⟩
  refine bind_eq_ok.mpr ⟨_, given rfl valid.epsilonMin, ?_⟩
  refine bind_eq_ok.mpr ⟨_, given rfl valid.tdErrorClip, ?_⟩
  refine bind_eq_ok.mpr ⟨_, given rfl valid.weightInit, ?_⟩
  rw [if_neg valid.floor]
  rfl

end QSettings

namespace PolicySettings

def map {α β : Type} (f : α → β) (s : PolicySettings α) : PolicySettings β where
  learningRate := f s.learningRate
  gamma := f s.gamma
  baselineMomentum := f s.baselineMomentum
  gradientClip := f s.gradientClip
  weightInit := f s.weightInit

structure Valid (s : PolicySettings Float) : Prop where
  learningRate : positive.contains s.learningRate = true
  gamma : positiveUnit.contains s.gamma = true
  baselineMomentum : belowOne.contains s.baselineMomentum = true
  gradientClip : positiveBound.contains s.gradientClip = true
  weightInit : nonNegative.contains s.weightInit = true

theorem valid_default : default.Valid := by
  constructor <;> decide +kernel

theorem resolve_nil : resolve [] = .ok default := rfl

theorem valid_of_resolve {given : Json.Members Json} {s : PolicySettings Float}
    (resolved : resolve given = .ok s) : s.Valid := by
  have standard := valid_default
  obtain ⟨_, _, resolved⟩ := bind_eq_ok.mp resolved
  obtain ⟨_, learningRate, resolved⟩ := bind_eq_ok.mp resolved
  obtain ⟨_, gamma, resolved⟩ := bind_eq_ok.mp resolved
  obtain ⟨_, baselineMomentum, resolved⟩ := bind_eq_ok.mp resolved
  obtain ⟨_, gradientClip, resolved⟩ := bind_eq_ok.mp resolved
  obtain ⟨_, weightInit, resolved⟩ := bind_eq_ok.mp resolved
  cases resolved
  exact
    { learningRate := setting_contains standard.learningRate learningRate
      gamma := setting_contains standard.gamma gamma
      baselineMomentum := setting_contains standard.baselineMomentum baselineMomentum
      gradientClip := setting_contains standard.gradientClip gradientClip
      weightInit := setting_contains standard.weightInit weightInit }

theorem resolve_given {s : PolicySettings Float} (valid : s.Valid) :
    resolve s.members.given = .ok s := by
  have known : requireKnown AgentKind.policyGradient.name names s.members.given.names = .ok () :=
    requireKnown_all _ names
  have given {name : String} {range : Range} {standard x : Float}
      (member : s.members.given.get? name = some (.number x)) (inside : range.contains x = true) :
      setting s.members.given name range standard = .ok x := setting_given member inside
  refine bind_eq_ok.mpr ⟨_, known, ?_⟩
  refine bind_eq_ok.mpr ⟨_, given rfl valid.learningRate, ?_⟩
  refine bind_eq_ok.mpr ⟨_, given rfl valid.gamma, ?_⟩
  refine bind_eq_ok.mpr ⟨_, given rfl valid.baselineMomentum, ?_⟩
  refine bind_eq_ok.mpr ⟨_, given rfl valid.gradientClip, ?_⟩
  refine bind_eq_ok.mpr ⟨_, given rfl valid.weightInit, ?_⟩
  rfl

end PolicySettings
end ProgramGym
