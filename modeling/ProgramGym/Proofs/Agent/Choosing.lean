import ProgramGym.Proofs.Agent.Reached
import ProgramGym.Proofs.Selecting

/-! Which action is chosen. Whatever the weights have become, infinite or no number at all, the
greedy choice, the uniform one and the one by probabilities give an index of a list that is as long
as there are actions. The uniform choice needs draws that are not below zero, and since draws come
one after the other, no call changes whether all draws to come lie in the unit interval. -/
namespace ProgramGym

namespace Source
variable {α : Type} [Scalar α]

/-- The source after so many draws. -/
def skip : Nat → Source α → Source α
  | 0, s => s
  | count + 1, s => skip count s.next.2

/-- Every draw to come is at least 0 and below 1. -/
def InUnit (s : Source Float) : Prop :=
  ∀ count, 0 ≤ (skip count s).next.1 ∧ (skip count s).next.1 < 1

theorem keeps_inUnit : Keeps InUnit next := fun _ unit count => unit (count + 1)

/-- The counter of a seeded source goes on, and every draw is a fraction of 2^32. -/
theorem inUnit_ofSeed (seed : UInt32) : InUnit (ofSeed seed) := by
  have seeded (count : Nat) : ∀ counter draws, ∃ c d,
      skip count (⟨.seeded counter, draws⟩ : Source Float) = ⟨.seeded c, d⟩ := by
    induction count with
    | zero => exact fun counter draws => ⟨counter, draws, rfl⟩
    | succ count ih =>
      intro counter draws
      rw [skip, next]
      exact ih (counter + increment) (draws + 1)
  intro count
  obtain ⟨counter, draws, skipped⟩ := seeded count seed 0
  have below : (mix (counter + increment)).toNat < counters := by
    have := (mix (counter + increment)).toNat_lt
    rw [counters]
    simpa using this
  have drawn : (next (⟨.seeded counter, draws⟩ : Source Float)).1 =
      Float.ofNat (mix (counter + increment)).toNat / Float.ofNat counters := by
    rw [next]
    rfl
  rw [ofSeed, skipped, drawn]
  exact fraction_unit below

end Source

namespace Linear
variable {α : Type} [Scalar α]

theorem argmaxFrom_lt {best index bound : Nat} {value : α} {values : List α}
    (found : best < bound) (within : index + values.length ≤ bound) :
    argmaxFrom best value index values < bound := by
  induction values generalizing best value index with
  | nil => exact found
  | cons x values ih =>
    rw [List.length_cons] at within
    unfold argmaxFrom
    split
    · exact ih (by omega) (by omega)
    · exact ih found (by omega)

/-- Also where no value can be compared with another. -/
theorem argmax_lt {values : List α} (pos : 0 < values.length) :
    argmax values < values.length := by
  cases values with
  | nil => exact absurd pos (Nat.lt_irrefl 0)
  | cons x values => exact argmaxFrom_lt pos (by simp [Nat.add_comm])

theorem sampleFrom_lt {draw cumulative : α} {index i : Nat} {probabilities : List α}
    (found : sampleFrom draw index cumulative probabilities = some i) :
    i < index + probabilities.length := by
  induction probabilities generalizing index cumulative with
  | nil => cases found
  | cons p probabilities ih =>
    rw [List.length_cons]
    unfold sampleFrom at found
    dsimp only at found
    split at found
    · cases found
      omega
    · have := ih found
      omega

theorem sample?_lt {probabilities : List α} (pos : 0 < probabilities.length) (draw : α) :
    (sample? probabilities draw).getD 0 < probabilities.length := by
  unfold sample?
  cases found : sampleFrom draw 0 (Scalar.nat 0) probabilities with
  | some i => simpa using sampleFrom_lt found
  | none =>
    dsimp only
    split
    · exact pos
    · exact Nat.sub_lt pos Nat.one_pos

/-- A uniform choice or the greedy one. -/
theorem index?_epsilonGreedy {values : List Float} (pos : 0 < values.length)
    (small : values.length ≤ Quantity.exactBound) (epsilon : Float) {s : Source Float}
    (unit : s.InUnit) :
    ∃ i < values.length, (epsilonGreedy values epsilon s).1.index? = some i := by
  have greedy : ∃ i < values.length,
      (Quantity.count (argmax values) : Quantity Float).index? = some i :=
    ⟨argmax values, argmax_lt pos, rfl⟩
  unfold epsilonGreedy
  split
  · dsimp only
    split
    · exact Source.index?_select pos small (unit 1).1
    · exact greedy
  · exact greedy

theorem length_softmax (logits : List α) (temperature : α) :
    (softmax logits temperature).length = logits.length := by
  simp [softmax]

end Linear

section
variable {spaces : Spaces} (features : List Float)

theorem Spaces.Fits.length_values {q : QLearner Float} (fits : spaces.Fits q.weights) :
    (q.values features).length = spaces.actions := by
  rw [QLearner.values, List.length_map, fits.rows]

theorem Spaces.Fits.length_probabilities {p : PolicyLearner Float} (fits : spaces.Fits p.weights) :
    (p.probabilities features).length = spaces.actions := by
  rw [PolicyLearner.probabilities, PolicyLearner.probabilitiesOf, Linear.length_softmax,
    List.length_map, fits.rows]

end

namespace Agent
variable {a : Agent}

/-- The choice is an action. -/
theorem index?_choose (shaped : a.Shaped) (unit : a.source.InUnit)
    (small : a.spaces.actions ≤ Quantity.exactBound) (features : List Float) (explore : Bool) :
    ∃ i < a.spaces.actions, (a.choose features explore).1.index? = some i := by
  have pos := shaped.actions
  have suits := shaped.learner
  unfold choose
  cases chosen : a.learner with
  | random => exact Source.index?_select pos small (unit 0).1
  | qlearning q =>
    rw [chosen] at suits
    obtain ⟨_, _, fits⟩ := suits
    rw [← fits.length_values features] at pos small ⊢
    unfold QLearner.act
    cases explore with
    | true => exact Linear.index?_epsilonGreedy pos small q.epsilon unit
    | false => exact ⟨_, Linear.argmax_lt pos, rfl⟩
  | policyGradient p =>
    rw [chosen] at suits
    obtain ⟨_, _, fits, _⟩ := suits
    rw [← fits.length_probabilities features] at pos ⊢
    unfold PolicyLearner.act
    cases explore with
    | true => exact ⟨_, Linear.sample?_lt pos _, rfl⟩
    | false => exact ⟨_, Linear.argmax_lt pos, rfl⟩

/-- What every single draw keeps of a source, every call keeps of the agent's. -/
theorem keeps_perform {property : Source Float → Prop}
    (step : Source.Keeps property Source.next) (holds : property a.source) (call : Call) :
    property (a.perform call).2.source := by
  cases call with
  | act features explore =>
    change property (a.act features explore).2.source
    rcases a.act_cases features explore with ⟨_, acted⟩ | ⟨_, _, acted⟩ <;> rw [acted]
    · exact (a.drawing_choose features explore).keeps step a.source holds
    · exact holds
  | startEpisode => rwa [sourceless_startEpisode.source]
  | learn features action reward next done => rwa [(sourceless_learn features action reward next done).source]
  | setEpsilon epsilon =>
    rwa [(sourceless_take (setLearnerEpsilon · epsilon) fun _ => rfl).source]
  | decayEpsilon => rwa [(sourceless_take decayLearnerEpsilon fun _ => rfl).source]
  | reset => exact (a.learner.drawing_restart a.spaces).keeps step a.source holds
  | load text => rwa [(sourceless_load text).source]
  | save | look | wait now => exact holds

/-- The first weights of a learner are drawn too. -/
theorem keeps_create {property : Source Float → Prop}
    (step : Source.Keeps property Source.next) {kind : AgentKind}
    {actions features : Quantity Float} {settings : Json.Members Json} {source : Source Float}
    {clock : Instant} (holds : property source)
    (created : create kind actions features settings source clock = .ok a) :
    property a.source := by
  obtain ⟨spaces, learner, rest, _, made, rfl⟩ := create_eq_ok created
  cases kind with
  | random =>
    cases made
    exact holds
  | qlearning =>
    obtain ⟨settings, _, made⟩ := bind_eq_ok.mp made
    obtain ⟨_, _, made⟩ := bind_eq_ok.mp made
    cases made
    exact (QLearner.drawing_start _ _ settings).keeps step source holds
  | policyGradient =>
    obtain ⟨settings, _, made⟩ := bind_eq_ok.mp made
    obtain ⟨_, _, made⟩ := bind_eq_ok.mp made
    cases made
    exact (PolicyLearner.drawing_start _ _ settings).keeps step source holds

/-- An agent for given spaces that can always choose. -/
structure Able (spaces : Spaces) (a : Agent) : Prop where
  spaces : a.spaces = spaces
  shaped : a.Shaped
  unit : a.source.InUnit

theorem able_create {kind : AgentKind} {spaces : Spaces} {settings : Json.Members Json}
    {source : Source Float} {clock : Instant} (unit : source.InUnit)
    (created : create kind (.count spaces.actions) (.count spaces.features) settings source clock =
      .ok a) : a.Able spaces where
  spaces := by
    obtain ⟨given, _, _, checked, _, rfl⟩ := create_eq_ok created
    obtain ⟨⟨actions, features⟩, _⟩ := check_eq_ok checked
    rw [Quantity.count.injEq] at actions features
    obtain ⟨_, _⟩ := spaces
    obtain ⟨_, _⟩ := given
    cases actions
    cases features
    rfl
  shaped := shaped_create created
  unit := keeps_create Source.keeps_inUnit unit created

theorem able_perform {spaces : Spaces} (able : a.Able spaces) (call : Call) :
    (a.perform call).2.Able spaces where
  spaces := (a.perform_alike call).1.trans able.spaces
  shaped := shaped_perform able.shaped call
  unit := keeps_perform Source.keeps_inUnit able.unit call

theorem able_after {spaces : Spaces} (able : a.Able spaces) (calls : List Call) :
    (a.after calls).Able spaces :=
  have step (a : Agent) (call : Call) (able : a.Able spaces) := able_perform able call
  keeps_after step able calls

/-- Features of the right length are answered with an action. -/
theorem act_valid {spaces : Spaces} (able : a.Able spaces)
    (small : spaces.actions ≤ Quantity.exactBound) {features : List Float}
    (fits : features.length = spaces.features) (explore : Bool) :
    ∃ action i, a.act features explore = (.ok action, (a.perform (.act features explore)).2) ∧
      action.indexBelow? spaces.actions = some i := by
  obtain ⟨rfl, shaped, unit⟩ := able
  obtain ⟨i, below, index⟩ := index?_choose shaped unit small features explore
  rcases a.act_cases features explore with ⟨_, acted⟩ | ⟨misfit, _⟩
  · refine ⟨(a.choose features explore).1, i, ?_, ?_⟩
    · rw [perform, acted]
    · simp only [Quantity.indexBelow?, index, if_pos below]
  · exact absurd fits misfit

end Agent
end ProgramGym
