import Mathlib
import ProgramGym.Proofs.Agent.Refusals
import ProgramGym.Proofs.Learner.Exploration

/-! Exploration and the counter of episodes over all that is asked of an agent. Settings, exploration
set by hand, its decay and new beginnings keep exploration in the unit interval, and counting goes
from one whole number to the next; a load checks neither of the two numbers it takes over. Main
statement: the two stay in range over a sequence of calls exactly if every state that is taken over
states them in range. -/
namespace ProgramGym

namespace Quantity

/-- A whole number that is not negative, the negative zero among them. -/
def Whole (q : Quantity Float) : Prop := ∃ n, q.index? = some n

theorem whole_count (n : Nat) : (count n).Whole := ⟨n, rfl⟩

theorem whole_of_toNat? {x : Float} {n : Nat} (whole : Number.toNat? x = some n) :
    (ofScalar x).Whole := ⟨n, index?_ofScalar whole⟩

/-- Where whole numbers lie too close to be told apart, one more than a whole number is one. -/
theorem whole_next {q : Quantity Float} (canonical : q.Canonical) (whole : q.Whole) :
    q.next.Whole := by
  obtain ⟨n, index⟩ := whole
  cases q with
  | foreign value => cases index
  | count k =>
    rw [next]
    split
    · exact whole_count (k + 1)
    · next large =>
      have kept : Number.toNat? (Float.ofNat k) = some k := by
        change ofScalar (Float.ofNat k) = count k at canonical
        unfold ofScalar at canonical
        split at canonical
        · next read =>
          cases canonical
          exact read
        · cases canonical
      obtain ⟨m, sum⟩ := Binary64.toNat?_add_one kept (Nat.le_of_not_lt large)
      exact whole_of_toNat? sum
  | other x =>
    -- only a zero is an index without being a count
    simp only [index?, Option.ite_none_right_eq_some] at index
    have same : (x == Float.ofNat 0) = true := index.1
    exact whole_of_toNat? (Binary64.toNat?_zero_add_one same)

end Quantity

open Binary64

namespace SavedAgent

/-- Exploration is left out, to start where the settings say, or is stated in range. -/
def Explores (s : SavedAgent) : Prop := ∀ e, s.state.get? "epsilon" = some e → Probability e

def Counts (s : SavedAgent) : Prop := (Quantity.ofScalar s.episodes).Whole

end SavedAgent

namespace Agent
variable {a : Agent} {text : String} {saved : SavedAgent}

def Explores (a : Agent) : Prop := ∀ e, a.epsilon? = some e → Probability e

def Counting (a : Agent) : Prop := a.episodes.Whole

/-- The text is a state that the agent takes over. -/
def Takes (a : Agent) (text : String) (saved : SavedAgent) : Prop :=
  SavedAgent.read text = .ok saved ∧ (a.load text).1 = .ok ()

theorem takes_of_load (accepted : (a.load text).1 = .ok ()) :
    ∃ saved, a.Takes text saved ∧ a.readOwn text = .ok saved := by
  cases readable : a.readOwn text with
  | error fault => simp [load, readable] at accepted
  | ok saved => exact ⟨saved, ⟨readOwn_eq_ok readable, accepted⟩, rfl⟩

/-- A state is taken over as it stands. Exploration that it leaves out starts as its settings say. -/
theorem load_taken (taken : a.Takes text saved) :
    (a.load text).2.episodes = .ofScalar saved.episodes ∧
    ∀ q, a.learner = .qlearning q → ∃ settings,
      QSettings.resolve saved.settingsGiven = .ok settings ∧
      (a.load text).2.learner = .qlearning
        ⟨settings, saved.weights, (saved.state.get? "epsilon").getD settings.epsilon⟩ := by
  obtain ⟨read, accepted⟩ := taken
  obtain ⟨other, ⟨readToo, _⟩, readable⟩ := takes_of_load accepted
  cases read.symm.trans readToo
  unfold load at accepted ⊢
  rw [readable] at accepted ⊢
  cases learner : a.learner with
  | random =>
    refine ⟨rfl, fun q other => ?_⟩
    cases other
  | policyGradient p =>
    simp only [learner, loadPolicy] at accepted ⊢
    cases resolved : PolicySettings.resolve saved.settingsGiven with
    | error fault => simp [resolved] at accepted
    | ok settings =>
      cases fits : a.fitsWeights saved.weights with
      | false => simp [resolved, fits] at accepted
      | true =>
        refine ⟨rfl, fun q other => ?_⟩
        cases other
  | qlearning q =>
    simp only [learner, loadQ] at accepted ⊢
    cases resolved : QSettings.resolve saved.settingsGiven with
    | error fault => simp [resolved] at accepted
    | ok settings =>
      cases fits : a.fitsWeights saved.weights with
      | false => simp [resolved, fits] at accepted
      | true => exact ⟨rfl, fun _ _ => ⟨settings, rfl, rfl⟩⟩

/-- A refused load may change the settings, but neither exploration nor the counter. -/
theorem load_untaken (refused : (a.load text).1 ≠ .ok ()) :
    (a.load text).2.episodes = a.episodes ∧ (a.load text).2.epsilon? = a.epsilon? := by
  rcases loaded : a.load text with ⟨fault | _, b⟩
  · obtain ⟨⟨l, agrees, rfl⟩, _⟩ := load_refused loaded
    refine ⟨rfl, ?_⟩
    unfold epsilon?
    cases learner : a.learner with
    | random =>
      rw [learner] at agrees
      rw [show l = .random from agrees]
    | qlearning q | policyGradient p =>
      rw [learner] at agrees
      obtain ⟨settings, rfl⟩ := agrees
      rfl
  · rw [loaded] at refused
    exact absurd rfl refused

theorem epsilon?_kind (a : Agent) : a.kind = .qlearning ↔ ∃ e, a.epsilon? = some e := by
  unfold kind epsilon?
  cases a.learner <;> simp [Learner.kind]

/-- Where an agent explores, its settings have passed their checks. -/
theorem Shaped.valid (shaped : a.Shaped) {q : QLearner Float} (learner : a.learner = .qlearning q) :
    q.settings.Valid := by
  have suits := shaped.learner
  rw [learner] at suits
  exact suits.2.1

theorem explores_of_learner {q : QLearner Float} (learner : a.learner = .qlearning q)
    (probability : Probability q.epsilon) : a.Explores := by
  intro e its
  simp only [epsilon?, learner, Option.some.injEq] at its
  exact its ▸ probability

theorem Explores.probability (explores : a.Explores) {q : QLearner Float}
    (learner : a.learner = .qlearning q) : Probability q.epsilon :=
  explores q.epsilon (by simp [epsilon?, learner])

theorem learner_of_kind (learns : a.kind = .qlearning) : ∃ q, a.learner = .qlearning q := by
  unfold kind at learns
  cases learner : a.learner with
  | qlearning q => exact ⟨q, rfl⟩
  | random | policyGradient p => simp [learner, Learner.kind] at learns

/-- A state that is taken over decides for itself. -/
theorem explores_load (learns : a.kind = .qlearning) (explores : a.Explores) (text : String) :
    (a.load text).2.Explores ↔ ∀ saved, a.Takes text saved → saved.Explores := by
  obtain ⟨q, learner⟩ := learner_of_kind learns
  constructor
  · intro after saved taken e stated
    obtain ⟨settings, _, loaded⟩ := (load_taken taken).2 q learner
    rw [stated, Option.getD_some] at loaded
    have probability := after.probability loaded
    exact probability
  · intro stated
    by_cases accepted : (a.load text).1 = .ok ()
    · obtain ⟨saved, taken, _⟩ := takes_of_load accepted
      obtain ⟨settings, resolved, loaded⟩ := (load_taken taken).2 q learner
      refine explores_of_learner loaded ?_
      cases given : saved.state.get? "epsilon" with
      | none => exact Range.probability (QSettings.valid_of_resolve resolved).epsilon
      | some x => exact stated saved taken x given
    · intro e its
      exact explores e ((load_untaken accepted).2 ▸ its)

/-- A call that takes no state over, or one with the property. -/
def Brings (a : Agent) (property : SavedAgent → Prop) : Call → Prop
  | .load text => ∀ saved, a.Takes text saved → property saved
  | _ => True

theorem brings_fresh {property : SavedAgent → Prop} {call : Call} (fresh : call.loads = false) :
    a.Brings property call := by
  cases call with
  | load text => cases fresh
  | _ => trivial

/-- What does not load keeps exploration in range. -/
theorem explores_fresh (shaped : a.Shaped) (learns : a.kind = .qlearning)
    (explores : a.Explores) {call : Call} (fresh : call.loads = false) :
    (a.perform call).2.Explores := by
  obtain ⟨q, learner⟩ := learner_of_kind learns
  have valid := shaped.valid learner
  have probability := explores.probability learner
  cases call with
  | load text => cases fresh
  | act features explore =>
    change (a.act features explore).2.Explores
    rw [act_source]
    exact explores
  | startEpisode => simpa [perform, startEpisode, learner] using explores
  | learn features action reward next done =>
    change (a.learn features action reward next done).2.Explores
    unfold learn
    cases a.admits features action next done with
    | error fault => exact explores
    | ok i =>
      simp only [learner]
      have learned : Probability (q.learn features i reward next done).epsilon := by
        rw [QLearner.learn_epsilon]
        cases done with
        | true => exact QLearner.probability_decay valid probability
        | false => exact probability
      cases done <;> exact explores_of_learner rfl learned
  | setEpsilon epsilon =>
    change (a.take (setLearnerEpsilon a.learner epsilon)).2.Explores
    cases set : setLearnerEpsilon a.learner epsilon with
    | error fault => exact explores
    | ok l =>
      have inside := (setLearnerEpsilon_accepted_iff.mp ⟨l, set⟩).2
      obtain ⟨_, _, rfl⟩ := setLearnerEpsilon_eq_ok set
      exact explores_of_learner rfl (Range.probability inside)
  | decayEpsilon =>
    simp only [perform, learner, decayLearnerEpsilon, take]
    exact explores_of_learner rfl (QLearner.probability_decay valid probability)
  | reset =>
    simp only [perform, reset, learner, Learner.restart]
    exact explores_of_learner rfl (Range.probability valid.epsilon)
  | save | look | wait now => exact explores

theorem counting_fresh (shaped : a.Shaped) (counting : a.Counting) {call : Call}
    (fresh : call.loads = false) : (a.perform call).2.Counting := by
  cases call with
  | load text => cases fresh
  | learn features action reward next done =>
    change (a.learn features action reward next done).2.Counting
    rcases a.learn_cases features action reward next done with ⟨_, taken⟩ | ⟨_, _, _, taken⟩ <;>
      rw [taken]
    · exact counting
    · cases done with
      | true => exact Quantity.whole_next shaped.episodes counting
      | false => exact counting
  | act features explore =>
    change (a.act features explore).2.Counting
    rw [act_source]
    exact counting
  | startEpisode =>
    have kept : a.startEpisode.episodes = a.episodes := a.startEpisode_counts.episodes
    change a.startEpisode.episodes.Whole
    exact kept ▸ counting
  | setEpsilon epsilon =>
    change (a.take (setLearnerEpsilon a.learner epsilon)).2.Counting
    cases setLearnerEpsilon a.learner epsilon <;> exact counting
  | decayEpsilon =>
    change (a.take (decayLearnerEpsilon a.learner)).2.Counting
    cases decayLearnerEpsilon a.learner <;> exact counting
  | reset => exact Quantity.whole_count 0
  | save | look | wait now => exact counting

theorem explores_perform (shaped : a.Shaped) (learns : a.kind = .qlearning)
    (explores : a.Explores) (call : Call) :
    (a.perform call).2.Explores ↔ a.Brings SavedAgent.Explores call := by
  cases loads : call.loads with
  | false => exact iff_of_true (explores_fresh shaped learns explores loads) (brings_fresh loads)
  | true =>
    cases call with
    | load text => exact explores_load learns explores text
    | _ => cases loads

/-- The counter is what a state says that is taken over, and else counts on. -/
theorem counting_perform (shaped : a.Shaped) (counting : a.Counting) (call : Call) :
    (a.perform call).2.Counting ↔ a.Brings SavedAgent.Counts call := by
  cases loads : call.loads with
  | false => exact iff_of_true (counting_fresh shaped counting loads) (brings_fresh loads)
  | true =>
    cases call with
    | load text =>
      constructor
      · intro after saved taken
        have stated : (a.load text).2.episodes.Whole := after
        rwa [(load_taken taken).1] at stated
      · intro stated
        change (a.load text).2.episodes.Whole
        by_cases accepted : (a.load text).1 = .ok ()
        · obtain ⟨saved, taken, _⟩ := takes_of_load accepted
          exact (load_taken taken).1 ▸ stated saved taken
        · exact (load_untaken accepted).1 ▸ counting
    | _ => cases loads

theorem after_concat (a : Agent) (past : List Call) (call : Call) :
    a.after (past ++ [call]) = ((a.after past).perform call).2 := by
  simp [after]

/-- What each call keeps under a condition of its own holds throughout a sequence exactly if every
call meets the condition. -/
theorem throughout_iff (kept property : Agent → Prop) (condition : Agent → Call → Prop)
    (keeps : ∀ a call, kept a → kept (a.perform call).2)
    (step : ∀ a call, kept a → property a → (property (a.perform call).2 ↔ condition a call))
    (base : kept a) (start : property a) (calls : List Call) :
    (∀ past, past <+: calls → property (a.after past)) ↔
      ∀ past call, past ++ [call] <+: calls → condition (a.after past) call := by
  have always (past : List Call) : kept (a.after past) := keeps_after keeps base past
  constructor
  · intro throughout past call within
    have before := throughout past ((List.prefix_append past [call]).trans within)
    refine (step _ call (always past) before).mp ?_
    rw [← after_concat]
    exact throughout _ within
  · intro met past
    -- the last call of the prefix is the one that may break the property
    induction past using List.reverseRecOn with
    | nil => exact fun _ => start
    | append_singleton past call ih =>
      intro within
      have before := ih ((List.prefix_append past [call]).trans within)
      rw [after_concat]
      exact (step _ call (always past) before).mpr (met past call within)

theorem brings_load (property : SavedAgent → Prop) {made : Agent} {calls : List Call} :
    (∀ past call, past ++ [call] <+: calls → (made.after past).Brings property call) ↔
      ∀ past text saved, past ++ [.load text] <+: calls → (made.after past).Takes text saved →
        property saved := by
  constructor
  · exact fun all past text saved within taken => all past _ within saved taken
  · intro all past call within
    cases call with
    | load text => exact fun saved => all past text saved within
    | _ => trivial

/-- A new agent explores as its settings say. -/
theorem create_explores {actions features : Quantity Float} {settings : Json.Members Json}
    {source : Source Float} {clock : Instant} {made : Agent}
    (created : create .qlearning actions features settings source clock = .ok made) :
    ∃ q, made.learner = .qlearning q ∧ q.epsilon = q.settings.epsilon := by
  obtain ⟨spaces, learner, rest, _, built, rfl⟩ := create_eq_ok created
  obtain ⟨given, _, built⟩ := bind_eq_ok.mp built
  obtain ⟨_, _, built⟩ := bind_eq_ok.mp built
  cases built
  exact ⟨_, rfl, rfl⟩

/-- Exploration and the counter of episodes of an agent that was made and asked for anything, after
each call of a sequence. What an agent explores with is a probability and what it has counted is a
whole number that is not negative exactly as long as the states that it takes over say so; no other
call puts one of them out of range. -/
theorem counters_in_range {kind : AgentKind} {actions features : Quantity Float}
    {settings : Json.Members Json} {source : Source Float} {clock : Instant} {made : Agent}
    (created : create kind actions features settings source clock = .ok made)
    (calls : List Call) :
    (kind = .qlearning →
      ((∀ past, past <+: calls → ∃ e, (made.after past).epsilon? = some e ∧ 0 ≤ e ∧ e ≤ 1) ↔
        ∀ past text saved, past ++ [.load text] <+: calls → (made.after past).Takes text saved →
          ∀ e, saved.state.get? "epsilon" = some e → 0 ≤ e ∧ e ≤ 1)) ∧
    ((∀ past, past <+: calls → ∃ n, (made.after past).episodes.index? = some n) ↔
      ∀ past text saved, past ++ [.load text] <+: calls → (made.after past).Takes text saved →
        ∃ n, (Quantity.ofScalar saved.episodes).index? = some n) := by
  have shaped := shaped_create created
  have keeps (a : Agent) (call : Call) (shaped : a.Shaped) := shaped_perform shaped call
  constructor
  · intro learns
    have its : made.kind = .qlearning := (create_kind created).trans learns
    have valued (past : List Call) : (∃ e, (made.after past).epsilon? = some e ∧ 0 ≤ e ∧ e ≤ 1) ↔
        (made.after past).Explores := by
      have kept : (made.after past).kind = .qlearning := (made.after_alike past).2.trans its
      obtain ⟨e, value⟩ := (epsilon?_kind _).mp kept
      constructor
      · rintro ⟨x, same, probability⟩ y other
        cases same.symm.trans other
        exact probability
      · exact fun explores => ⟨e, value, explores e value⟩
    have start : made.Explores := by
      obtain ⟨q, learner, same⟩ := create_explores (learns ▸ created)
      exact explores_of_learner learner (same ▸ Range.probability (shaped.valid learner).epsilon)
    have keeps (a : Agent) (call : Call) (kept : a.Shaped ∧ a.kind = .qlearning) :=
      And.intro (keeps a call kept.1) ((a.perform_alike call).2.trans kept.2)
    have explores := throughout_iff _ Explores (·.Brings SavedAgent.Explores) keeps
      (fun a call kept explores => explores_perform kept.1 kept.2 explores call)
      ⟨shaped, its⟩ start calls
    simp only [valued]
    exact explores.trans (brings_load SavedAgent.Explores)
  · have start : made.Counting := by
      obtain ⟨_, _, _, _, _, rfl⟩ := create_eq_ok created
      exact Quantity.whole_count 0
    have counting := throughout_iff Shaped Counting (·.Brings SavedAgent.Counts) keeps
      (fun a call shaped counting => counting_perform shaped counting call) shaped start calls
    exact counting.trans (brings_load SavedAgent.Counts)

/-- A state for `sample` with what it states of exploration and of its counter. -/
def stored (state episodes : String) : String :=
  "\x7b\"type\":\"qlearning\",\"actionSpaceSize\":1,\"featureDimension\":1," ++
  "\"config\":\x7b\x7d,\"weights\":[[0]],\"state\":" ++ state ++
  ",\"episodesTrained\":" ++ episodes ++ ",\"lastUpdated\":\"\"\x7d"

/-- A state that says nothing of exploration. -/
def modest : String := stored "\x7b\x7d" "7"

/-- Exploration above one, and episodes below none. -/
def stray : String := stored "\x7b\"epsilon\":5\x7d" "-1.5"

theorem counters_in_range_sample :
    let calls := [.setEpsilon 0.5, .learn [1] (.count 0) 1 [] true, .load modest, .decayEpsilon]
    create .qlearning (.count 1) (.count 1) [] (.ofSeed 0) (.moment 0) = .ok sample ∧
    (∀ past, past <+: calls → ∃ e, (sample.after past).epsilon? = some e ∧ 0 ≤ e ∧ e ≤ 1) ∧
    ∀ past, past <+: calls → ∃ n, (sample.after past).episodes.index? = some n := by
  intro calls
  have created : create .qlearning (.count 1) (.count 1) [] (.ofSeed 0) (.moment 0) = .ok sample :=
    rfl
  obtain ⟨explores, counts⟩ := counters_in_range created calls
  have read : (SavedAgent.read modest).toOption.all (fun saved =>
      (saved.state.get? "epsilon").isNone &&
        (Quantity.ofScalar saved.episodes).index? == some 7) = true := by decide +kernel
  have states {past : List Call} {text : String} {saved : SavedAgent}
      (within : past ++ [.load text] <+: calls) (taken : (sample.after past).Takes text saved) :
      saved.state.get? "epsilon" = none ∧ (Quantity.ofScalar saved.episodes).index? = some 7 := by
    have asked : Call.load text ∈ calls := within.subset (by simp)
    simp only [calls, List.mem_cons, List.not_mem_nil, reduceCtorEq, false_or, or_false,
      Call.load.injEq] at asked
    rw [← asked, taken.1] at read
    simpa [Except.toOption] using read
  refine ⟨created, (explores rfl).mpr ?_, counts.mpr ?_⟩
  · intro past text saved within taken e stated
    cases (states within taken).1.symm.trans stated
  · intro past text saved within taken
    exact ⟨7, (states within taken).2⟩

/-- A load takes over a probability of five and less than no episodes. -/
theorem load_leaves_range :
    create .qlearning (.count 1) (.count 1) [] (.ofSeed 0) (.moment 0) = .ok sample ∧
    (sample.load stray).1 = .ok () ∧
    (∃ e, (sample.load stray).2.epsilon? = some e ∧ ¬ (0 ≤ e ∧ e ≤ 1)) ∧
    (sample.load stray).2.episodes.index? = none := by
  have loaded : ((sample.load stray).1.toOption.isSome &&
      (sample.load stray).2.epsilon?.any (fun e => !decide (e ≤ 1)) &&
      (sample.load stray).2.episodes.index?.isNone) = true := by decide +kernel
  simp only [Bool.and_eq_true, Option.any_eq_true, Bool.not_eq_true', decide_eq_false_iff_not,
    Option.isNone_iff_eq_none] at loaded
  obtain ⟨⟨accepted, e, explores, large⟩, episodes⟩ := loaded
  refine ⟨rfl, ?_, ⟨e, explores, fun unit => large unit.2⟩, episodes⟩
  cases answered : (sample.load stray).1 with
  | error fault => simp [answered, Except.toOption] at accepted
  | ok u => rfl

end Agent
end ProgramGym
