import ProgramGym.Proofs.Agent.Counters
import ProgramGym.Proofs.Agent.Episodes
import ProgramGym.Proofs.Learner.Baseline

/-! The baseline of an agent with a policy. What the agent is told reaches its learner unless it is
refused, and an episode is counted whenever one comes to its end. Main statement: from its making or
from a reset on, over exact numbers, the baseline lies between the least and the greatest of the
undiscounted returns of the episodes that it has been told to their ends; steps that were refused or
cut off have no part in it. -/
namespace ProgramGym.Agent
open PolicyLearner

/-- The call by which an agent is told something. -/
def tell : Signal Report → Call
  | .start => .startEpisode
  | .step r last => r.call last

/-- What an agent for given spaces hears of it. A step is refused if its features do not fit or its
action is none of the agent's. -/
def heard? (spaces : Spaces) : Signal Report → Option (Signal (PolicyStep Float))
  | .start => some .start
  | .step r last =>
    if r.features.length = spaces.features then
      (r.action.indexBelow? spaces.actions).map fun i => .step ⟨r.features, i, r.reward⟩ last
    else none

section
variable {a : Agent} {p : PolicyLearner Float}

theorem admits_eq_ok_iff (own : a.learner = .policyGradient p) {features next : List Float}
    {action : Quantity Float} {done : Bool} {i : Nat} :
    a.admits features action next done = .ok i ↔
      action.indexBelow? a.spaces.actions = some i ∧ features.length = a.spaces.features := by
  simp [admits, own, bind_eq_ok, requireAction_eq_ok_iff, requireFeatures_eq_ok_iff, pure, Except.pure]

theorem perform_heard (own : a.learner = .policyGradient p) {signal : Signal Report}
    {s : Signal (PolicyStep Float)} (heard : heard? a.spaces signal = some s) :
    a.perform (tell signal) =
      (.done (.ok ()), a.withLearner (.policyGradient (p.hear s)) s.isLast) := by
  cases signal with
  | start =>
    cases heard
    exact congrArg (Prod.mk _) (startEpisode_policyGradient own)
  | step r last =>
    rw [heard?] at heard
    split at heard
    · next fits =>
      obtain ⟨i, named, rfl⟩ := Option.map_eq_some_iff.mp heard
      have admitted : a.admits r.features r.action r.next last = .ok i :=
        (admits_eq_ok_iff own).mpr ⟨named, fits⟩
      simp only [tell, Report.call, perform, learn, admitted, own]
      rfl
    · cases heard

theorem perform_unheard (own : a.learner = .policyGradient p) {signal : Signal Report}
    (unheard : heard? a.spaces signal = none) :
    ∃ fault, a.perform (tell signal) = (.done (.error fault), a) := by
  cases signal with
  | start => cases unheard
  | step r last =>
    cases admitted : a.admits r.features r.action r.next last with
    | error fault => exact ⟨fault, by simp only [tell, Report.call, perform, learn, admitted]⟩
    | ok i =>
      obtain ⟨named, fits⟩ := (admits_eq_ok_iff own).mp admitted
      simp [heard?, named, fits] at unheard

/-- A call is accepted exactly if the agent hears what it is told by it. -/
theorem accepted_iff_heard (own : a.learner = .policyGradient p) (signal : Signal Report) :
    (a.perform (tell signal)).1 = .done (.ok ()) ↔ (heard? a.spaces signal).isSome := by
  cases heard : heard? a.spaces signal with
  | none =>
    obtain ⟨fault, refused⟩ := perform_unheard own heard
    simp [refused]
  | some s => simp [perform_heard own heard]

/-- What an agent has become that began with a learner and has heard these signals. -/
structure Heard (a : Agent) (p : PolicyLearner Float) (signals : List (Signal (PolicyStep Float)))
    (b : Agent) : Prop where
  spaces : b.spaces = a.spaces
  learner : b.learner = .policyGradient (p.follow signals)
  episodes : b.episodes = Quantity.next^[(Signal.episodes signals).length] a.episodes

theorem Heard.signal {b : Agent} {signals : List (Signal (PolicyStep Float))}
    (heard : Heard a p signals b) (s : Signal (PolicyStep Float)) :
    Heard a p (signals ++ [s])
      (b.withLearner (.policyGradient ((p.follow signals).hear s)) s.isLast) := by
  have followed : p.follow (signals ++ [s]) = (p.follow signals).hear s := List.foldl_concat ..
  rw [← followed]
  cases ends : s.isLast with
  | false =>
    refine ⟨heard.spaces, rfl, ?_⟩
    rw [Signal.episodes_going _ ends]
    exact heard.episodes
  | true =>
    obtain ⟨step, rfl⟩ := Signal.exists_of_isLast ends
    refine ⟨heard.spaces, rfl, ?_⟩
    rw [Signal.episodes_last, List.length_append, List.length_singleton,
      Function.iterate_succ_apply', ← heard.episodes]
    rfl

theorem Heard.perform {b : Agent} {signals : List (Signal (PolicyStep Float))}
    (heard : Heard a p signals b) (signal : Signal Report) :
    Heard a p (signals ++ (heard? a.spaces signal).toList) (b.perform (tell signal)).2 := by
  cases told : heard? a.spaces signal with
  | none =>
    obtain ⟨fault, refused⟩ := perform_unheard heard.learner (heard.spaces ▸ told)
    rw [refused, Option.toList_none, List.append_nil]
    exact heard
  | some s =>
    rw [perform_heard heard.learner (heard.spaces ▸ told)]
    exact heard.signal s

theorem heard_after (own : a.learner = .policyGradient p) (told : List (Signal Report)) :
    Heard a p (told.filterMap (heard? a.spaces)) (a.after (told.map tell)) := by
  induction told using List.reverseRecOn with
  | nil => exact ⟨rfl, own, rfl⟩
  | append_singleton told signal ih =>
    have latest : [signal].filterMap (heard? a.spaces) = (heard? a.spaces signal).toList := by
      cases told : heard? a.spaces signal <;> simp [told]
    rw [List.map_append, List.map_singleton, after_concat, List.filterMap_append, latest]
    exact ih.perform signal

/-- An agent with a policy that has not been told anything. -/
def Untold (a : Agent) (p : PolicyLearner Float) : Prop :=
  a.learner = .policyGradient p ∧ p.buffer = [] ∧ p.baselineSet = false ∧ a.episodes = .count 0

end

section
variable {actions size : Quantity Float} {settings : Json.Members Json} {source : Source Float}
  {clock : Instant} {made a : Agent}

theorem untold_create
    (created : create .policyGradient actions size settings source clock = .ok made) :
    ∃ p, Untold made p := by
  obtain ⟨spaces, learner, rest, _, built, rfl⟩ := create_eq_ok created
  obtain ⟨_, _, built⟩ := bind_eq_ok.mp built
  obtain ⟨_, _, built⟩ := bind_eq_ok.mp built
  cases built
  exact ⟨_, rfl, rfl, rfl, rfl⟩

theorem untold_reset (learns : a.kind = .policyGradient) : ∃ p, Untold a.reset p := by
  obtain ⟨spaces, source, clock, episodes, updated, learner⟩ := a
  cases learner with
  | random | qlearning q => cases learns
  | policyGradient p => exact ⟨_, rfl, rfl, rfl, rfl⟩

/-- The baseline of an agent with a policy that was made, or reset whatever had been asked of it.
From then on it hears exactly what it accepts of what it is told; its learner follows that, and every
episode that comes to its end is counted. Taken at exact numbers, for rewards that are real numbers,
the same definitions give a baseline that is a weighted average of the undiscounted returns of the
episodes told to their ends, and so lies between the least and the greatest of them. -/
theorem baseline_within_returns
    (created : create .policyGradient actions size settings source clock = .ok made)
    (fresh : a = made ∨ ∃ past, a = (made.after past).reset) :
    ∃ (p : PolicyLearner Float) (m : ℝ), a.learner = .policyGradient p ∧
      0 ≤ m ∧ m < 1 ∧ Exact.ofFloat p.settings.baselineMomentum = .real m ∧
      (∀ told : List (Signal Report),
        let b := a.after (told.map tell)
        let heard := told.filterMap (heard? a.spaces)
        (∀ signal, (b.perform (tell signal)).1 = .done (.ok ()) ↔
          (heard? a.spaces signal).isSome) ∧
        b.learner = .policyGradient (p.follow heard) ∧
        b.episodes = Quantity.next^[(Signal.episodes heard).length] (.count 0) ∧
        ((∀ step last, .step step last ∈ heard → step.reward.isFinite = true) →
          ∃ rewards, Pays (heard.map (Signal.map (PolicyStep.map Exact.ofFloat))) rewards)) ∧
      ∀ (signals : List (Signal (PolicyStep Exact))) (rewards : List (Signal ℝ)),
        Pays signals rewards → Signal.episodes rewards ≠ [] →
        let returns := (Signal.episodes rewards).map List.sum
        ∃ least greatest : ℝ,
          ((p.map Exact.ofFloat).follow signals).baseline = .real (smoothed m returns) ∧
          IsLeast {g | g ∈ returns} least ∧ IsGreatest {g | g ∈ returns} greatest ∧
          least ≤ smoothed m returns ∧ smoothed m returns ≤ greatest := by
  have untold : ∃ p, Untold a p := by
    rcases fresh with rfl | ⟨past, rfl⟩
    · exact untold_create created
    · exact untold_reset (((made.after_alike past).2).trans (create_kind created))
  have shaped : a.Shaped := by
    rcases fresh with rfl | ⟨past, rfl⟩
    · exact shaped_create created
    · exact shaped_perform (shaped_after created past) .reset
  obtain ⟨p, own, idle, unset, counter⟩ := untold
  have suits := shaped.learner
  rw [own] at suits
  obtain ⟨m, nonneg, below, momentum⟩ := suits.2.1.momentum
  refine ⟨p, m, own, nonneg, below, momentum, fun told => ?_, fun signals rewards pays any => ?_⟩
  · have heard := heard_after own told
    refine ⟨fun signal => ?_, heard.learner, ?_, exists_pays⟩
    · have accepted := accepted_iff_heard heard.learner signal
      rwa [heard.spaces] at accepted
    · rw [← counter]
      exact heard.episodes
  · intro returns
    have paid : returns ≠ [] := by simpa [returns] using any
    have nonempty : returns.toFinset.Nonempty := (List.toFinset_nonempty_iff returns).mpr paid
    have members : {g | g ∈ returns} = returns.toFinset := (List.coe_toFinset returns).symm
    have least := Finset.isLeast_min' returns.toFinset nonempty
    have greatest := Finset.isGreatest_max' returns.toFinset nonempty
    rw [← members] at least greatest
    obtain ⟨above, under⟩ := smoothed_mem_Icc nonneg below.le paid fun g inside =>
      ⟨least.2 inside, greatest.2 inside⟩
    have nothing : (p.map Exact.ofFloat).buffer = [] := by simp [PolicyLearner.map, idle]
    exact ⟨_, _, baseline_exact nothing unset momentum pays any, least, greatest, above, under⟩

end

/-- A cut off step pays 7, a refused one 100. The episodes that end pay 2 and 3, and then 1. -/
theorem baseline_within_returns_pupil :
    let r (reward : Float) : Report := ⟨[1], .count 0, reward, []⟩
    let told : List (Signal Report) :=
      [.step (r 7) false, .start, .step (r 2) false, .step ⟨[1, 1], .count 0, 100, []⟩ true,
        .step (r 3) true, .step (r 1) true]
    let rewards : List (Signal ℝ) :=
      [.step 7 false, .start, .step 2 false, .step 3 true, .step 1 true]
    let signals := rewards.map (Signal.map fun reward => ⟨[Exact.real 1], 0, .real reward⟩)
    let a := (pupil.after [(r 9).call true]).reset
    create .policyGradient (.count 1) (.count 1) [("weightInit", .number 0)] (.ofSeed 0) (.moment 0) =
      .ok pupil ∧
    ∃ (p : PolicyLearner Float) (b : ℝ), a.learner = .policyGradient p ∧
      (a.after (told.map tell)).episodes = .count 2 ∧
      ((p.map Exact.ofFloat).follow signals).baseline = .real b ∧ 1 ≤ b ∧ b ≤ 5 := by
  intro r told rewards signals a
  have created : create .policyGradient (.count 1) (.count 1) [("weightInit", .number 0)] (.ofSeed 0)
    (.moment 0) = .ok pupil := rfl
  obtain ⟨p, m, own, _, _, _, hears, averages⟩ := baseline_within_returns created (.inr ⟨_, rfl⟩)
  obtain ⟨_, _, counted, _⟩ := hears told
  obtain ⟨least, greatest, baseline, ⟨small, _⟩, ⟨large, _⟩, above, below⟩ :=
    averages signals rewards rfl nofun
  have between : ∀ g ∈ (Signal.episodes rewards).map List.sum, 1 ≤ g ∧ g ≤ 5 := by
    have ended : Signal.episodes rewards = [[2, 3], [1]] := rfl
    rw [ended]
    norm_num
  have two : (Signal.episodes (told.filterMap (heard? a.spaces))).length = 2 := by
    have spaces : a.spaces = ⟨1, 1⟩ := rfl
    rw [spaces]
    rfl
  rw [two] at counted
  exact ⟨created, p, _, own, counted, baseline, (between _ small).1.trans above,
    below.trans (between _ large).2⟩

end ProgramGym.Agent
