import ProgramGym.Proofs.Agent.Updating
import ProgramGym.Proofs.Learner.Episodes

/-! What an agent with a policy makes of the steps it is told. Main statement: whatever has been
asked of it before, the steps of an episode that is cut short leave no trace once another one is
started, and those of a whole episode are learned from together, under the policy from before. -/
namespace ProgramGym.Agent
open PolicyLearner

/-- What an agent is told of a step, whether or not it ends the episode. -/
structure Report where
  features : List Float
  action : Quantity Float
  reward : Float
  next : List Float

namespace Report

def call (r : Report) (done : Bool) : Call := .learn r.features r.action r.reward r.next done

/-- What is kept of a step, given how many actions there are. -/
def step (actions : Nat) (r : Report) : PolicyStep Float :=
  ⟨r.features, (r.action.indexBelow? actions).getD 0, r.reward⟩

end Report

def Accepts (a : Agent) (calls : List Call) : Prop :=
  ∀ reply ∈ a.answers calls, reply = .done (.ok ())

section
variable {a : Agent} {p : PolicyLearner Float}

theorem accepts_cons (call : Call) (calls : List Call) : a.Accepts (call :: calls) ↔
    (a.perform call).1 = .done (.ok ()) ∧ (a.perform call).2.Accepts calls :=
  List.forall_mem_cons

theorem after_cons (call : Call) (calls : List Call) :
    a.after (call :: calls) = (a.perform call).2.after calls := rfl

theorem after_append (first second : List Call) :
    a.after (first ++ second) = (a.after first).after second := List.foldl_append

theorem accepts_append (first second : List Call) : a.Accepts (first ++ second) ↔
    a.Accepts first ∧ (a.after first).Accepts second := by
  induction first generalizing a with
  | nil => simp [Accepts, answers, after]
  | cons call first ih => rw [List.cons_append, accepts_cons, accepts_cons, ih, after_cons, and_assoc]

theorem perform_report (own : a.learner = .policyGradient p) {r : Report} {done : Bool}
    (accepted : (a.perform (r.call done)).1 = .done (.ok ())) :
    r.action.indexBelow? a.spaces.actions = some (r.step a.spaces.actions).action ∧
    (a.perform (r.call done)).2 =
      a.withLearner (.policyGradient (p.learn (r.step a.spaces.actions) done)) done := by
  have taken : (a.learn r.features r.action r.reward r.next done).1 = .ok () :=
    Reply.done.inj accepted
  obtain ⟨i, admitted⟩ := admits_of_learn taken
  have learns : a.kind ≠ .random := by simp [kind, own, Learner.kind]
  have named := index_of_admits learns admitted
  refine ⟨by rw [named, Report.step, named]; rfl, ?_⟩
  have step : r.step a.spaces.actions = ⟨r.features, i, r.reward⟩ := by rw [Report.step, named]; rfl
  change (a.learn r.features r.action r.reward r.next done).2 = _
  rw [learn, admitted, own, step]

/-- Steps within an episode are kept and change nothing else. -/
theorem after_reports (own : a.learner = .policyGradient p) {reports : List Report}
    (accepted : a.Accepts (reports.map (·.call false))) :
    (∀ r ∈ reports,
      r.action.indexBelow? a.spaces.actions = some (r.step a.spaces.actions).action) ∧
    a.after (reports.map (·.call false)) =
      { a with learner := .policyGradient (p.keep (reports.map (·.step a.spaces.actions))) } := by
  induction reports generalizing a p with
  | nil => exact ⟨nofun, by rw [List.map_nil, List.map_nil, keep_eq]; simp [after, ← own]⟩
  | cons r reports ih =>
    obtain ⟨first, rest⟩ := (accepts_cons _ _).mp accepted
    obtain ⟨named, taken⟩ := perform_report own first
    rw [taken] at rest
    obtain ⟨others, kept⟩ := ih rfl rest
    refine ⟨List.forall_mem_cons.mpr ⟨named, others⟩, ?_⟩
    rw [List.map_cons, after_cons, taken, kept]
    rfl

theorem startEpisode_policyGradient (own : a.learner = .policyGradient p) :
    a.startEpisode = { a with learner := .policyGradient p.startEpisode } := by
  rw [startEpisode, own]

/-- The last step of an episode makes the learner learn from all of them, and is counted. -/
theorem after_episode (own : a.learner = .policyGradient p) {reports : List Report} {last : Report}
    (accepted : a.startEpisode.Accepts (reports.map (·.call false) ++ [last.call true])) :
    (∀ r ∈ reports ++ [last],
      r.action.indexBelow? a.spaces.actions = some (r.step a.spaces.actions).action) ∧
    a.startEpisode.after (reports.map (·.call false) ++ [last.call true]) =
      { a with
        learner := .policyGradient
          (p.study (reports.map (·.step a.spaces.actions)) (last.step a.spaces.actions))
        episodes := a.episodes.next
        updated := a.clock } := by
  rw [startEpisode_policyGradient own] at accepted ⊢
  obtain ⟨within, ends⟩ := (accepts_append _ _).mp accepted
  obtain ⟨named, kept⟩ := after_reports rfl within
  rw [kept, accepts_cons] at ends
  obtain ⟨index, taken⟩ := perform_report rfl ends.1
  refine ⟨fun r inside => ?_, ?_⟩
  · rcases List.mem_append.mp inside with earlier | final
    · exact named r earlier
    · exact List.mem_singleton.mp final ▸ index
  · rw [after_append, kept, after_cons, taken]
    rfl

end

section
open Matrix
variable {kind : AgentKind} {actions size : Quantity Float} {settings : Json.Members Json}
  {source : Source Float} {clock : Instant} {made : Agent}

/-- How an agent with a policy learns, whatever has been asked of it before. Accepted steps within
an episode are kept and change nothing else, and starting an episode forgets them. From its start
to its last step an episode makes the learner study these steps, and is counted. Taken at exact
numbers, the same definitions add to the weights the learning rate times the sum of the clipped
advantages of the steps times the gradients of their log-likelihood, under the policy and the
baseline from before, and then replace the baseline. -/
theorem policy_episodes (created : create kind actions size settings source clock = .ok made)
    (calls : List Call) {p : PolicyLearner Float}
    (own : (made.after calls).learner = .policyGradient p) :
    let a := made.after calls
    (∀ reports : List Report, a.Accepts (reports.map (·.call false)) →
      let b := a.after (reports.map (·.call false))
      let steps := reports.map (·.step a.spaces.actions)
      b = { a with learner := .policyGradient { p with buffer := p.buffer ++ steps } } ∧
      b.startEpisode = a.startEpisode) ∧
    (∀ (reports : List Report) (last : Report),
      a.startEpisode.Accepts (reports.map (·.call false) ++ [last.call true]) →
      let steps := reports.map (·.step a.spaces.actions)
      (∀ r ∈ reports ++ [last],
        r.action.indexBelow? a.spaces.actions = some (r.step a.spaces.actions).action) ∧
      a.startEpisode.after (reports.map (·.call false) ++ [last.call true]) =
        { a with
          learner := .policyGradient (p.study steps (last.step a.spaces.actions))
          episodes := a.episodes.next
          updated := a.clock }) ∧
    ((∀ row ∈ p.weights, ∀ x ∈ row, x.isFinite = true) → p.baseline.isFinite = true →
      ∃ (s : PolicySettings ℝ) (W : Matrix (Fin a.spaces.actions) (Fin a.spaces.features) ℝ) (b : ℝ),
        0 < s.learningRate ∧ 0 < s.gradientClip ∧
        p.startEpisode.map Exact.ofFloat = exact s W b p.baselineSet []) ∧
    ∀ (s : PolicySettings ℝ) (W : Matrix (Fin a.spaces.actions) (Fin a.spaces.features) ℝ) (b : ℝ)
      (known : Bool) (kept steps : List (Experience a.spaces.actions a.spaces.features))
      (last : Experience a.spaces.actions a.spaces.features),
      let learner := exact s W b known kept
      let episode := steps ++ [last]
      (∀ x, learner.probabilities (Exact.row x) = Exact.row (policy W x)) ∧
      learner.study (steps.map Experience.exact) last.exact =
        exact s
          (W + s.learningRate • ∑ t, advantage s b (returns s episode t) •
            vecMulVec ((Pi.single episode[t].action 1 : Fin a.spaces.actions → ℝ) -
              policy W episode[t].features) episode[t].features)
          (nextBaseline s b known episode) true [] := by
  intro a
  have shaped : a.Shaped := shaped_after created calls
  refine ⟨fun reports accepted => ?_, fun reports last accepted => after_episode own accepted,
    fun weights baseline => ?_, fun s W b known kept steps last => ⟨fun x => ?_, ?_⟩⟩
  · obtain ⟨_, kept⟩ := after_reports own accepted
    refine ⟨by rw [kept, keep_eq], ?_⟩
    rw [kept, startEpisode_policyGradient own, startEpisode_policyGradient rfl, startEpisode_keep]
  · have suits := shaped.learner
    rw [own] at suits
    obtain ⟨_, valid, fits, _⟩ := suits
    exact exact_of_finite valid fits.rows fits.columns weights baseline
  · have : Nonempty (Fin a.spaces.actions) := ⟨⟨0, shaped.actions⟩⟩
    exact probabilities_exact s W b known kept x
  · exact study_exact s W b known kept steps last

end

/-- An untrained policy for one action and one feature. -/
def pupil : Agent :=
  { sample with
    learner := .policyGradient ⟨{ PolicySettings.default with weightInit := 0 }, [[0]], 0, false, []⟩ }

/-- An episode of two steps, before which another one is cut short. -/
theorem policy_episodes_pupil :
    let r : Report := ⟨[1], .count 0, 0.5, []⟩
    let step : PolicyStep Float := ⟨[1], 0, 0.5⟩
    create .policyGradient (.count 1) (.count 1) [("weightInit", .number 0)] (.ofSeed 0) (.moment 0) =
      .ok pupil ∧
    ∃ p, pupil.learner = .policyGradient p ∧
      (pupil.after [r.call false]).startEpisode = pupil.startEpisode ∧
      (pupil.startEpisode.after [r.call false, r.call true]).learner =
        .policyGradient (p.study [step] step) := by
  intro r step
  have created : create .policyGradient (.count 1) (.count 1) [("weightInit", .number 0)] (.ofSeed 0)
    (.moment 0) = .ok pupil := rfl
  obtain ⟨dropped, studied, _⟩ := policy_episodes created [] rfl
  have first : pupil.Accepts [r.call false] := List.forall_mem_singleton.mpr rfl
  have whole : pupil.startEpisode.Accepts [r.call false, r.call true] := by
    refine (accepts_cons _ _).mpr ⟨rfl, ?_⟩
    exact List.forall_mem_singleton.mpr rfl
  refine ⟨created, _, rfl, (dropped [r] first).2, ?_⟩
  exact congrArg Agent.learner (studied [r] r whole).2

end ProgramGym.Agent
