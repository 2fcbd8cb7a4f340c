import ProgramGym.Proofs.Agent.Episodes
import ProgramGym.Proofs.Learner.Conservation

/-! Steps that wait for the end of an episode, and what they leave of the weights. A call keeps
these steps, forgets them or adds one whose action is an action of the agent. Main statement:
whatever has been asked of an agent with a policy before, the end of an episode moves weight from
action to action only. -/
namespace ProgramGym.Agent
open PolicyLearner

/-- What becomes of the steps that wait, in one call. -/
inductive Queued (actions : Nat) (before : List (PolicyStep Float)) :
    List (PolicyStep Float) → Prop where
  | same : Queued actions before before
  | none : Queued actions before []
  | more (step : PolicyStep Float) (below : step.action < actions) :
    Queued actions before (before ++ [step])

section
variable {a : Agent}

theorem queued_learn (a : Agent) (features : List Float) (action : Quantity Float) (reward : Float)
    (next : List Float) (done : Bool) :
    Queued a.spaces.actions a.learner.pending
      (a.learn features action reward next done).2.learner.pending := by
  unfold learn
  cases admitted : a.admits features action next done with
  | error fault => exact .same
  | ok i =>
    obtain ⟨spaces, source, clock, episodes, updated, learner⟩ := a
    cases learner with
    | random | qlearning q => cases done <;> exact .same
    | policyGradient p =>
      cases done with
      | true => exact .none
      | false => exact .more _ (Quantity.lt_of_indexBelow? (index_of_admits nofun admitted))

theorem queued_load (a : Agent) (text : String) :
    (a.load text).2.spaces = a.spaces ∧
      Queued a.spaces.actions a.learner.pending (a.load text).2.learner.pending := by
  unfold load
  cases a.readOwn text with
  | error fault => exact ⟨rfl, .same⟩
  | ok saved =>
    obtain ⟨spaces, source, clock, episodes, updated, learner⟩ := a
    cases learner with
    | random => exact ⟨rfl, .same⟩
    | qlearning q =>
      dsimp only [loadQ]
      cases QSettings.resolve saved.settingsGiven with
      | error fault => exact ⟨rfl, .same⟩
      | ok settings => dsimp only; split <;> exact ⟨rfl, .same⟩
    | policyGradient p =>
      dsimp only [loadPolicy]
      cases PolicySettings.resolve saved.settingsGiven with
      | error fault => exact ⟨rfl, .same⟩
      | ok settings =>
        dsimp only
        split
        · exact ⟨rfl, .none⟩
        · exact ⟨rfl, .same⟩

theorem queued_perform (a : Agent) (call : Call) :
    (a.perform call).2.spaces = a.spaces ∧
      Queued a.spaces.actions a.learner.pending (a.perform call).2.learner.pending := by
  cases call with
  | act features explore =>
    have kept := act_source a features explore
    simp only [perform]
    rw [kept]
    exact ⟨rfl, .same⟩
  | learn features action reward next done =>
    refine ⟨?_, queued_learn a features action reward next done⟩
    rcases learn_cases a features action reward next done with
      ⟨fault, refused⟩ | ⟨learner, _, _, taken⟩
    · simp only [perform, refused]
    · simp only [perform, taken]
      cases done <;> rfl
  | startEpisode =>
    obtain ⟨spaces, source, clock, episodes, updated, learner⟩ := a
    cases learner with
    | random | qlearning q => exact ⟨rfl, .same⟩
    | policyGradient p => exact ⟨rfl, .none⟩
  | setEpsilon epsilon =>
    simp only [perform]
    cases taken : setLearnerEpsilon a.learner epsilon with
    | error fault => exact ⟨rfl, .same⟩
    | ok learner =>
      obtain ⟨q, _, rfl⟩ := setLearnerEpsilon_eq_ok taken
      exact ⟨rfl, .none⟩
  | decayEpsilon =>
    obtain ⟨spaces, source, clock, episodes, updated, learner⟩ := a
    cases learner <;> exact ⟨rfl, .same⟩
  | reset =>
    obtain ⟨spaces, source, clock, episodes, updated, learner⟩ := a
    cases learner <;> exact ⟨rfl, .none⟩
  | load text => exact queued_load a text
  | save | look | wait now => exact ⟨rfl, .same⟩

theorem pending_create {kind : AgentKind} {spaces : Spaces} {settings : Json.Members Json}
    {source rest : Source Float} {learner : Learner}
    (created : Learner.create kind spaces settings source = .ok (learner, rest)) :
    learner.pending = [] := by
  cases kind with
  | random =>
    cases created
    rfl
  | qlearning | policyGradient =>
    obtain ⟨resolved, _, created⟩ := bind_eq_ok.mp created
    obtain ⟨_, _, created⟩ := bind_eq_ok.mp created
    cases created
    rfl

/-- Every step that waits has an action of the agent. -/
def Named (a : Agent) : Prop := ∀ step ∈ a.learner.pending, step.action < a.spaces.actions

theorem Queued.below {actions : Nat} {before after : List (PolicyStep Float)}
    (queued : Queued actions before after) (named : ∀ step ∈ before, step.action < actions) :
    ∀ step ∈ after, step.action < actions := by
  cases queued with
  | same => exact named
  | none => exact nofun
  | more step below => exact List.forall_mem_append.mpr ⟨named, List.forall_mem_singleton.mpr below⟩

theorem named_perform (named : a.Named) (call : Call) : (a.perform call).2.Named := by
  obtain ⟨spaces, queued⟩ := queued_perform a call
  rw [Named, spaces]
  exact queued.below named

end

section
variable {kind : AgentKind} {actions size : Quantity Float} {settings : Json.Members Json}
  {source : Source Float} {clock : Instant} {made : Agent}

theorem named_after (created : create kind actions size settings source clock = .ok made)
    (calls : List Call) : (made.after calls).Named := by
  have step (a : Agent) (call : Call) (named : a.Named) := named_perform named call
  refine keeps_after step ?_ calls
  obtain ⟨spaces, learner, rest, _, new, rfl⟩ := create_eq_ok created
  rw [Named, pending_create new]
  exact nofun

theorem length_report {a : Agent} {p : PolicyLearner Float} (own : a.learner = .policyGradient p)
    {r : Report} {done : Bool} (accepted : (a.perform (r.call done)).1 = .done (.ok ())) :
    (r.step a.spaces.actions).features.length = a.spaces.features := by
  obtain ⟨_, admitted⟩ := admits_of_learn (Reply.done.inj accepted)
  have learns : a.kind ≠ .random := by simp [kind, own, Learner.kind]
  exact length_of_admits learns admitted

/-- How the end of an episode moves weights, whatever has been asked of the agent before. An
accepted last step makes the learner learn from all steps that wait and from this one; if they and
the learner have finite numbers, they stand for real ones. Taken at exact numbers, the same
definitions give every observation probabilities that sum to one. Then the end of an episode adds to
the weights the learning rate times its gradient, which keeps, for each feature, the sum of its
weights over all actions; and if every return is the baseline it keeps every weight. -/
theorem learning_conserves (created : create kind actions size settings source clock = .ok made)
    (calls : List Call) {p : PolicyLearner Float}
    (own : (made.after calls).learner = .policyGradient p) :
    let a := made.after calls
    (∀ r : Report, (a.perform (r.call true)).1 = .done (.ok ()) →
      let step := r.step a.spaces.actions
      (a.perform (r.call true)).2.learner = .policyGradient (p.learn step true) ∧
      (p.Finite → step.Finite →
        ∃ (s : PolicySettings ℝ) (W : Matrix (Fin a.spaces.actions) (Fin a.spaces.features) ℝ)
          (b : ℝ) (kept : List (Experience a.spaces.actions a.spaces.features))
          (last : Experience a.spaces.actions a.spaces.features),
          0 < s.gradientClip ∧ p.map Exact.ofFloat = exact s W b p.baselineSet kept ∧
          step.map Exact.ofFloat = last.exact)) ∧
    ∀ (s : PolicySettings ℝ) (W : Matrix (Fin a.spaces.actions) (Fin a.spaces.features) ℝ) (b : ℝ)
      (known : Bool) (kept : List (Experience a.spaces.actions a.spaces.features))
      (last : Experience a.spaces.actions a.spaces.features),
      let learner := exact s W b known kept
      let rewards := ((kept ++ [last]).map Experience.exact).map (·.reward)
      (∀ x : Fin a.spaces.features → ℝ, ∃ π : Fin a.spaces.actions → ℝ,
        learner.probabilities (Exact.row x) = Exact.row π ∧ ∑ i, π i = 1) ∧
      let V := W + s.learningRate • ascent s W b (kept ++ [last])
      learner.learn last.exact true =
        exact s V (nextBaseline s b known (kept ++ [last])) true [] ∧
      (∀ j, ∑ i, V i j = ∑ i, W i j) ∧
      (0 < s.gradientClip →
        (∀ g ∈ Linear.discountedReturns learner.settings.gamma rewards, g = learner.baseline) →
        V = W) := by
  intro a
  have shaped : a.Shaped := shaped_after created calls
  refine ⟨fun r accepted => ?_, fun s W b known kept last => ⟨fun x => ?_,
    learn_exact s W b known kept last, sum_moved s W b _, fun some returns => ?_⟩⟩
  · obtain ⟨named, taken⟩ := perform_report own accepted
    refine ⟨by rw [taken]; rfl, fun finite told => ?_⟩
    have suits := shaped.learner
    rw [own] at suits
    obtain ⟨_, valid, fits, lengths⟩ := suits
    have below : ∀ step ∈ p.buffer, step.action < a.spaces.actions := by
      have waiting := named_after created calls
      rwa [Named, own] at waiting
    obtain ⟨s, W, b, kept, _, some, learner⟩ :=
      exact_of_finite_within finite valid fits.rows fits.columns lengths below
    obtain ⟨last, step⟩ :=
      experience_of_finite told (length_report own accepted) (Quantity.lt_of_indexBelow? named)
    exact ⟨s, W, b, kept, last, some, learner, step⟩
  · have : Nonempty (Fin a.spaces.actions) := ⟨⟨0, shaped.actions⟩⟩
    exact ⟨policy W x, probabilities_exact s W b known kept x, sum_policy W x⟩
  · exact moved_of_level s W b some ((level_iff s b _).mp returns)

end

/-- An untrained policy for two actions and one feature. -/
def pair : Agent :=
  { sample with
    spaces := ⟨2, 1⟩
    learner := .policyGradient
      ⟨{ PolicySettings.default with weightInit := 0 }, [[0], [0]], 0, false, []⟩ }

/-- What one of two actions gains the other one loses; a reward of nothing teaches nothing. -/
theorem learning_conserves_pair :
    let r : Report := ⟨[1], .count 1, 0.5, []⟩
    let unpaid : Experience 2 1 := ⟨fun _ => 1, 1, 0⟩
    create .policyGradient (.count 2) (.count 1) [("weightInit", .number 0)] (.ofSeed 0) (.moment 0) =
      .ok pair ∧
    (pair.perform (r.call true)).1 = .done (.ok ()) ∧
    (∃ (p : PolicyLearner Float) (s : PolicySettings ℝ) (W V : Matrix (Fin 2) (Fin 1) ℝ) (b : ℝ),
      pair.learner = .policyGradient p ∧
      (pair.perform (r.call true)).2.learner = .policyGradient (p.learn (r.step 2) true) ∧
      (p.map Exact.ofFloat).weights = Exact.matrix W ∧
      (p.map Exact.ofFloat).learn ((r.step 2).map Exact.ofFloat) true = exact s V b true [] ∧
      ∀ j, ∑ i, V i j = ∑ i, W i j) ∧
    ∀ (s : PolicySettings ℝ) (W : Matrix (Fin 2) (Fin 1) ℝ), 0 < s.gradientClip →
      ∃ b, (exact s W 0 false []).learn unpaid.exact true = exact s W b true [] := by
  intro r unpaid
  have created : create .policyGradient (.count 2) (.count 1) [("weightInit", .number 0)] (.ofSeed 0)
    (.moment 0) = .ok pair := rfl
  obtain ⟨taught, conserved⟩ := learning_conserves created [] rfl
  obtain ⟨learned, stands⟩ := taught r rfl
  obtain ⟨s, W, b, kept, last, _, learner, step⟩ :=
    stands ⟨by decide +kernel, by decide +kernel, nofun⟩ ⟨by decide +kernel, by decide +kernel⟩
  obtain ⟨-, moved, sums, -⟩ := conserved s W b false kept last
  refine ⟨created, rfl, ⟨_, s, W, _, nextBaseline s b false (kept ++ [last]), rfl, learned, ?_, ?_,
    sums⟩, fun s W some => ?_⟩
  · rw [learner]
    rfl
  · rw [learner]
    exact (congrArg (PolicyLearner.learn _ · true) step).trans moved
  · obtain ⟨-, moved, -, level⟩ := conserved s W 0 false [] unpaid
    have returns : ∀ g ∈ Linear.discountedReturns (.real s.gamma) [Exact.real 0], g = .real 0 := by
      simp [Linear.discountedReturns]
    let b := nextBaseline s 0 false [unpaid]
    exact ⟨b, moved.trans (congrArg (exact s · b true []) (level some returns))⟩

end ProgramGym.Agent
