import ProgramGym.Proofs.Agent.Refusals
import ProgramGym.Proofs.Learner.Updates

/-! What an agent's learner becomes when a call of `learn` is accepted. Main statement: whatever has
been asked of a Q-learner before, such a call changes one row of weights, by the law of its update,
and before the end of an episode nothing else. -/
namespace ProgramGym

theorem Quantity.lt_of_indexBelow? {α : Type} [Scalar α] {q : Quantity α} {bound i : Nat}
    (named : q.indexBelow? bound = some i) : i < bound := by
  unfold indexBelow? at named
  split at named
  · split at named
    · cases named
      assumption
    · cases named
  · cases named

namespace Agent
open Matrix QLearner

section
variable {a : Agent} {features next : List Float} {action : Quantity Float} {reward : Float}
  {done : Bool}

theorem index_of_admits {i : Nat} (learns : a.kind ≠ .random)
    (admitted : a.admits features action next done = .ok i) :
    action.indexBelow? a.spaces.actions = some i :=
  requireAction_eq_ok_iff.mp (checks_of_admits learns admitted).1

theorem admits_of_learn (accepted : (a.learn features action reward next done).1 = .ok ()) :
    ∃ i, a.admits features action next done = .ok i := by
  unfold learn at accepted
  cases admitted : a.admits features action next done with
  | error fault => simp [admitted] at accepted
  | ok i => exact ⟨i, rfl⟩

theorem learn_qlearning {q : QLearner Float} (own : a.learner = .qlearning q)
    (accepted : (a.learn features action reward next done).1 = .ok ()) :
    ∃ i, action.indexBelow? a.spaces.actions = some i ∧
      a.learn features action reward next done =
        (.ok (), a.withLearner (.qlearning (q.learn features i reward next done)) done) := by
  obtain ⟨i, admitted⟩ := admits_of_learn accepted
  have learns : a.kind ≠ .random := by simp [kind, own, Learner.kind]
  refine ⟨i, index_of_admits learns admitted, ?_⟩
  rw [learn, admitted, own]

theorem learn_qlearning_done {q : QLearner Float} (own : a.learner = .qlearning q)
    (next' : List Float) :
    a.learn features action reward next' true = a.learn features action reward next true := by
  have admitted : a.admits features action next' true = a.admits features action next true := by
    simp only [admits, own, if_true]
  rw [learn, learn, admitted]
  cases a.admits features action next true with
  | error fault => rfl
  | ok i =>
    rw [own]
    exact congrArg (fun q => (Except.ok (), a.withLearner (.qlearning q) true))
      (q.learn_done features i reward next' next)

end

section
variable {kind : AgentKind} {actions size : Quantity Float} {settings : Json.Members Json}
  {source : Source Float} {clock : Instant} {made : Agent}

theorem shaped_after (created : create kind actions size settings source clock = .ok made)
    (calls : List Call) : (made.after calls).Shaped := by
  have step (a : Agent) (call : Call) (shaped : a.Shaped) := shaped_perform shaped call
  exact keeps_after step (shaped_create created) calls

/-- The law of Q-learning, for an agent of which anything has been asked before. An accepted call
keeps the settings and all rows of weights but one, within an episode also exploration and the
counter, and looks at no next features at the end of one. Taken at exact numbers, the same
definitions move the value of the action by the learning rate times the clipped error times the
product with the features, and no other value; and weights drift no further than the bound. -/
theorem q_learning_law (created : create kind actions size settings source clock = .ok made)
    (calls : List Call) {q : QLearner Float} (own : (made.after calls).learner = .qlearning q) :
    let a := made.after calls
    (∀ features action reward next done, (a.learn features action reward next done).1 = .ok () →
      ∃ i, action.indexBelow? a.spaces.actions = some i ∧ i < a.spaces.actions ∧
        let q' := q.learn features i reward next done
        let b := (a.learn features action reward next done).2
        b.learner = .qlearning q' ∧ q'.settings = q.settings ∧
        (∀ j ≠ i, q'.weights[j]? = q.weights[j]?) ∧
        (done = false → q'.epsilon = q.epsilon ∧ b.episodes = a.episodes) ∧
        (done = true → ∀ next', a.learn features action reward next' done =
          a.learn features action reward next done)) ∧
    ((∀ row ∈ q.weights, ∀ x ∈ row, x.isFinite = true) → q.epsilon.isFinite = true →
      ∃ (s : QSettings ℝ) (W : Matrix (Fin a.spaces.actions) (Fin a.spaces.features) ℝ) (ε : ℝ),
        0 < s.learningRate ∧ 0 < s.tdErrorClip ∧ q.map Exact.ofFloat = exact s W ε) ∧
    ∀ (s : QSettings ℝ) (W : Matrix (Fin a.spaces.actions) (Fin a.spaces.features) ℝ) (ε : ℝ),
      0 < s.learningRate → 0 < s.tdErrorClip →
      (∀ x, (exact s W ε).values (Exact.row x) = Exact.row (W *ᵥ x)) ∧
      (∀ l y, ((exact s W ε).hear l).values (Exact.row y) = Exact.row (W *ᵥ y +
        Pi.single l.action (s.learningRate * tdError s W l * (l.features ⬝ᵥ y)))) ∧
      ∀ lessons : List (Lesson a.spaces.actions a.spaces.features), (∀ l ∈ lessons, ∀ j, |l.features j| ≤ 1) →
        ∃ V ε', lessons.foldl hear (exact s W ε) = exact s V ε' ∧
          ∀ i j, |V i j - W i j| ≤ lessons.length * s.learningRate * s.tdErrorClip := by
  intro a
  refine ⟨fun features action reward next done accepted => ?_, fun weights epsilon => ?_,
    fun s W ε rate bound => ⟨values_exact s W ε, fun l y => ?_, fun lessons small => ?_⟩⟩
  · obtain ⟨i, named, learned⟩ := learn_qlearning own accepted
    refine ⟨i, named, Quantity.lt_of_indexBelow? named, ?_, learn_settings .., fun j other => ?_,
      fun within => ⟨?_, ?_⟩, fun ended next' => ?_⟩
    · rw [learned]
      cases done <;> rfl
    · exact learn_other q features i reward next done other
    · rw [learn_epsilon, within]
      rfl
    · rw [learned, within]
      rfl
    · subst ended
      exact learn_qlearning_done own next'
  · have suits := (shaped_after created calls).learner
    rw [own] at suits
    obtain ⟨_, valid, fits⟩ := suits
    exact exact_of_finite valid fits.rows fits.columns weights epsilon
  · rw [hear_exact, values_exact, moved_mulVec]
  · exact drift W ε bound.le rate.le small

end

/-- Over exact numbers too, `sample` stays close to its first weights. -/
theorem q_learning_law_sample :
    create .qlearning (.count 1) (.count 1) [] (.ofSeed 0) (.moment 0) = .ok sample ∧
    (sample.learn [1] (.count 0) 0.5 [] true).1 = .ok () ∧
    ∃ q i, sample.learner = .qlearning q ∧ i < 1 ∧
      (sample.learn [1] (.count 0) 0.5 [] true).2.learner =
        .qlearning (q.learn [1] i 0.5 [] true) ∧
      ∃ (s : QSettings ℝ) (W : Matrix (Fin 1) (Fin 1) ℝ) (ε : ℝ),
        q.map Exact.ofFloat = exact s W ε ∧
        ∀ lessons : List (Lesson 1 1), (∀ l ∈ lessons, ∀ j, |l.features j| ≤ 1) →
          ∃ V ε', lessons.foldl hear (q.map Exact.ofFloat) = exact s V ε' ∧
            ∀ i j, |V i j - W i j| ≤ lessons.length * s.learningRate * s.tdErrorClip := by
  have created : create .qlearning (.count 1) (.count 1) [] (.ofSeed 0) (.moment 0) = .ok sample :=
    rfl
  obtain ⟨learns, stands, law⟩ := q_learning_law created [] (q := ⟨.default, [[0]], 1⟩) rfl
  obtain ⟨i, _, below, taken, _⟩ := learns [1] (.count 0) 0.5 [] true rfl
  have weights : ∀ row ∈ [[(0 : Float)]], ∀ x ∈ row, x.isFinite = true := by
    simp only [List.mem_singleton, forall_eq]
    decide +kernel
  obtain ⟨s, W, ε, rate, bound, same⟩ := stands weights (by decide +kernel)
  refine ⟨created, rfl, _, i, rfl, below, taken, s, W, ε, same, fun lessons small => ?_⟩
  rw [same]
  exact (law s W ε rate bound).2.2 lessons small

end Agent
end ProgramGym
