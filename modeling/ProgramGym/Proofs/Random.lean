import ProgramGym.Agent

/-! Draws and their count. Whatever is drawn comes from single draws, one after the other, and of
the source itself only the period is ever looked at. Main statements: what a learner draws, for its
first weights or for an action, is the same from two sources of one stream, since a source counts
its draws but nothing hangs on the count; and a property of sources that each single draw keeps is
kept by all of them. -/
namespace ProgramGym
namespace Source
variable {α β γ : Type}

/-- Takes no notice of how many draws were made before. -/
def Blind (draw : Source α → β × Source α) : Prop :=
  ∀ s t, s.stream = t.stream → (draw s).1 = (draw t).1 ∧ (draw s).2.stream = (draw t).2.stream

/-- Leaves a property of sources in place. -/
def Keeps (property : Source α → Prop) (draw : Source α → β × Source α) : Prop :=
  ∀ s, property s → property (draw s).2

variable [Scalar α]

/-- What is made of single draws. -/
inductive Drawing : {β : Type} → (Source α → β × Source α) → Prop where
  | pure {β : Type} (x : β) : Drawing fun s => (x, s)
  | next : Drawing next
  | bind {β γ : Type} {draw : Source α → β × Source α} {next : β → Source α → γ × Source α}
      (first : Drawing draw) (second : ∀ x, Drawing (next x)) :
      Drawing fun s => next (draw s).1 (draw s).2
  | period {β : Type} {draw : Nat → Source α → β × Source α} (each : ∀ n, Drawing (draw n)) :
      Drawing fun s => draw s.period s

theorem Drawing.blind {draw : Source α → β × Source α} (drawing : Drawing draw) : Blind draw := by
  induction drawing with
  | pure x => exact fun _ _ same => ⟨rfl, same⟩
  | next =>
    rintro ⟨stream, m⟩ ⟨_, n⟩ ⟨⟩
    cases stream <;> exact ⟨rfl, rfl⟩
  | bind _ _ first second =>
    intro s t same
    obtain ⟨value, stream⟩ := first s t same
    dsimp only
    rw [value]
    exact second _ _ _ stream
  | period _ each =>
    intro s t same
    have period : s.period = t.period := by simp only [Source.period, same]
    dsimp only
    rw [period]
    exact each t.period s t same

theorem Drawing.keeps {property : Source α → Prop} (step : Keeps property Source.next)
    {draw : Source α → β × Source α} (drawing : Drawing draw) : Keeps property draw := by
  induction drawing with
  | pure x => exact fun _ holds => holds
  | next => exact step
  | bind _ _ first second => exact fun s holds => second _ _ (first s holds)
  | period _ each => exact fun s holds => each s.period s holds

section
variable {draw first second : Source α → β × Source α}

theorem Drawing.map (drawing : Drawing draw) (f : β → γ) :
    Drawing fun s => (f (draw s).1, (draw s).2) :=
  drawing.bind fun x => .pure (f x)

theorem Drawing.ite (c : Bool) (yes : Drawing first) (no : Drawing second) :
    Drawing fun s => if c then first s else second s := by
  cases c
  · exact no
  · exact yes

theorem Drawing.many (each : Drawing draw) (count : Nat) : Drawing (Source.many draw count) := by
  induction count with
  | zero => exact .pure _
  | succ count ih => exact each.bind fun x => ih.map (x :: ·)

end

theorem drawing_nextNonzero (fuel : Nat) :
    Drawing (nextNonzero fuel : Source α → α × Source α) := by
  induction fuel with
  | zero => exact .pure _
  | succ fuel ih =>
    exact Drawing.next.bind fun u => ih.ite (Scalar.eq u (Scalar.nat 0)) (.pure u)

/-- The period of the stream bounds the search for a draw. -/
theorem drawing_nextNormal : Drawing (nextNormal : Source α → α × Source α) :=
  .period fun n => (drawing_nextNonzero n).bind fun u => Drawing.next.map fun v =>
    Scalar.sqrt (-Scalar.nat 2 * Scalar.log u) * Scalar.cos (Scalar.nat 2 * Scalar.pi * v)

theorem drawing_nextBelow (bound : α) : Drawing (nextBelow bound) := Drawing.next.map (select bound)

end Source

namespace Linear
open Source
variable {α : Type} [Scalar α]

theorem drawing_epsilonGreedy (values : List α) (epsilon : α) :
    Drawing (epsilonGreedy values epsilon) := by
  have greedy : Drawing fun s : Source α => ((.count (argmax values) : Quantity α), s) := .pure _
  have uniform := (drawing_nextBelow (Scalar.nat values.length : α)).map Quantity.ofScalar
  exact (Drawing.next.bind fun u => uniform.ite (Scalar.lt u epsilon) greedy).ite _ greedy

theorem drawing_initialRow (columns : Nat) (scale : α) : Drawing (initialRow columns scale) := by
  have scaled := (drawing_nextNormal.many columns).map fun xs : List α => xs.map (· * scale)
  exact scaled.ite (Scalar.lt (Scalar.nat 0) scale) (.pure _)

theorem drawing_initialMatrix (rows columns : Nat) (scale : α) :
    Drawing (initialMatrix rows columns scale) := by
  induction rows with
  | zero => exact .pure _
  | succ rows ih => exact (drawing_initialRow columns scale).bind fun row => ih.map (row :: ·)

end Linear

open Source

section
variable {α : Type} [Scalar α] (features : List α) (explore : Bool) (actions columns : Nat)

theorem QLearner.drawing_act (q : QLearner α) : Drawing (q.act features explore) :=
  (Linear.drawing_epsilonGreedy _ _).ite explore (.pure _)

theorem QLearner.drawing_start (settings : QSettings α) :
    Drawing (QLearner.start settings actions columns) :=
  (Linear.drawing_initialMatrix actions columns settings.weightInit).map fun weights =>
    (⟨settings, weights, settings.epsilon⟩ : QLearner α)

theorem PolicyLearner.drawing_act (p : PolicyLearner α) : Drawing (p.act features explore) := by
  have sampled := (Drawing.next (α := α)).map fun u =>
    (.count ((Linear.sample? (p.probabilities features) u).getD 0) : Quantity α)
  exact sampled.ite explore (.pure _)

theorem PolicyLearner.drawing_start (settings : PolicySettings α) :
    Drawing (PolicyLearner.start settings actions columns) :=
  (Linear.drawing_initialMatrix actions columns settings.weightInit).map fun weights =>
    (⟨settings, weights, Scalar.nat 0, false, []⟩ : PolicyLearner α)

end

theorem Agent.drawing_choose (a : Agent) (features : List Float) (explore : Bool) :
    Drawing fun s => { a with source := s }.choose features explore := by
  unfold choose
  cases a.learner with
  | random => exact (drawing_nextBelow (Float.ofNat a.spaces.actions)).map Quantity.ofScalar
  | qlearning q => exact q.drawing_act features explore
  | policyGradient p => exact p.drawing_act features explore

theorem Learner.drawing_restart (l : Learner) (spaces : Spaces) : Drawing (l.restart spaces) := by
  cases l with
  | random => exact .pure _
  | qlearning q =>
    have started := QLearner.drawing_start spaces.actions spaces.features q.settings
    exact started.map Learner.qlearning
  | policyGradient p =>
    have started := PolicyLearner.drawing_start spaces.actions spaces.features p.settings
    exact started.map Learner.policyGradient

theorem Agent.blind_choose (a : Agent) (features : List Float) (explore : Bool) :
    Blind fun s => { a with source := s }.choose features explore :=
  (a.drawing_choose features explore).blind

theorem Learner.blind_restart (l : Learner) (spaces : Spaces) : Blind (l.restart spaces) :=
  (l.drawing_restart spaces).blind

end ProgramGym
