import ProgramGym.Proofs.Agent.Reached
import ProgramGym.Proofs.Rollout

/-! Actors that answer alike make the same episodes: a relation that acting, starting an episode and
learning keep, with equal answers, is kept by a whole run with equal records. With it the number of
an episode and what the clock shows are seen to have no part in what happens, a greedy episode is
seen to leave nothing behind but draws, and what single calls keep of an agent episodes keep. -/
namespace ProgramGym.Rollout

section
variable {σ α : Type} [Scalar α] [Actor σ α]

/-- Related actors answer alike and stay related. Outside training they only act. -/
structure Simulates (train : Bool) (R : σ → σ → Prop) : Prop where
  act : ∀ {a b} seen, R a b → (Actor.act a seen train).1 = (Actor.act b seen train).1 ∧
    R (Actor.act a seen train).2 (Actor.act b seen train).2
  startEpisode : train = true → ∀ {a b}, R a b → R (Actor.startEpisode a) (Actor.startEpisode b)
  learn : train = true → ∀ {a b} (seen : Observation α) action reward next done, R a b →
    (Actor.learn a seen action reward next done).1 = (Actor.learn b seen action reward next done).1 ∧
    R (Actor.learn a seen action reward next done).2 (Actor.learn b seen action reward next done).2

/-- Equal in answer and environment, related in the actor. -/
def Alike {β : Type} (R : σ → σ → Prop) (x y : β × Environment α × σ) : Prop :=
  x.1 = y.1 ∧ x.2.1 = y.2.1 ∧ R x.2.2 y.2.2

variable {train : Bool} {R : σ → σ → Prop} {a b : σ}

omit [Scalar α] in
theorem Simulates.learnFrom (sim : Simulates train R) (related : R a b) (seen : Observation α)
    (action : Quantity α) (r : StepResult α) :
    (learnFrom train a seen action r).1 = (learnFrom train b seen action r).1 ∧
      R (learnFrom train a seen action r).2 (learnFrom train b seen action r).2 := by
  cases train with
  | false => exact ⟨rfl, related⟩
  | true => exact sim.learn rfl seen action _ _ _ related

theorem Simulates.turn (sim : Simulates train R) (related : R a b) (seen : Observation α)
    (env : Environment α) : Alike R (turn train seen env a) (turn train seen env b) := by
  have acted := sim.act seen related
  unfold Rollout.turn
  generalize Actor.act a seen train = x, Actor.act b seen train = y at acted
  obtain ⟨answer, a⟩ := x
  obtain ⟨_, b⟩ := y
  obtain ⟨rfl, related⟩ := acted
  cases answer with
  | error fault => exact ⟨rfl, rfl, related⟩
  | ok action =>
    simp only
    rcases env.step action with ⟨fault | r, next⟩
    · exact ⟨rfl, rfl, related⟩
    have learnt := sim.learnFrom related seen action r
    simp only
    generalize Rollout.learnFrom train a seen action r = x,
      Rollout.learnFrom train b seen action r = y at learnt
    obtain ⟨answer, a⟩ := x
    obtain ⟨_, b⟩ := y
    obtain ⟨rfl, related⟩ := learnt
    cases answer <;> exact ⟨rfl, rfl, related⟩

theorem Simulates.steps (sim : Simulates train R) (related : R a b) (fuel : Nat) (tally : Tally α)
    (seen : Observation α) (env : Environment α) :
    Alike R (steps train fuel tally seen env a) (steps train fuel tally seen env b) := by
  induction fuel generalizing tally seen env a b with
  | zero => exact ⟨rfl, rfl, related⟩
  | succ fuel ih =>
    cases ended : env.done with
    | true =>
      rw [steps_done _ _ _ _ _ _ ended, steps_done _ _ _ _ _ _ ended]
      exact ⟨rfl, rfl, related⟩
    | false =>
      have turned := sim.turn related seen env
      rw [steps_succ _ _ _ _ _ _ ended, steps_succ _ _ _ _ _ _ ended]
      generalize Rollout.turn train seen env a = x, Rollout.turn train seen env b = y at turned
      obtain ⟨answer, next, a⟩ := x
      obtain ⟨_, _, b⟩ := y
      obtain ⟨rfl, rfl, related⟩ := turned
      cases answer with
      | error fault => exact ⟨rfl, rfl, related⟩
      | ok r => exact ih related _ _ _

theorem Simulates.run (sim : Simulates train R) (related : R a b) (episode : Nat)
    (env : Environment α) : Alike R (run train episode env a) (run train episode env b) := by
  have started : R (if train then Actor.startEpisode a else a)
      (if train then Actor.startEpisode b else b) := by
    cases train with
    | false => exact related
    | true => exact sim.startEpisode rfl related
  rw [run_eq, run_eq]
  obtain ⟨answer, rest, related⟩ := sim.steps started env.restart.rules.settings.maxSteps .zero
    env.restart.observe env.restart
  exact ⟨by simp only [recorded, answer, rest], rest, related⟩

/-- What acting, starting an episode and learning keep, an episode keeps. -/
theorem keeps_run (train : Bool) (property : σ → Prop)
    (acts : ∀ a (seen : Observation α), property a → property (Actor.act a seen train).2)
    (starts : train = true → ∀ a, property a → property (Actor.startEpisode a))
    (learns : train = true → ∀ a (seen : Observation α) action reward next done, property a →
      property (Actor.learn a seen action reward next done).2)
    (holds : property a) (episode : Nat) (env : Environment α) :
    property (run train episode env a).2.2 := by
  have sim : Simulates train fun a b : σ => a = b ∧ property a :=
    { act := fun seen ⟨same, holds⟩ => same ▸ ⟨rfl, rfl, acts _ seen holds⟩
      startEpisode := fun trains _ _ ⟨same, holds⟩ => same ▸ ⟨rfl, starts trains _ holds⟩
      learn := fun trains _ _ seen action reward next done ⟨same, holds⟩ =>
        same ▸ ⟨rfl, rfl, learns trains _ seen action reward next done holds⟩ }
  exact (sim.run ⟨rfl, holds⟩ episode env).2.2.2

/-- The number of an episode goes to its record and nowhere else. -/
theorem run_renumber (train : Bool) (m n : Nat) (env : Environment α) (actor : σ) :
    run train n env actor =
      ((run train m env actor).1.map (fun r => { r with episode := n }), (run train m env actor).2) := by
  rw [run_eq, run_eq]
  generalize steps train env.restart.rules.settings.maxSteps .zero env.restart.observe env.restart
    (if train then Actor.startEpisode actor else actor) = outcome
  obtain ⟨fault | tally, rest⟩ := outcome <;> rfl

end
end ProgramGym.Rollout

namespace ProgramGym

namespace Agent
variable {a b : Agent}

/-- The second agent differs in what its clock shows and in the time of its last update. -/
def Retimed (a b : Agent) : Prop := b = { a with clock := b.clock, updated := b.updated }

theorem learn_retimed (retimed : a.Retimed b) (features : List Float) (action : Quantity Float)
    (reward : Float) (next : List Float) (done : Bool) :
    (a.learn features action reward next done).1 = (b.learn features action reward next done).1 ∧
      (a.learn features action reward next done).2.Retimed
        (b.learn features action reward next done).2 := by
  have admitted : b.admits features action next done = a.admits features action next done := by
    rw [retimed]
    rfl
  unfold learn
  rw [admitted]
  cases a.admits features action next done with
  | error fault => exact ⟨rfl, retimed⟩
  | ok i =>
    rw [retimed]
    cases done <;> exact ⟨rfl, rfl⟩

theorem act_retimed (retimed : a.Retimed b) (features : List Float) (explore : Bool) :
    (a.act features explore).1 = (b.act features explore).1 ∧
      (a.act features explore).2.Retimed (b.act features explore).2 := by
  have checked : b.requireFeatures features = a.requireFeatures features := by
    rw [retimed]
    rfl
  unfold act
  rw [checked]
  cases a.requireFeatures features with
  | error fault => exact ⟨rfl, retimed⟩
  | ok =>
    rw [retimed]
    exact ⟨rfl, rfl⟩

theorem startEpisode_retimed (retimed : a.Retimed b) : a.startEpisode.Retimed b.startEpisode := by
  rw [retimed]
  obtain ⟨_, _, _, _, _, learner⟩ := a
  cases learner <;> rfl

/-- What the clock shows has no part in what happens. -/
theorem simulates_retimed (train : Bool) : Rollout.Simulates train Retimed where
  act seen retimed := act_retimed retimed seen.features train
  startEpisode _ _ _ retimed := startEpisode_retimed retimed
  learn _ _ _ _ _ _ _ _ retimed := learn_retimed retimed _ _ _ _ _

theorem shaped_run (shaped : a.Shaped) (train : Bool) (episode : Nat) (env : Environment Float) :
    (Rollout.run train episode env a).2.2.Shaped :=
  Rollout.keeps_run train Shaped
    (fun _ seen shaped => shaped_act shaped seen.features train)
    (fun _ _ shaped => shaped_startEpisode shaped)
    (fun _ _ seen action reward next done shaped =>
      shaped_learn shaped seen.features action reward next.features done)
    shaped episode env

/-- A greedy episode draws, if anything, whether it ends well or not. -/
theorem run_greedy_source (a : Agent) (episode : Nat) (env : Environment Float) :
    (Rollout.run false episode env a).2.2 =
      { a with source := (Rollout.run false episode env a).2.2.source } := by
  refine Rollout.keeps_run false (fun b : Agent => b = { a with source := b.source })
    (fun b seen same => ?_) nofun nofun (show a = { a with source := a.source } from rfl) episode env
  change (b.act seen.features false).2 = { a with source := (b.act seen.features false).2.source }
  rw [act_source]
  generalize (b.act seen.features false).2.source = s
  rw [same]

/-- A learner's greedy episode leaves it as it is, even one that a fault cuts short. -/
theorem run_greedy_self (learner : a.kind ≠ .random) (episode : Nat) (env : Environment Float) :
    (Rollout.run false episode env a).2.2 = a :=
  Rollout.keeps_run false (· = a) (fun _ seen same => same ▸ act_greedy learner seen.features)
    nofun nofun rfl episode env

end Agent
end ProgramGym
