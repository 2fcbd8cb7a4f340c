import ProgramGym.Environment
import ProgramGym.Metrics

/-! One episode of observing, acting and, in training, learning. Whatever can act and learn may
take part. A fault ends the episode and leaves environment and actor as they are by then. -/
namespace ProgramGym

class Actor (σ : Type) (α : outParam Type) where
  act : σ → Observation α → (explore : Bool) → Except Fault (Quantity α) × σ
  startEpisode : σ → σ
  learn : σ → Observation α → Quantity α → α → Observation α → Bool → Except Fault Unit × σ

namespace Rollout
variable {σ α : Type} [Scalar α] [Actor σ α]

/-- What an episode has added up to. -/
structure Tally (α : Type) where
  totalReward : α
  steps : Nat
  success : Bool

def Tally.zero : Tally α := ⟨Scalar.nat 0, 0, false⟩

def Tally.add (t : Tally α) (r : StepResult α) : Tally α :=
  ⟨t.totalReward + r.reward, t.steps + 1, r.info.outcome.matched⟩

/-- The learner's part of a step: none outside training. -/
def learnFrom (train : Bool) (actor : σ) (seen : Observation α) (action : Quantity α)
    (r : StepResult α) : Except Fault Unit × σ :=
  if train then Actor.learn actor seen action r.reward r.observation r.done else (.ok (), actor)

/-- Steps until the episode is done. The step budget of the environment bounds them. -/
def steps (train : Bool) : (fuel : Nat) → Tally α → Observation α → Environment α → σ →
    Except Fault (Tally α) × Environment α × σ
  | 0, tally, _, env, actor => (.ok tally, env, actor)
  | fuel + 1, tally, seen, env, actor =>
    if env.done then (.ok tally, env, actor)
    else match Actor.act actor seen train with
      | (.error e, actor) => (.error e, env, actor)
      | (.ok action, actor) =>
        match env.step action with
        | (.error e, env) => (.error e, env, actor)
        | (.ok r, env) =>
          match learnFrom train actor seen action r with
          | (.error e, actor) => (.error e, env, actor)
          | (.ok (), actor) => steps train fuel (tally.add r) r.observation env actor

/-- A new episode from its first observation to its record. -/
def run (train : Bool) (episode : Nat) (env : Environment α) (actor : σ) :
    Except Fault (EpisodeRecord α) × Environment α × σ :=
  let (seen, env) := env.reset
  let actor := if train then Actor.startEpisode actor else actor
  match steps train env.rules.settings.maxSteps .zero seen env actor with
  | (.error e, env, actor) => (.error e, env, actor)
  | (.ok tally, env, actor) =>
    (.ok
      { episode
        totalReward := tally.totalReward
        success := tally.success
        steps := tally.steps
        reason := env.episode.reason
        program := env.program },
      env, actor)

end Rollout
end ProgramGym
