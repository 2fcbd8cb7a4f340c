import ProgramGym.Agent

/-! What acting and learning can change about an agent. Acting draws from the source and changes
nothing else, and the greedy choice of a learner does not even draw. Learning keeps the spaces
and the source, and counts an episode exactly when it takes the last step of one. -/
namespace ProgramGym

/-- Steps that wait for the end of their episode. -/
def Learner.pending : Learner → List (PolicyStep Float)
  | policyGradient p => p.buffer
  | _ => []

namespace Agent

/-- Agents of one kind for one shape of spaces. -/
def Alike (a b : Agent) : Prop := b.spaces = a.spaces ∧ b.kind = a.kind

/-- Acting and learning change neither kind nor clock, and only an episode that is counted changes
the counter and the time of the last update; then no step waits any more. -/
structure Counts (counted : Bool) (a b : Agent) : Prop where
  alike : a.Alike b
  clock : b.clock = a.clock
  episodes : b.episodes = if counted then a.episodes.next else a.episodes
  updated : b.updated = if counted then a.clock else a.updated
  settled : counted = true → b.learner.pending = []

theorem counts_refl (a : Agent) : Counts false a a := ⟨⟨rfl, rfl⟩, rfl, rfl, rfl, nofun⟩

theorem Counts.trans {counted : Bool} {a b c : Agent} (first : Counts false a b)
    (second : Counts counted b c) : Counts counted a c where
  alike := ⟨second.alike.1.trans first.alike.1, second.alike.2.trans first.alike.2⟩
  clock := second.clock.trans first.clock
  episodes := by rw [second.episodes, first.episodes]; rfl
  updated := by rw [second.updated, first.updated, first.clock]; rfl
  settled := second.settled

variable {a b : Agent} {features next : List Float} {action : Quantity Float} {reward : Float}

theorem act_cases (a : Agent) (features : List Float) (explore : Bool) :
    (features.length = a.spaces.features ∧
      a.act features explore = (.ok (a.choose features explore).1,
        { a with source := (a.choose features explore).2 })) ∨
    (features.length ≠ a.spaces.features ∧
      ∃ fault, a.act features explore = (.error fault, a)) := by
  unfold act requireFeatures
  by_cases fits : features.length = a.spaces.features
  · exact .inl ⟨fits, by simp [fits]⟩
  · exact .inr ⟨fits, by simp [fits]⟩

theorem act_source (a : Agent) (features : List Float) (explore : Bool) :
    (a.act features explore).2 = { a with source := (a.act features explore).2.source } := by
  rcases act_cases a features explore with ⟨_, acted⟩ | ⟨_, _, acted⟩ <;> rw [acted]

/-- A learner's greedy choice draws nothing. -/
theorem act_greedy (learner : a.kind ≠ .random) (features : List Float) :
    (a.act features false).2 = a := by
  have source : (a.choose features false).2 = a.source := by
    cases chosen : a.learner with
    | random => exact absurd (congrArg Learner.kind chosen) learner
    | qlearning q | policyGradient p => rw [choose, chosen]; rfl
  rcases act_cases a features false with ⟨_, acted⟩ | ⟨_, _, acted⟩ <;> rw [acted]
  rw [source]

/-- A refused call of `learn` changes nothing; any other updates the learner, and counts an
episode at its last step. -/
theorem learn_cases (a : Agent) (features : List Float) (action : Quantity Float) (reward : Float)
    (next : List Float) (done : Bool) :
    (∃ fault, a.learn features action reward next done = (.error fault, a)) ∨
    ∃ learner, learner.kind = a.kind ∧ (done = true → learner.pending = []) ∧
      a.learn features action reward next done = (.ok (), a.withLearner learner done) := by
  unfold learn
  cases a.admits features action next done with
  | error fault => exact .inl ⟨fault, rfl⟩
  | ok i =>
    refine .inr ⟨_, ?_, fun ended => ?_, rfl⟩
    · cases learner : a.learner <;> simp [kind, learner, Learner.kind]
    · cases a.learner with
      | random | qlearning q => rfl
      | policyGradient p => simp [Learner.pending, PolicyLearner.learn, ended, PolicyLearner.ascend]

theorem withLearner_counts (a : Agent) {learner : Learner} {done : Bool}
    (kept : learner.kind = a.kind) (settled : done = true → learner.pending = []) :
    Counts done a (a.withLearner learner done) := by
  cases done <;> exact ⟨⟨rfl, kept⟩, rfl, rfl, rfl, settled⟩

/-- A new episode forgets the steps of one that was cut short and keeps all else. -/
theorem startEpisode_counts (a : Agent) : Counts false a a.startEpisode := by
  unfold startEpisode
  cases learner : a.learner with
  | policyGradient p => exact ⟨⟨rfl, by simp [kind, learner, Learner.kind]⟩, rfl, rfl, rfl, nofun⟩
  | random | qlearning q => exact counts_refl a

end Agent
end ProgramGym
