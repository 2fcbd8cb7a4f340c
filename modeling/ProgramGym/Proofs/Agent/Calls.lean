import ProgramGym.Proofs.Random

/-! What is asked of an agent, one call after the other. A call either draws or leaves the source
alone, and the source has no say in anything else. Main statement: agents that differ at most in
how many draws they have made answer every sequence of calls alike. -/
namespace ProgramGym.Agent

/-- A call of an agent. To look at it shows all that it can tell of itself; to wait sets its
clock. -/
inductive Call where
  | act (features : List Float) (explore : Bool)
  | startEpisode
  | learn (features : List Float) (action : Quantity Float) (reward : Float) (next : List Float)
      (done : Bool)
  | setEpsilon (epsilon : Float)
  | decayEpsilon
  | reset
  | save
  | load (text : String)
  | look
  | wait (now : Instant)

inductive Reply where
  | action (answer : Except Fault (Quantity Float))
  | done (answer : Except Fault Unit)
  | text (answer : Except Fault String)
  | view (spaces : Spaces) (episodes : Quantity Float) (learner : Learner)

/-- The learner with exploration set by hand. Only Q-learning has it. -/
def setLearnerEpsilon (l : Learner) (epsilon : Float) : Except Fault Learner :=
  match l with
  | .qlearning q => (setEpsilon q epsilon).map .qlearning
  | _ => .error .wrongKind

def decayLearnerEpsilon (l : Learner) : Except Fault Learner :=
  match l with
  | .qlearning q => .ok (.qlearning q.decay)
  | _ => .error .wrongKind

/-- Takes a learner over, unless there is none. -/
def take (a : Agent) : Except Fault Learner → Reply × Agent
  | .ok learner => (.done (.ok ()), { a with learner })
  | .error fault => (.done (.error fault), a)

def perform (a : Agent) : Call → Reply × Agent
  | .act features explore =>
    let (answer, a) := a.act features explore
    (.action answer, a)
  | .startEpisode => (.done (.ok ()), a.startEpisode)
  | .learn features action reward next done =>
    let (answer, a) := a.learn features action reward next done
    (.done answer, a)
  | .setEpsilon epsilon => a.take (setLearnerEpsilon a.learner epsilon)
  | .decayEpsilon => a.take (decayLearnerEpsilon a.learner)
  | .reset => (.done (.ok ()), a.reset)
  | .save => (.text a.save, a)
  | .load text =>
    let (answer, a) := a.load text
    (.done answer, a)
  | .look => (.view a.spaces a.episodes a.learner, a)
  | .wait now => (.done (.ok ()), { a with clock := now })

/-- The replies to calls in turn. -/
def answers (a : Agent) : List Call → List Reply
  | [] => []
  | call :: calls => (a.perform call).1 :: answers (a.perform call).2 calls

/-- The agent after calls, those that are refused among them. -/
def after (a : Agent) (calls : List Call) : Agent := calls.foldl (fun a call => (a.perform call).2) a

/-- What every call keeps, all calls keep. -/
theorem keeps_after {property : Agent → Prop}
    (step : ∀ a call, property a → property (a.perform call).2) {a : Agent} (holds : property a)
    (calls : List Call) : property (a.after calls) := by
  induction calls generalizing a with
  | nil => exact holds
  | cons call calls ih => exact ih (step a call holds)

/-- The second agent is the first one with a source of the same stream. -/
structure Twin (a b : Agent) : Prop where
  stream : a.source.stream = b.source.stream
  rest : b = { a with source := b.source }

/-- A call that has nothing to do with the source of an agent. -/
def Call.Sourceless (call : Call) : Prop :=
  ∀ (a : Agent) (s : Source Float), { a with source := s }.perform call =
    ((a.perform call).1, { (a.perform call).2 with source := s })

section
variable {a b : Agent}

theorem twin_withSource (a : Agent) {s t : Source Float} (stream : s.stream = t.stream) :
    Twin { a with source := s } { a with source := t } := ⟨stream, rfl⟩

theorem Call.Sourceless.twin {call : Call} (sourceless : call.Sourceless) (twin : Twin a b) :
    (a.perform call).1 = (b.perform call).1 ∧ Twin (a.perform call).2 (b.perform call).2 := by
  obtain ⟨stream, rest⟩ := twin
  have own : (a.perform call).2 = { (a.perform call).2 with source := a.source } :=
    congrArg Prod.snd (sourceless a a.source)
  rw [rest, sourceless a b.source, own]
  exact ⟨rfl, stream, rfl⟩

theorem Call.Sourceless.source {call : Call} (sourceless : call.Sourceless) (a : Agent) :
    (a.perform call).2.source = a.source :=
  congrArg (fun answered => answered.2.source) (sourceless a a.source)

theorem sourceless_learn (features : List Float) (action : Quantity Float) (reward : Float)
    (next : List Float) (done : Bool) :
    (Call.learn features action reward next done).Sourceless := by
  intro a s
  have admitted : { a with source := s }.admits features action next done =
      a.admits features action next done := rfl
  simp only [perform, learn, admitted]
  cases a.admits features action next done with
  | error fault => rfl
  | ok i => cases done <;> rfl

section
variable (a : Agent) (s : Source Float) (saved : SavedAgent)

theorem loadQ_withSource (q : QLearner Float) : { a with source := s }.loadQ q saved =
    ((a.loadQ q saved).1, { (a.loadQ q saved).2 with source := s }) := by
  have fits : { a with source := s }.fitsWeights = a.fitsWeights := rfl
  unfold loadQ
  rw [fits]
  cases QSettings.resolve saved.settingsGiven with
  | error fault => rfl
  | ok settings => cases a.fitsWeights saved.weights <;> rfl

theorem loadPolicy_withSource (p : PolicyLearner Float) : { a with source := s }.loadPolicy p saved =
    ((a.loadPolicy p saved).1, { (a.loadPolicy p saved).2 with source := s }) := by
  have fits : { a with source := s }.fitsWeights = a.fitsWeights := rfl
  unfold loadPolicy
  rw [fits]
  cases PolicySettings.resolve saved.settingsGiven with
  | error fault => rfl
  | ok settings => cases a.fitsWeights saved.weights <;> rfl

end

theorem load_withSource (a : Agent) (s : Source Float) (text : String) :
    { a with source := s }.load text = ((a.load text).1, { (a.load text).2 with source := s }) := by
  have read : { a with source := s }.readOwn text = a.readOwn text := rfl
  unfold load
  rw [read]
  cases a.readOwn text with
  | error fault => rfl
  | ok saved =>
    obtain ⟨spaces, source, clock, episodes, updated, learner⟩ := a
    cases learner with
    | random => rfl
    | qlearning q => exact loadQ_withSource _ s saved q
    | policyGradient p => exact loadPolicy_withSource _ s saved p

theorem sourceless_load (text : String) : (Call.load text).Sourceless := by
  intro a s
  simp only [perform, load_withSource a s text]

theorem sourceless_take {call : Call} (f : Learner → Except Fault Learner)
    (takes : ∀ a : Agent, a.perform call = a.take (f a.learner)) : call.Sourceless := by
  intro a s
  rw [takes, takes]
  cases f a.learner <;> rfl

theorem sourceless_startEpisode : Call.startEpisode.Sourceless := by
  rintro ⟨spaces, source, clock, episodes, updated, learner⟩ s
  cases learner <;> rfl

/-- Acting and beginning anew draw, and no draw hangs on how many there were. -/
theorem act_twin (stream : a.source.stream = b.source.stream)
    (rest : b = { a with source := b.source }) (features : List Float) (explore : Bool) :
    (a.act features explore).1 = (b.act features explore).1 ∧
      Twin (a.act features explore).2 (b.act features explore).2 := by
  obtain ⟨action, after⟩ := a.blind_choose features explore a.source b.source stream
  have checked : b.requireFeatures features = a.requireFeatures features := by
    rw [rest]
    rfl
  dsimp only at action after
  rw [← rest] at action after
  simp only [act, checked]
  cases a.requireFeatures features with
  | error fault => exact ⟨rfl, stream, rest⟩
  | ok => exact ⟨congrArg Except.ok action, after, by rw [rest]⟩

theorem reset_twin (stream : a.source.stream = b.source.stream)
    (rest : b = { a with source := b.source }) : Twin a.reset b.reset := by
  obtain ⟨learner, after⟩ := a.learner.blind_restart a.spaces a.source b.source stream
  refine ⟨?_, ?_⟩
  · rw [rest]
    exact after
  · rw [rest]
    simp only [reset]
    rw [learner]

theorem perform_twin (twin : Twin a b) (call : Call) :
    (a.perform call).1 = (b.perform call).1 ∧ Twin (a.perform call).2 (b.perform call).2 := by
  cases call with
  | act features explore =>
    obtain ⟨action, after⟩ := act_twin twin.stream twin.rest features explore
    exact ⟨congrArg Reply.action action, after⟩
  | startEpisode => exact sourceless_startEpisode.twin twin
  | learn features action reward next done =>
    exact (sourceless_learn features action reward next done).twin twin
  | setEpsilon epsilon =>
    exact (sourceless_take (setLearnerEpsilon · epsilon) fun _ => rfl).twin twin
  | decayEpsilon => exact (sourceless_take decayLearnerEpsilon fun _ => rfl).twin twin
  | reset => exact ⟨rfl, reset_twin twin.stream twin.rest⟩
  | load text => exact (sourceless_load text).twin twin
  | save | look | wait now => exact ⟨by rw [twin.rest]; rfl, twin.stream, by rw [twin.rest]; rfl⟩

/-- Twins answer alike. -/
theorem answers_twin (twin : Twin a b) (calls : List Call) : a.answers calls = b.answers calls := by
  induction calls generalizing a b with
  | nil => rfl
  | cons call calls ih =>
    obtain ⟨reply, after⟩ := perform_twin twin call
    rw [answers, answers, reply, ih after]

end
end ProgramGym.Agent
