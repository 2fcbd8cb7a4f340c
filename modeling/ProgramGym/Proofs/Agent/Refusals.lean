import ProgramGym.Agent.Reader
import ProgramGym.Proofs.Agent.Loading
import ProgramGym.Proofs.Agent.Saveable

/-! Calls that are refused. Every check of a call comes before its first change, so a call that is
refused, for whatever argument, could as well not have been made; only a load may stop halfway.
What is checked hangs on the kind of an agent and on its spaces alone, which no call changes. Main
statements: wrong lengths of features are refused by all but the uniform chooser, which learns from
anything; and refused calls can be left out of a sequence. -/
namespace ProgramGym.Agent

/-- Why a call was refused, if it was. -/
def Reply.fault? : Reply → Option Fault
  | .action (.error fault) | .done (.error fault) | .text (.error fault) => some fault
  | _ => none

namespace Call

/-- A call that brings a stored text in. -/
def loads : Call → Bool
  | .load _ => true
  | _ => false

/-- A call that has to do with the stored form of an agent. -/
def stores : Call → Bool
  | .save | .load _ => true
  | _ => false

/-- What agents of a kind for given spaces ask of the arguments of a call. -/
def Fits (kind : AgentKind) (spaces : Spaces) : Call → Prop
  | .act features _ => features.length = spaces.features
  | .learn features action _ next done => kind = .random ∨
      (∃ i, action.indexBelow? spaces.actions = some i) ∧ features.length = spaces.features ∧
        (kind = .qlearning → done = false → next.length = spaces.features)
  | .setEpsilon epsilon => kind = .qlearning ∧ LearnerSettings.unit.contains epsilon = true
  | .decayEpsilon => kind = .qlearning
  | _ => True

end Call

section
variable {a : Agent} {features next : List Float} {action : Quantity Float} {done : Bool}

theorem requireFeatures_misfit (misfit : features.length ≠ a.spaces.features) :
    a.requireFeatures features =
      .error (.configuration (.featureLength s!"{features.length}" a.spaces.features)) := by
  simp [requireFeatures, misfit]

theorem requireFeatures_eq_ok_iff {u : Unit} :
    a.requireFeatures features = .ok u ↔ features.length = a.spaces.features := by
  constructor
  · exact length_of_requireFeatures
  · intro fits
    simp [requireFeatures, fits]

theorem requireAction_eq_ok_iff {i : Nat} :
    a.requireAction action = .ok i ↔ action.indexBelow? a.spaces.actions = some i := by
  unfold requireAction
  cases action.indexBelow? a.spaces.actions with
  | none => simp
  | some j => simp

/-- The checks of `learn`, one after the other, as one condition on its arguments. -/
theorem admits_iff : (∃ i, a.admits features action next done = .ok i) ↔
    (Call.learn features action 0 next done).Fits a.kind a.spaces := by
  unfold admits Call.Fits
  cases learner : a.learner with
  | random => simp [kind, learner, Learner.kind]
  | qlearning q =>
    have its : a.kind = .qlearning := congrArg Learner.kind learner
    cases done <;>
      simp [its, bind_eq_ok, requireAction_eq_ok_iff, requireFeatures_eq_ok_iff, pure, Except.pure]
  | policyGradient p =>
    have its : a.kind = .policyGradient := congrArg Learner.kind learner
    simp [its, bind_eq_ok, requireAction_eq_ok_iff, requireFeatures_eq_ok_iff, pure, Except.pure]

theorem learn_accepted_iff {reward : Float} :
    (a.learn features action reward next done).1 = .ok () ↔
      (Call.learn features action reward next done).Fits a.kind a.spaces := by
  rw [show (Call.learn features action reward next done).Fits a.kind a.spaces ↔ _ from
    admits_iff.symm, learn]
  cases a.admits features action next done with
  | error fault => simp
  | ok i => simp

theorem setLearnerEpsilon_accepted_iff {epsilon : Float} :
    (∃ l, setLearnerEpsilon a.learner epsilon = .ok l) ↔
      (Call.setEpsilon epsilon).Fits a.kind a.spaces := by
  unfold Call.Fits kind setLearnerEpsilon
  cases a.learner with
  | random | policyGradient p => simp [Learner.kind]
  | qlearning q =>
    cases inside : LearnerSettings.unit.contains epsilon <;>
      simp [Learner.kind, setEpsilon, LearnerSettings.require, inside, bind, Except.bind,
        Except.map, pure, Except.pure]

theorem fault?_take (learner : Except Fault Learner) :
    (a.take learner).1.fault? = none ↔ ∃ l, learner = .ok l := by
  cases learner with
  | error fault => simp [take, Reply.fault?]
  | ok l => simp [take, Reply.fault?]

theorem act_misfit (misfit : features.length ≠ a.spaces.features) (explore : Bool) :
    a.act features explore =
      (.error (.configuration (.featureLength s!"{features.length}" a.spaces.features)), a) := by
  rw [act, requireFeatures_misfit misfit]

/-- The learners check the length, the uniform chooser does not even look at the features. -/
theorem learn_misfit {i : Nat} (misfit : features.length ≠ a.spaces.features)
    (valid : action.indexBelow? a.spaces.actions = some i) (reward : Float) (next : List Float)
    (done : Bool) :
    a.learn features action reward next done =
      if a.kind = .random then (.ok (), if done then a.countEpisode else a)
      else
        (.error (.configuration (.featureLength s!"{features.length}" a.spaces.features)), a) := by
  have chosen := requireAction_eq_ok_iff.mpr valid
  have refused := requireFeatures_misfit misfit
  unfold learn admits kind
  cases learner : a.learner with
  | random =>
    have same : a.withLearner .random done = if done then a.countEpisode else a := by
      rw [withLearner, ← learner]
    exact congrArg (Prod.mk _) same
  | qlearning q | policyGradient p =>
    simp only [chosen, refused, bind, Except.bind]
    rfl

/-- Away from its stored form an agent refuses calls for their arguments alone. -/
theorem fault?_eq_none_iff {call : Call} (plain : call.stores = false) :
    (a.perform call).1.fault? = none ↔ call.Fits a.kind a.spaces := by
  cases call with
  | act features explore =>
    change (Reply.action (a.act features explore).1).fault? = none ↔ features.length = _
    rcases a.act_cases features explore with ⟨fits, acted⟩ | ⟨misfit, fault, acted⟩ <;> rw [acted]
    · simp [Reply.fault?, fits]
    · simp [Reply.fault?, misfit]
  | learn features action reward next done =>
    rw [← learn_accepted_iff]
    change (Reply.done (a.learn features action reward next done).1).fault? = none ↔ _
    cases (a.learn features action reward next done).1 with
    | error fault => simp [Reply.fault?]
    | ok u => simp [Reply.fault?]
  | setEpsilon epsilon =>
    rw [← setLearnerEpsilon_accepted_iff]
    exact fault?_take _
  | decayEpsilon =>
    refine (fault?_take _).trans ?_
    unfold Call.Fits kind decayLearnerEpsilon
    cases a.learner <;> simp [Learner.kind]
  | startEpisode | reset | look | wait now => exact ⟨fun _ => trivial, fun _ => rfl⟩
  | save | load text => cases plain

/-- A call that is refused has not begun to change anything, unless it loads. -/
theorem perform_refused {call : Call} (fresh : call.loads = false) {fault : Fault}
    (refused : (a.perform call).1.fault? = some fault) : (a.perform call).2 = a := by
  have untaken (learner : Except Fault Learner)
      (refused : (a.take learner).1.fault? = some fault) : (a.take learner).2 = a := by
    cases learner with
    | error _ => rfl
    | ok _ => cases refused
  cases call with
  | act features explore =>
    rcases a.act_cases features explore with ⟨_, acted⟩ | ⟨_, _, acted⟩
    · rw [perform, acted] at refused
      cases refused
    · rw [perform, acted]
  | learn features action reward next done =>
    rcases a.learn_cases features action reward next done with ⟨_, taken⟩ | ⟨_, _, _, taken⟩
    · rw [perform, taken]
    · rw [perform, taken] at refused
      cases refused
  | setEpsilon epsilon => exact untaken _ refused
  | decayEpsilon => exact untaken _ refused
  | save => rfl
  | startEpisode | reset | look | wait now => cases refused
  | load text => cases fresh

/-- The calls that were heeded, each with its reply. A load counts whatever becomes of it. -/
def heeded (a : Agent) (calls : List Call) : List (Call × Reply) :=
  (calls.zip (a.answers calls)).filter fun (call, reply) => call.loads || reply.fault?.isNone

theorem heeded_cons (call : Call) (calls : List Call) :
    a.heeded (call :: calls) =
      (if call.loads || (a.perform call).1.fault?.isNone then [(call, (a.perform call).1)]
        else []) ++ (a.perform call).2.heeded calls := by
  unfold heeded
  rw [answers, List.zip_cons_cons]
  cases heed : call.loads || (a.perform call).1.fault?.isNone with
  | true => exact List.filter_cons_of_pos heed
  | false => exact List.filter_cons_of_neg (by simp [heed])

/-- The calls that were heeded lead to the same agent by themselves, and get the same replies. -/
theorem heeded_suffice (calls : List Call) :
    a.after ((a.heeded calls).map Prod.fst) = a.after calls ∧
      a.answers ((a.heeded calls).map Prod.fst) = (a.heeded calls).map Prod.snd := by
  induction calls generalizing a with
  | nil => exact ⟨rfl, rfl⟩
  | cons call calls ih =>
    obtain ⟨after, answers⟩ := @ih (a.perform call).2
    rw [heeded_cons]
    cases heed : call.loads || (a.perform call).1.fault?.isNone with
    | true =>
      constructor
      · exact after
      · exact congrArg ((a.perform call).1 :: ·) answers
    | false =>
      -- the refused call has left the agent that the rest is asked of
      rw [Bool.or_eq_false_iff, Option.isNone_eq_false_iff, Option.isSome_iff_exists] at heed
      obtain ⟨fresh, fault, refused⟩ := heed
      have same := perform_refused fresh refused
      rw [same] at after answers ⊢
      refine ⟨?_, answers⟩
      change _ = (a.perform call).2.after calls
      rw [same]
      exact after

end

/-! Arguments of any kind. -/

section
open Json
variable {a : Agent} {features action reward next : Option Json} {done explore : Bool}
  {fault : Fault}

theorem actOn_refused (refused : (a.actOn features explore).1 = .error fault) :
    (a.actOn features explore).2 = a := by
  unfold actOn at refused ⊢
  cases read : a.featuresOf features with
  | error early => rfl
  | ok xs =>
    simp only [read] at refused
    rcases a.act_cases xs explore with ⟨_, acted⟩ | ⟨_, _, acted⟩
    · simp [acted] at refused
    · exact congrArg Prod.snd acted

theorem learnFrom_refused
    (refused : (a.learnFrom features action reward next done).1 = .error fault) :
    (a.learnFrom features action reward next done).2 = a := by
  have left (xs ys : List Float)
      (refused : (a.learn xs (.ofJson action) (numberOf reward) ys done).1 = .error fault) :
      (a.learn xs (.ofJson action) (numberOf reward) ys done).2 = a := by
    rcases a.learn_cases xs (.ofJson action) (numberOf reward) ys done with
      ⟨_, taken⟩ | ⟨_, _, _, taken⟩
    · exact congrArg Prod.snd taken
    · simp [taken] at refused
  revert refused
  unfold learnFrom
  dsimp only
  cases a.vectorsOf features (.ofJson action) next done with
  | error early => exact fun _ => rfl
  | ok vectors =>
    dsimp only
    -- Q-learning within an episode refuses nothing once the vectors are read
    split
    · exact nofun
    · exact left _ _

end

/-! What was asked of an agent before makes no difference. -/

section
variable {kind : AgentKind} {actions size : Quantity Float} {settings : Json.Members Json}
  {source : Source Float} {clock : Instant} {made : Agent}

/-- An observation of another length than an agent was made for, whatever the agent has been
through. It does not choose for it, and a learner does not learn from it: both are refused for the
length, and the agent is as before. The uniform chooser takes it for a step like any other, and
counts the episode if it was the last. -/
theorem misfits_caught (created : create kind actions size settings source clock = .ok made)
    (past : List Call) {features : List Float} (misfit : features.length ≠ made.spaces.features) :
    let a := made.after past
    let refusal := Fault.configuration
      (.featureLength s!"{features.length}" made.spaces.features)
    (∀ explore, a.act features explore = (.error refusal, a)) ∧
    ∀ (action : Quantity Float) (i : Nat), action.indexBelow? made.spaces.actions = some i →
      ∀ reward next done, a.learn features action reward next done =
        if kind = .random then (.ok (), if done then a.countEpisode else a)
        else (.error refusal, a) := by
  intro a refusal
  obtain ⟨spaces, its⟩ := made.after_alike past
  change a.spaces = made.spaces at spaces
  have its : a.kind = kind := its.trans (create_kind created)
  rw [← spaces] at misfit
  have told : refusal =
      .configuration (.featureLength s!"{features.length}" a.spaces.features) := by rw [spaces]
  rw [told, ← its, ← spaces]
  constructor
  · exact act_misfit misfit
  · intro action i valid reward next done
    exact learn_misfit misfit valid reward next done

theorem misfits_caught_sample :
    let a := sample.after [.learn [1] (.count 0) 1 [] true]
    let refusal := Fault.configuration (.featureLength "2" 1)
    a.act [1, 1] true = (.error refusal, a) ∧
    a.learn [1, 1] (.count 0) 1 [1] true = (.error refusal, a) := by
  have created : create .qlearning (.count 1) (.count 1) [] (.ofSeed 0) (.moment 0) = .ok sample :=
    rfl
  have ⟨acts, learns⟩ := misfits_caught created [.learn [1] (.count 0) 1 [] true]
    (show [(1 : Float), 1].length ≠ sample.spaces.features by decide)
  exact ⟨acts true, learns (.count 0) 0 rfl 1 [1] true⟩

/-- The uniform chooser trains an episode on features that it would not choose for. -/
theorem chooser_learns_from_misfit :
    create .random (.count 1) (.count 1) [] (.ofSeed 0) (.moment 0) = .ok chooser ∧
    [(0 : Float), 0].length ≠ chooser.spaces.features ∧
    (Quantity.count (α := Float) 0).indexBelow? chooser.spaces.actions = some 0 ∧
    chooser.learn [0, 0] (.count 0) 1 [0] true = (.ok (), chooser.countEpisode) ∧
    chooser.countEpisode.episodes ≠ chooser.episodes := by
  refine ⟨rfl, by decide, rfl, rfl, ?_⟩
  intro same
  cases same

/-- Refused calls, whatever an agent has been through. A call of any kind but a load that is refused
leaves the agent as it was; which calls are refused depends on the arguments, for agents of one kind
and of the same spaces; and the calls that are heeded get the same replies without the others. So it
is for arguments that are not even of the kind that was asked for. -/
theorem refusals_harmless (created : create kind actions size settings source clock = .ok made)
    (past : List Call) :
    let a := made.after past
    (∀ call : Call, call.loads = false → ∀ fault, (a.perform call).1.fault? = some fault →
      (a.perform call).2 = a) ∧
    (∀ call : Call, call.stores = false →
      ((a.perform call).1.fault? = none ↔ call.Fits kind made.spaces)) ∧
    (∀ calls, a.after ((a.heeded calls).map Prod.fst) = a.after calls ∧
      a.answers ((a.heeded calls).map Prod.fst) = (a.heeded calls).map Prod.snd) ∧
    (∀ features explore fault, (a.actOn features explore).1 = .error fault →
      (a.actOn features explore).2 = a) ∧
    ∀ features action reward next done fault,
      (a.learnFrom features action reward next done).1 = .error fault →
        (a.learnFrom features action reward next done).2 = a := by
  intro a
  obtain ⟨spaces, its⟩ := made.after_alike past
  have its : a.kind = kind := its.trans (create_kind created)
  refine ⟨fun call fresh fault => perform_refused fresh, ?_, heeded_suffice,
    fun features explore fault => actOn_refused, fun _ _ _ _ _ _ => learnFrom_refused⟩
  intro call plain
  rw [← its, ← spaces]
  exact fault?_eq_none_iff plain

/-- Calls that agents of one action and one feature refuse: for the next features, for the action,
for the probability and for the features. -/
def unfit : List Call :=
  [.learn [1] (.count 0) 1 [] false, .learn [1] (.count 1) 1 [] true, .setEpsilon 2, .act [] true]

theorem unfit_refused {call : Call} (inside : call ∈ unfit) :
    call.stores = false ∧ call.loads = false ∧ ¬ call.Fits .qlearning sample.spaces := by
  have wide : LearnerSettings.unit.contains 2 = false := by decide +kernel
  simp only [unfit, List.mem_cons, List.not_mem_nil, or_false] at inside
  rcases inside with rfl | rfl | rfl | rfl
  · refine ⟨rfl, rfl, ?_⟩
    rintro (uniform | ⟨_, _, next⟩)
    · cases uniform
    · cases next rfl rfl
  · refine ⟨rfl, rfl, ?_⟩
    rintro (uniform | ⟨⟨i, valid⟩, _⟩)
    · cases uniform
    · cases valid
  · refine ⟨rfl, rfl, fun fits => ?_⟩
    cases wide.symm.trans fits.2
  · exact ⟨rfl, rfl, nofun⟩

theorem refusals_harmless_sample :
    let a := sample.after [.learn [1] (.count 0) 1 [] true]
    ∀ call ∈ unfit, (a.perform call).1.fault? ≠ none ∧ (a.perform call).2 = a := by
  intro a call inside
  have created : create .qlearning (.count 1) (.count 1) [] (.ofSeed 0) (.moment 0) = .ok sample :=
    rfl
  obtain ⟨harmless, refuses, _⟩ := refusals_harmless created [.learn [1] (.count 0) 1 [] true]
  obtain ⟨plain, fresh, misfit⟩ := unfit_refused inside
  have refused : (a.perform call).1.fault? ≠ none :=
    fun heeded => misfit ((refuses call plain).mp heeded)
  obtain ⟨fault, found⟩ := Option.ne_none_iff_exists'.mp refused
  exact ⟨refused, harmless call fresh fault found⟩

end
end ProgramGym.Agent
