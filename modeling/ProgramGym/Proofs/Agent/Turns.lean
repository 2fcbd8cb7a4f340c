import Mathlib
import ProgramGym.Proofs.Agent.Updating
import ProgramGym.Proofs.Operations

/-! What a call of `learn` does in turn. It checks, looks something up and writes, one after the
other, and what is written before a check that fails would stay written. Main statement: taken turn
by turn, with the entries of the weights written one by one, a call ends as the one that makes all
its checks first and then a single update; so on every path the checks come before all writes. -/
namespace ProgramGym

/-! Lists that are changed entry by entry. -/

namespace Linear

/-- So many entries are changed, from the first on, each in a way of its own. -/
def inPlace {β : Type} (change : Nat → β → β) : (entries : Nat) → List β → List β
  | 0, xs => xs
  | n + 1, xs => (inPlace change n xs).modify n (change n)

theorem getElem?_inPlace {β : Type} (change : Nat → β → β) (n : Nat) (xs : List β) (i : Nat) :
    (inPlace change n xs)[i]? = if i < n then xs[i]?.map (change i) else xs[i]? := by
  induction n with
  | zero => rfl
  | succ n ih =>
    rw [inPlace, List.getElem?_modify, ih]
    rcases Nat.lt_trichotomy i n with earlier | rfl | later
    · rw [if_pos earlier, if_pos (by omega)]
      simp [earlier.ne']
    · simp
    · rw [if_neg (by omega), if_neg (by omega)]
      simp [later.ne]

/-- Entries that are changed by those of another list make the two lists zipped. -/
theorem inPlace_zipWith {β γ : Type} (f : β → γ → β) (default : γ) {xs : List β} {ys : List γ}
    (same : xs.length = ys.length) :
    inPlace (fun i x => f x (ys.getD i default)) xs.length xs = List.zipWith f xs ys := by
  apply List.ext_getElem?
  intro i
  rw [getElem?_inPlace, List.getElem?_zipWith]
  split
  · next inside =>
    rw [List.getElem?_eq_getElem inside, List.getElem?_eq_getElem (same ▸ inside),
      List.getD_eq_getElem _ _ (same ▸ inside)]
    rfl
  · next outside => rw [List.getElem?_eq_none (by omega)]

section
variable {α : Type} [Scalar α]

/-- A row is moved along a direction. -/
def moveRow (factor : α) (direction row : List α) : List α :=
  inPlace (fun i w => w + factor * direction.getD i Scalar.absent) row.length row

theorem moveRow_eq (factor : α) {direction row : List α} (same : row.length = direction.length) :
    moveRow factor direction row = addScaled row factor direction :=
  inPlace_zipWith (fun w x => w + factor * x) Scalar.absent same

/-- Row after row is moved, each along its own direction. -/
def moveRows (factor : α) (directions rows : List (List α)) : List (List α) :=
  inPlace (fun i row => moveRow factor (directions.getD i []) row) rows.length rows

theorem moveRows_eq (factor : α) {directions rows : List (List α)}
    (same : rows.length = directions.length)
    (columns : ∀ i (inside : i < rows.length), rows[i].length = (directions.getD i []).length) :
    moveRows factor directions rows =
      List.zipWith (fun row direction => addScaled row factor direction) rows directions := by
  rw [← inPlace_zipWith (fun row direction => addScaled row factor direction) [] same]
  apply List.ext_getElem?
  intro i
  rw [moveRows, getElem?_inPlace, getElem?_inPlace]
  split
  · next inside =>
    rw [List.getElem?_eq_getElem inside, Option.map_some, Option.map_some,
      moveRow_eq factor (columns i inside)]
  · rfl

end
end Linear

/-! Turns. -/

/-- Something that is done to an agent and the learner that it works with. -/
abbrev Turn (l β : Type) := Op (Agent × l) β

namespace Turn
variable {l β : Type}

def check (c : Agent → Except Fault β) : Turn l β := fun s => (c s.1, s)

def look (f : l → β) : Turn l β := fun s => (.ok (f s.2), s)

def write (f : l → l) : Turn l Unit := fun s => (.ok (), s.1, f s.2)

/-- An episode is counted. -/
def count : Turn l Unit := fun s => (.ok (), s.1.countEpisode, s.2)

/-- What becomes of an agent whose learner has worked. -/
def whole (wrap : l → Learner) (turn : Turn l β) (a : Agent) (learner : l) :
    Except Fault β × Agent :=
  match turn.run (a, learner) with
  | (answer, a, learner) => (answer, { a with learner := wrap learner })

section
variable {γ : Type} (s : Agent × l)

theorem run_check (c : Agent → Except Fault γ) (rest : γ → Turn l β) :
    (check c >>= rest).run s = match c s.1 with
      | .ok x => (rest x).run s
      | .error fault => (.error fault, s) := by
  have ran : (check c).run s = (c s.1, s) := rfl
  rw [Op.run_bind, ran]
  cases c s.1 <;> rfl

theorem run_look (f : l → γ) (rest : γ → Turn l β) :
    (look f >>= rest).run s = (rest (f s.2)).run s :=
  Op.run_bind (look f) rest s

theorem run_write (f : l → l) (rest : Unit → Turn l β) :
    (write f >>= rest).run s = (rest ()).run (s.1, f s.2) :=
  Op.run_bind (write f) rest s

end

theorem whole_error {wrap : l → Learner} {turn : Turn l β} {a : Agent} {learner : l} {fault : Fault}
    (own : a.learner = wrap learner)
    (ran : turn.run (a, learner) = (.error fault, a, learner)) :
    whole wrap turn a learner = (.error fault, a) := by
  rw [whole, ran]
  exact congrArg (fun learner => (Except.error fault, { a with learner })) own.symm

theorem whole_ok {wrap : l → Learner} {turn : Turn l β} {a : Agent} {before after : l} {answer : β}
    {done : Bool}
    (ran : turn.run (a, before) = (.ok answer, if done then a.countEpisode else a, after)) :
    whole wrap turn a before = (.ok answer, a.withLearner (wrap after) done) := by
  rw [whole, ran]
  cases done <;> rfl

end Turn

open Turn

/-- The action and the features are checked and the value is looked up; within an episode the next
features are checked and looked at; then the row of the action is written, and at the end of an
episode the exploration and the counters. -/
def QLearner.learnInTurn (features : List Float) (action : Quantity Float) (reward : Float)
    (next : List Float) (done : Bool) : Turn (QLearner Float) Unit := do
  let i ← check (·.requireAction action)
  check (·.requireFeatures features)
  let value ← look fun q => Linear.dot (q.weights.getD i []) features
  let target ← if done then pure reward else do
    check (·.requireFeatures next)
    look fun q => reward + q.settings.gamma * Scalar.maximum (q.values next)
  let error ← look fun q => Linear.clip (target - value) q.settings.tdErrorClip
  write fun q => { q with
    weights := q.weights.modify i (Linear.moveRow (q.settings.learningRate * error) features) }
  if done then
    write QLearner.decay
    count

/-- The action and the features are checked and the step is kept; at the end of an episode the
gradient is looked up, then the weights, the baseline, the steps and the counters are written. -/
def PolicyLearner.learnInTurn (features : List Float) (action : Quantity Float) (reward : Float)
    (done : Bool) : Turn (PolicyLearner Float) Unit := do
  let i ← check (·.requireAction action)
  check (·.requireFeatures features)
  write fun p => { p with buffer := p.buffer ++ [⟨features, i, reward⟩] }
  if done then
    let gradient ← look PolicyLearner.gradient
    write fun p => { p with weights := Linear.moveRows p.settings.learningRate gradient p.weights }
    let total ← look PolicyLearner.episodeReturn
    write (PolicyLearner.updateBaseline · total)
    write fun p => { p with buffer := [] }
    count

/-- The row that is written entry by entry is the one that replaces it. -/
theorem Spaces.Fits.modify_moveRow {spaces : Spaces} {weights : List (List Float)}
    (fits : spaces.Fits weights) {features : List Float}
    (length : features.length = spaces.features) (factor : Float) (i : Nat) :
    weights.modify i (Linear.moveRow factor features) =
      weights.set i (Linear.addScaled (weights.getD i []) factor features) := by
  rcases Nat.lt_or_ge i weights.length with inside | beyond
  · rw [List.getD_eq_getElem _ _ inside, List.modify_eq_set_get _ inside, List.get_eq_getElem,
      Linear.moveRow_eq _ ((fits.columns _ (List.getElem_mem inside)).trans length.symm)]
  · rw [List.modify_eq_self beyond, List.set_eq_of_length_le beyond]

/-- The weights are written row by row and before the baseline. -/
theorem Spaces.Fits.ascend {spaces : Spaces} {p : PolicyLearner Float}
    (fits : spaces.Fits p.weights)
    (buffered : ∀ step ∈ p.buffer, step.features.length = spaces.features) :
    let moved :=
      { p with weights := Linear.moveRows p.settings.learningRate p.gradient p.weights }
    { moved.updateBaseline p.episodeReturn with buffer := [] } = p.ascend := by
  intro moved
  subst moved
  have directions := fits_gradient fits buffered
  have same : p.weights.length = p.gradient.length := fits.rows.trans directions.rows.symm
  rw [Linear.moveRows_eq p.settings.learningRate same fun i inside => ?_]
  · unfold PolicyLearner.ascend PolicyLearner.updateBaseline
    cases p.baselineSet <;> rfl
  · rw [List.getD_eq_getElem _ _ (same ▸ inside)]
    exact (fits.columns _ (List.getElem_mem inside)).trans
      (directions.columns _ (List.getElem_mem _)).symm

namespace Agent

/-- The uniform chooser only counts its episodes. -/
def learnInTurn (a : Agent) (features : List Float) (action : Quantity Float) (reward : Float)
    (next : List Float) (done : Bool) : Except Fault Unit × Agent :=
  match a.learner with
  | .random => whole (fun _ => .random) (if done then count else pure ()) a ()
  | .qlearning q =>
    whole .qlearning (QLearner.learnInTurn features action reward next done) a q
  | .policyGradient p =>
    whole .policyGradient (PolicyLearner.learnInTurn features action reward done) a p

section
variable {a : Agent} {features next : List Float} {action : Quantity Float} {reward : Float}
  {done : Bool}

theorem run_qlearning {q : QLearner Float} {i : Nat} (fits : a.spaces.Fits q.weights)
    (chosen : a.requireAction action = .ok i) (looked : a.requireFeatures features = .ok ())
    (onward : done = false → a.requireFeatures next = .ok ()) :
    (QLearner.learnInTurn features action reward next done).run (a, q) =
      (.ok (), if done then a.countEpisode else a, q.learn features i reward next done) := by
  have moved (factor : Float) :=
    fits.modify_moveRow (length_of_requireFeatures looked) factor i
  simp only [QLearner.learnInTurn, run_check, run_look, chosen, looked]
  cases done with
  | true =>
    simp only [if_true, pure_bind, run_look, run_write, moved]
    rfl
  | false =>
    simp only [Bool.false_eq_true, if_false, run_check, onward rfl, run_look]
    simp only [run_write, moved]
    rfl

theorem run_policy {p : PolicyLearner Float} {i : Nat}
    (sound : (Learner.policyGradient p).Sound a.spaces)
    (chosen : a.requireAction action = .ok i) (looked : a.requireFeatures features = .ok ()) :
    (PolicyLearner.learnInTurn features action reward done).run (a, p) =
      (.ok (), if done then a.countEpisode else a, p.learn ⟨features, i, reward⟩ done) := by
  obtain ⟨_, _, fits, buffered⟩ := sound
  have longer : ∀ step ∈ p.buffer ++ [⟨features, i, reward⟩],
      step.features.length = a.spaces.features :=
    List.forall_mem_append.mpr
      ⟨buffered, List.forall_mem_singleton.mpr (length_of_requireFeatures looked)⟩
  simp only [PolicyLearner.learnInTurn, run_check, run_write, chosen, looked]
  cases done with
  | true =>
    have climbed := Spaces.Fits.ascend (p := { p with buffer := p.buffer ++ [_] }) fits longer
    simp only [if_true, run_look, run_write]
    exact congrArg (fun q => (Except.ok (), a.countEpisode, q)) climbed
  | false => rfl

/-- A check that fails comes before anything that is written. -/
theorem learnInTurn_eq (shaped : a.Shaped) :
    a.learnInTurn features action reward next done = a.learn features action reward next done := by
  have suits := shaped.learner
  unfold learnInTurn learn admits
  cases own : a.learner with
  | random =>
    refine @whole_ok _ _ _ _ a () () () done ?_
    cases done <;> rfl
  | qlearning q =>
    rw [own] at suits
    dsimp only
    cases chosen : a.requireAction action with
    | error fault =>
      refine whole_error own ?_
      simp only [QLearner.learnInTurn, run_check, chosen]
    | ok i =>
      cases looked : a.requireFeatures features with
      | error fault =>
        refine whole_error own ?_
        simp only [QLearner.learnInTurn, run_check, chosen, looked]
      | ok _ =>
        cases done with
        | true => exact whole_ok (run_qlearning suits.2.2 chosen looked nofun)
        | false =>
          cases onward : a.requireFeatures next with
          | error fault =>
            refine whole_error own ?_
            simp only [QLearner.learnInTurn, run_check, run_look, chosen, looked, onward,
              Bool.false_eq_true, if_false]
          | ok _ => exact whole_ok (run_qlearning suits.2.2 chosen looked fun _ => onward)
  | policyGradient p =>
    rw [own] at suits
    dsimp only
    cases chosen : a.requireAction action with
    | error fault =>
      refine whole_error own ?_
      simp only [PolicyLearner.learnInTurn, run_check, chosen]
    | ok i =>
      cases looked : a.requireFeatures features with
      | error fault =>
        refine whole_error own ?_
        simp only [PolicyLearner.learnInTurn, run_check, chosen, looked]
      | ok _ => exact whole_ok (run_policy suits chosen looked)

end

section
variable {kind : AgentKind} {actions size : Quantity Float} {settings : Json.Members Json}
  {source : Source Float} {clock : Instant} {made : Agent}

/-- Whatever has been asked of an agent, taken in turn a call of `learn` ends as `learn` says, and
one that fails has written nothing. -/
theorem learnInTurn_after (created : create kind actions size settings source clock = .ok made)
    (past : List Call) (features next : List Float) (action : Quantity Float) (reward : Float)
    (done : Bool) :
    let a := made.after past
    let turn := a.learnInTurn features action reward next done
    turn = a.learn features action reward next done ∧
      ∀ fault, turn.1 = .error fault → turn.2 = a := by
  intro a turn
  have same : turn = a.learn features action reward next done :=
    learnInTurn_eq (shaped_after created past)
  refine ⟨same, fun fault failed => ?_⟩
  rw [same, learn] at failed ⊢
  cases admitted : a.admits features action next done with
  | error refusal => rfl
  | ok i =>
    rw [admitted] at failed
    cases failed

end
end Agent
end ProgramGym
