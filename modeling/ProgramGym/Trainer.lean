import ProgramGym.Curve
import ProgramGym.Evaluation
import ProgramGym.Storage.Checkpoints

/-! Training of one agent in one environment. Episode numbers go on over the calls. Evaluations
and checkpoints come at the multiples of their intervals, a curve of all episodes is
written at the end of every call. A write that fails is reported and recorded, and ends the
call only if the plan says so; what was recorded by then stays. -/
namespace ProgramGym

/-- How to train, as asked for. -/
structure TrainingRequest where
  rollingWindow : Quantity Float := .count 100
  evalEpisodes : Quantity Float := .count 10
  verbose : Bool := true
  stopOnFailure : Bool := false
  /-- Whether evaluations report for themselves. -/
  reportEvaluations : Bool := false

structure TrainingPlan where
  rollingWindow : Nat
  evalEpisodes : Nat
  verbose : Bool
  stopOnFailure : Bool
  reportEvaluations : Bool

def TrainingPlan.resolve (r : TrainingRequest) : Except Fault TrainingPlan := do
  match r.rollingWindow.positive? with
  | none => throw (.configuration (.notPositive "rollingWindow" r.rollingWindow.text))
  | some rollingWindow =>
    let evalEpisodes ← Scene.requireCount "evalEpisodes" r.evalEpisodes
    pure ⟨rollingWindow, evalEpisodes, r.verbose, r.stopOnFailure, r.reportEvaluations⟩

/-- Where checkpoints and the curve go. -/
structure TrainingStorage (ω : Type) where
  checkpoints : CheckpointStore ω
  writeCurve : String → Op ω Unit

structure EvaluationPoint where
  episode : Nat
  metrics : Metrics Float

structure CheckpointFailure where
  episode : Nat
  key : String
  error : String
  deriving DecidableEq, Repr

/-- A finished episode as it is announced, with the evaluation that followed it. -/
structure Announcement where
  record : EpisodeRecord Float
  evaluation : Option (Metrics Float)

structure Trainer (ω : Type) where
  plan : TrainingPlan
  storage : TrainingStorage ω
  scene : Scene
  world : ω
  history : List (EpisodeRecord Float)
  evaluations : List EvaluationPoint
  checkpoints : List String
  failures : List CheckpointFailure
  announcements : List Announcement

structure TrainingResult where
  totalEpisodes : Nat
  elapsedMilliseconds : Nat
  rollingSuccessRate : Float
  averageReward : Float
  lastEvaluation : Option (Metrics Float)
  evaluations : List EvaluationPoint
  checkpoints : List String
  failures : List CheckpointFailure
  history : List (EpisodeRecord Float)

/-- The key of the checkpoint after an episode. -/
def checkpointKey (episode : Quantity Float) : String := "checkpoint_ep" ++ episode.text

def curveKey : String := "training_curve"

def curveFile : String := "training_curve.json"

namespace Progress

/-- The greatest length of a text, 2^29 - 24. -/
def longest : Int := 536870888

/-- A character so many times, the fraction cut off; not for negative or huge counts. -/
def bar? (c : Char) (count : Float) : Option (List Char) :=
  match (Binary64.ofFloat count).truncate? with
  | some n => if 0 ≤ n && n ≤ longest then some (List.replicate n.toNat c) else none
  | none => if count.isNaN then some [] else none

/-- A bar of equals signs and blanks with the percentage; all done when there is nothing to do. -/
def text? (current total width : Float) : Option String := do
  let share := if total > 0 then current / total else 1
  let filled := Number.roundHalfUp (width * share)
  let done ← bar? '=' filled
  let rest ← bar? ' ' (width - filled)
  pure ("[" ++ String.ofList (done ++ rest) ++ "] " ++ Number.percent share)

end Progress

namespace Trainer
variable {ω : Type}

def create (request : TrainingRequest) (storage : TrainingStorage ω) (scene : Scene)
    (world : ω) : Except Fault (Trainer ω) := do
  let plan ← TrainingPlan.resolve request
  pure ⟨plan, storage, scene, world, [], [], [], [], []⟩

/-- Runs an operation on the scene. -/
def inScene {β : Type} (op : Op Scene β) : Op (Trainer ω) β :=
  op.onPart (·.scene) fun t scene => { t with scene }

def inWorld {β : Type} (op : Op ω β) : Op (Trainer ω) β :=
  op.onPart (·.world) fun t world => { t with world }

section
variable {α : Type} [Scalar α]

/-- The share of successes among the latest episodes, zero if there are none. -/
@[specialize] def rollingSuccessRate (history : List (EpisodeRecord α)) (window : Quantity Float) :
    α :=
  let recent := Curve.latest window history
  if recent.isEmpty then Scalar.nat 0
  else Scalar.nat (recent.filter (·.success)).length / Scalar.nat recent.length

@[specialize] def averageReward (history : List (EpisodeRecord α)) (window : Quantity Float) : α :=
  Scalar.mean ((Curve.latest window history).map (·.totalReward))

end

def evaluate (episode : Nat) : Op (Trainer ω) (Metrics Float) := do
  let t ← get
  let metrics ← inScene (Scene.evaluate t.plan.reportEvaluations (.count t.plan.evalEpisodes))
  modify fun t => { t with evaluations := t.evaluations ++ [⟨episode, metrics⟩] }
  pure metrics

def progressText (t : Trainer ω) (episode last interval : Nat) : String :=
  let window : Quantity Float := .count interval
  let epsilon := match t.scene.agent.epsilon? with
    | some epsilon => " | Epsilon: " ++ Number.fixedText epsilon 3
    | none => ""
  (Progress.text? (Float.ofNat episode) (Float.ofNat last) 30).getD ""
    ++ " Episode " ++ (Quantity.count episode).text ++ "/" ++ (Quantity.count last).text
    ++ " | Avg Reward: " ++ Number.fixedText (averageReward t.history window) 2
    ++ " | Success: " ++ Number.percent (rollingSuccessRate t.history window) ++ epsilon

def evaluationText (episode : Nat) (m : Metrics Float) : String :=
  "  Eval @ " ++ (Quantity.count episode).text ++ ": Reward " ++ Number.fixedText m.meanReward 3
    ++ " | Success " ++ Number.percent m.successRate

/-- Does a write; a failure is reported, recorded, and passed on only if the plan says so. -/
def persist (episode : Nat) (key : String) (write : Op (Trainer ω) Unit) : Op (Trainer ω) Unit := do
  match ← write.attempt with
  | .ok () => pure ()
  | .error fault =>
    inScene (Scene.write .error s!"[Trainer] Checkpoint {key} failed: {fault.message}")
    modify fun t => { t with failures := t.failures ++ [⟨episode, key, fault.message⟩] }
    let t ← get
    if t.plan.stopOnFailure then
      match fault with
      | .checkpoint .. => throw fault
      | _ => throw (.checkpoint key (.writeFailed fault.message))

def saveCheckpoint (episode : Nat) : Op (Trainer ω) Unit :=
  let key := checkpointKey (.count episode)
  persist episode key do
    let t ← get
    let payload ← Op.ofExcept t.scene.agent.save
    inWorld (t.storage.checkpoints.save key payload)
    modify fun t => { t with checkpoints := t.checkpoints ++ [key] }

/-- Rewards, lengths and successes of all episodes. -/
def curveJson (history : List (EpisodeRecord Float)) : Json :=
  .object
    [("rewards", .array (history.map fun r => .number r.totalReward)),
     ("lengths", .array (history.map fun r => .nat r.steps)),
     ("successes", .array (history.map fun r => .nat (if r.success then 1 else 0)))]

def saveCurve (episode : Nat) : Op (Trainer ω) Unit :=
  persist episode curveKey do
    let t ← get
    inWorld (t.storage.writeCurve (curveJson t.history).indented)

/-- Whether an interval has come round; an interval of zero never does. -/
def due (interval episode : Nat) : Bool := 0 < interval && episode % interval == 0

/-- One episode with the evaluation and the checkpoint that are due after it. -/
def trainOne (episode last evalEvery saveEvery : Nat) : Op (Trainer ω) Unit := do
  let record ← inScene (Scene.runEpisode true episode)
  modify fun t => { t with history := t.history ++ [record] }
  let evaluation ←
    if due evalEvery episode then do
      let metrics ← evaluate episode
      let t ← get
      inScene (Scene.logIf t.plan.verbose (t.progressText episode last evalEvery))
      inScene (Scene.logIf t.plan.verbose (evaluationText episode metrics))
      pure (some metrics)
    else pure none
  if due saveEvery episode then saveCheckpoint episode
  modify fun t => { t with announcements := t.announcements ++ [⟨record, evaluation⟩] }

def trainMany (last evalEvery saveEvery : Nat) : (count episode : Nat) → Op (Trainer ω) Unit
  | 0, _ => pure ()
  | count + 1, episode => do
    trainOne episode last evalEvery saveEvery
    trainMany last evalEvery saveEvery count (episode + 1)

/-- The evaluation after the last episode, made now if it was not made already. -/
def finalEvaluation (last count : Nat) : Op (Trainer ω) (Option (Metrics Float)) := do
  let t ← get
  match t.evaluations.getLast? with
  | some point =>
    if point.episode == last then pure (some point.metrics)
    else if 0 < t.plan.evalEpisodes && 0 < count then some <$> evaluate last
    else pure none
  | none =>
    if 0 < t.plan.evalEpisodes && 0 < count then some <$> evaluate last else pure none

def result (t : Trainer ω) (lastEvaluation : Option (Metrics Float)) : TrainingResult where
  totalEpisodes := t.history.length
  elapsedMilliseconds := 0
  rollingSuccessRate := rollingSuccessRate t.history (.count t.plan.rollingWindow)
  averageReward := averageReward t.history (.count t.plan.rollingWindow)
  lastEvaluation
  evaluations := t.evaluations
  checkpoints := t.checkpoints
  failures := t.failures
  history := t.history

/-- Seconds with one place; the clock stands still while a call runs. -/
def seconds (milliseconds : Nat) : String :=
  Number.fixedText (Float.ofNat milliseconds / 1000) 1 ++ "s"

def announceStart (count : Nat) : Op (Trainer ω) Unit := do
  let t ← get
  let task := t.scene.env.rules.task
  let verbose := t.plan.verbose
  inScene (Scene.logIf verbose s!"[Trainer] Training {t.scene.agent.kind.name} on {task.key}")
  inScene (Scene.logIf verbose ("[Trainer] Episodes: " ++ (Quantity.count count).text
    ++ " | Target: " ++ (task.expected?.map Json.compact).getD "undefined"))

def announceEnd (r : TrainingResult) : Op (Trainer ω) Unit := do
  let t ← get
  let verbose := t.plan.verbose
  inScene (Scene.logIf verbose
    ("[Trainer] Training complete in " ++ seconds r.elapsedMilliseconds))
  inScene (Scene.logIf verbose
    ("[Trainer] Rolling success rate: " ++ Number.percent r.rollingSuccessRate))
  if verbose && !t.failures.isEmpty then
    inScene (Scene.write .warn s!"[Trainer] {t.failures.length} checkpoint write(s) failed")

/-- A whole number as an interval; one below one means never. -/
def requireInterval (name : String) (x : Quantity Float) : Except Fault Nat :=
  match x with
  | .count n => .ok n
  | .other y =>
    if Number.isWhole y then .ok 0 else .error (.configuration (.notWhole name x.text))
  | .foreign _ => .error (.configuration (.notWhole name x.text))

def train (count evalEvery saveEvery : Quantity Float) : Op (Trainer ω) TrainingResult := do
  let n ← Op.ofExcept (Scene.requireCount "numEpisodes" count)
  let evalEvery ← Op.ofExcept (requireInterval "evalEvery" evalEvery)
  let saveEvery ← Op.ofExcept (requireInterval "saveEvery" saveEvery)
  announceStart n
  let t ← get
  let last := t.history.length + n
  trainMany last evalEvery saveEvery n (t.history.length + 1)
  let lastEvaluation ← finalEvaluation last n
  saveCurve last
  let t ← get
  let r := t.result lastEvaluation
  announceEnd r
  pure r

end Trainer
end ProgramGym
