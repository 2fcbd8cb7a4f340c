import ProgramGym.Curriculum
import ProgramGym.Metrics.Printer

/-! Results of trainings and curricula as JSON. -/
namespace ProgramGym

def EvaluationPoint.json (p : EvaluationPoint) : Json :=
  .object [("episode", .nat p.episode), ("metrics", p.metrics.json)]

def CheckpointFailure.json (f : CheckpointFailure) : Json :=
  .object [("episode", .nat f.episode), ("key", .text f.key), ("error", .text f.error)]

def TrainingResult.json (r : TrainingResult) : Json :=
  .object
    [("totalEpisodes", .nat r.totalEpisodes), ("elapsedMs", .nat r.elapsedMilliseconds),
     ("rollingSuccessRate", .number r.rollingSuccessRate),
     ("averageReward", .number r.averageReward),
     ("lastEvaluation", Json.ofOption Metrics.json r.lastEvaluation),
     ("evaluations", .array (r.evaluations.map EvaluationPoint.json)),
     ("checkpoints", Json.strings r.checkpoints),
     ("checkpointFailures", .array (r.failures.map CheckpointFailure.json)),
     ("history", .array (r.history.map EpisodeRecord.json))]

def StageResult.json (r : StageResult) : Json :=
  .object [("stage", .nat r.stage), ("name", .text r.name), ("result", r.result.json)]

/-- Pairs of a name and metrics. -/
def evaluatedJson (evaluated : Json.Members (Metrics Float)) : Json :=
  .array (evaluated.map fun (name, m) => .array [.text name, m.json])

def CurriculumResult.json (r : CurriculumResult) : Json :=
  .object
    [("stages", .array (r.stages.map StageResult.json)),
     ("finalEvaluation", evaluatedJson r.finalEvaluation)]

end ProgramGym
