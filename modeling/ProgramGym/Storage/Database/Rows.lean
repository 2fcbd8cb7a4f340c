import ProgramGym.Storage.Database

/-! Rows of the database as JSON objects by column name. -/
namespace ProgramGym

def ExperimentRow.json (r : ExperimentRow) : Json :=
  .object
    [("id", Json.ofOption (fun s => .text s) r.id), ("type", .text r.type),
     ("agent_type", Json.ofOption (fun s => .text s) r.agent), ("dsl_name", .text r.language),
     ("task_id", .text r.task), ("reward_name", Json.ofOption (fun s => .text s) r.reward),
     ("config_json", Json.ofOption (fun s => .text s) r.config), ("status", .text r.status),
     ("final_metrics_json", Json.ofOption (fun s => .text s) r.finalMetrics),
     ("agent_state", Json.ofOption (fun s => .text s) r.agentState), ("train_time_ms", r.trainTime.json),
     ("created_at", .text r.created)]

def EpisodeRow.json (r : EpisodeRow) : Json :=
  .object
    [("id", .nat r.id), ("experiment_id", .text r.experiment),
     ("episode_num", r.cells.episode.json), ("total_reward", r.cells.totalReward.json),
     ("success", .nat (if r.cells.success then 1 else 0)), ("steps", r.cells.steps.json),
     ("terminal_reason", Json.ofOption (fun s => .text s) r.cells.reason),
     ("program", Json.ofOption (fun s => .text s) r.cells.program)]

def EvaluationRow.json (r : EvaluationRow) : Json :=
  .object
    [("id", .nat r.id), ("experiment_id", .text r.experiment), ("episode_num", r.episode.json),
     ("success_rate", r.successRate.json), ("mean_reward", r.meanReward.json),
     ("metrics_json", .text r.metrics)]

def CheckpointRow.json (r : CheckpointRow) : Json :=
  .object [("namespace", .text r.namespace_), ("key", .text r.key), ("payload", .text r.payload)]

def ExperimentStats.json (s : ExperimentStats) : Json :=
  .object
    [("totalEpisodes", .nat s.totalEpisodes), ("avgReward", .number s.averageReward),
     ("successRate", .number s.successRate),
     ("outcomeDistribution", .object (s.outcomes.map fun (name, n) => (name, .nat n)))]

/-- All tables; what is written here can be read again. -/
def Database.json (d : Database) : Json :=
  .object
    [("experiments", .array (d.experiments.map ExperimentRow.json)),
     ("episodes", .array (d.episodes.map EpisodeRow.json)),
     ("evaluations", .array (d.evaluations.map EvaluationRow.json)),
     ("checkpoints", .array (d.checkpoints.map CheckpointRow.json))]

namespace Cell

def ofJson : Json → Cell
  | .number x => ofNumber x
  | .text t => text t.toString
  | _ => null

end Cell

namespace Database
open Json

def column? {β : Type} (read : Json → Option β) (j : Json) (name : Text) : Option β :=
  (j.get? name).bind read

def cell (j : Json) (name : Text) : Cell := ((j.get? name).map Cell.ofJson).getD .null

def count? (j : Json) : Option Nat := j.number?.bind Number.toNat?

def experimentRow? (j : Json) : Option ExperimentRow := do
  let type ← column? string? j "type"
  let language ← column? string? j "dsl_name"
  let task ← column? string? j "task_id"
  let status ← column? string? j "status"
  let created ← column? string? j "created_at"
  pure
    { id := column? string? j "id", type, agent := column? string? j "agent_type", language, task
      reward := column? string? j "reward_name", config := column? string? j "config_json"
      completed := status == ExperimentRow.completedStatus
      finalMetrics := column? string? j "final_metrics_json"
      agentState := column? string? j "agent_state", trainTime := cell j "train_time_ms", created }

def episodeRow? (j : Json) : Option EpisodeRow := do
  let id ← column? count? j "id"
  let experiment ← column? string? j "experiment_id"
  let success ← column? count? j "success"
  pure
    { id, experiment
      cells :=
        { episode := cell j "episode_num", totalReward := cell j "total_reward"
          success := success == 1, steps := cell j "steps"
          reason := column? string? j "terminal_reason", program := column? string? j "program" } }

def evaluationRow? (j : Json) : Option EvaluationRow := do
  let id ← column? count? j "id"
  let experiment ← column? string? j "experiment_id"
  let metrics ← column? string? j "metrics_json"
  pure ⟨id, experiment, cell j "episode_num", cell j "success_rate", cell j "mean_reward", metrics⟩

def checkpointRow? (j : Json) : Option CheckpointRow := do
  let namespace_ ← column? string? j "namespace"
  let key ← column? string? j "key"
  let payload ← column? string? j "payload"
  pure ⟨namespace_, key, payload⟩

def rows? {β : Type} (read : Json → Option β) (j : Json) (table : Text) : Option (List β) :=
  (column? items? j table).bind (·.mapM read)

/-- An open database with the tables of a document. -/
def ofJson? (now : Instant) (j : Json) : Option Database := do
  let experiments ← rows? experimentRow? j "experiments"
  let episodes ← rows? episodeRow? j "episodes"
  let evaluations ← rows? evaluationRow? j "evaluations"
  let checkpoints ← rows? checkpointRow? j "checkpoints"
  pure ⟨true, now, experiments, episodes, evaluations, checkpoints⟩

end Database
end ProgramGym
