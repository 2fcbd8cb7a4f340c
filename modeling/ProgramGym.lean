import ProgramGym.Agent.Reader
import ProgramGym.CommandLine.Requests
import ProgramGym.Curve.Documents
import ProgramGym.Environment.Reader
import ProgramGym.Linear.Documents
import ProgramGym.Main
import ProgramGym.Metrics.Documents
import ProgramGym.Observation.Documents
import ProgramGym.Proofs.Agent.Baseline
import ProgramGym.Proofs.Agent.Conservation
import ProgramGym.Proofs.Agent.Counters
import ProgramGym.Proofs.Agent.Episodes
import ProgramGym.Proofs.Agent.Exploration
import ProgramGym.Proofs.Agent.Foreign
import ProgramGym.Proofs.Agent.Refusals
import ProgramGym.Proofs.Agent.Restoring
import ProgramGym.Proofs.Agent.Saveable
import ProgramGym.Proofs.Agent.Turns
import ProgramGym.Proofs.Calc.Evaluation
import ProgramGym.Proofs.Calc.Printing
import ProgramGym.Proofs.Catalog
import ProgramGym.Proofs.Catalog.Documents
import ProgramGym.Proofs.ClosedLoop
import ProgramGym.Proofs.CommandLine.Counts
import ProgramGym.Proofs.Curriculum.Directories
import ProgramGym.Proofs.Curriculum.FinalEvaluation
import ProgramGym.Proofs.Documents.Agents
import ProgramGym.Proofs.Documents.Environments
import ProgramGym.Proofs.Documents.Metrics
import ProgramGym.Proofs.Documents.Observations
import ProgramGym.Proofs.Environment.Executions
import ProgramGym.Proofs.Environment.Faults
import ProgramGym.Proofs.Environment.Payments
import ProgramGym.Proofs.Environment.Policies
import ProgramGym.Proofs.Environment.Scoring
import ProgramGym.Proofs.Exact.Averages
import ProgramGym.Proofs.Greedy
import ProgramGym.Proofs.Metrics.Aggregates
import ProgramGym.Proofs.Metrics.Comparisons
import ProgramGym.Proofs.Random.Seeded
import ProgramGym.Proofs.Resetting
import ProgramGym.Proofs.Returns
import ProgramGym.Proofs.Rollout.Evaluations
import ProgramGym.Proofs.Sampling
import ProgramGym.Proofs.Storage.Listing
import ProgramGym.Proofs.Storage.Statistics
import ProgramGym.Proofs.Storage.Stores
import ProgramGym.Proofs.Trainer.Failures
import ProgramGym.Proofs.Trainer.Resuming
import ProgramGym.Proofs.Trainer.Schedule
import ProgramGym.Proofs.Trainer.Windows
import ProgramGym.Storage.Checkpoints.Requests
import ProgramGym.Storage.Database.Requests
import ProgramGym.Trainer.Printer
