/-! The help text of the command line. -/
namespace ProgramGym.CommandLine

def usage : String := "
RL Training Script for DSL Program Synthesis

Usage: npx tsx src/rl/train.ts [command] [options]

Commands:
  train         Train one agent on one task (default)
  compare       Train random, Q-learning and policy-gradient agents and compare them
  curriculum    Train one agent through a sequence of tasks
  evaluate      Evaluate a stored agent greedily (needs --continue)
  list          List stored experiments
  tasks         List DSLs and tasks

Options:
  --dsl NAME          DSL to generate (default: calc)
  --task ID           Task id (default: 001)
  --tasks A,B,C       Curriculum task sequence (default: every task of the DSL)
  --agent TYPE        random | qlearning | pg (default: qlearning)
  --episodes N        Training episodes (per stage for curriculum, default: 1000)
  --eval-every N      Evaluate every N episodes, 0 disables (default: 100)
  --eval-episodes N   Episodes per evaluation (default: 10)
  --save-every N      Checkpoint every N episodes, 0 disables (default: 500)
  --max-steps N       Token budget per episode (default: 20)
  --reward NAME       correctness | efficiency (default: correctness)
  --seed N            Seed for reproducible runs (env: RL_SEED)
  --log-dir DIR       Directory for training curves (env: RL_LOG_DIR)
  --continue ID       Continue training (or evaluate) a stored experiment
  --quiet             Only print the summary
  --help              Show this help message

Examples:
  npx tsx src/rl/train.ts train --dsl echo --task 001 --episodes 2000
  npx tsx src/rl/train.ts train --agent pg --reward efficiency --seed 7
  npx tsx src/rl/train.ts compare --dsl calc --task 002 --episodes 1000
  npx tsx src/rl/train.ts curriculum --dsl calc --tasks 001,002,003
  npx tsx src/rl/train.ts train --continue <experiment-id> --episodes 500

Continued Training:
  The agent's weights are loaded from the experiment, Q-learning epsilon is reset
  to 0.1, and each continuation creates a new experiment entry.
"

end ProgramGym.CommandLine
