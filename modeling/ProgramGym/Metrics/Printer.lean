import ProgramGym.Environment.Printer
import ProgramGym.Metrics

/-! Records of episodes and comparisons of metrics as JSON. -/
namespace ProgramGym

def EpisodeRecord.json (r : EpisodeRecord Float) : Json :=
  .object
    [("episode", .nat r.episode), ("totalReward", .number r.totalReward),
     ("success", .bool r.success), ("steps", .nat r.steps),
     ("terminalReason", Json.ofOption TerminalReason.json r.reason), ("program", .text r.program)]

namespace Metrics

def Comparison.json (c : Comparison Float) : Json :=
  .object
    [("baseline", .number c.baseline), ("learned", .number c.learned),
     ("improvement", .number c.improvement)]

def Comparisons.json (c : Comparisons Float) : Json :=
  .object
    [("meanReward", c.meanReward.json), ("successRate", c.successRate.json),
     ("meanLength", c.meanLength.json)]

end Metrics
end ProgramGym
