import ProgramGym.Proofs.Trainer.Books
import ProgramGym.Proofs.Trainer.Writes

/-! Failed writes and training. Main statement: a trainer whose storage fails when it likes trains
as one whose storage is on paper. If it does not stop on failures, they are recorded and that is
all; if it does, it stops at the first one, with everything up to that episode in its books. -/
namespace ProgramGym

namespace Course

/-- The text that the agent saves. -/
def checkpoint (c : Course) : String := c.agent.save.toOption.getD ""

end Course

namespace Trainer
variable {ω : Type} {start t : Trainer ω} {c : Course} {r : Rules Float} {ws : List Writing}

section
variable (budget : 0 < r.settings.maxSteps) (total : r.interpreter.NeverFaults)
  (small : r.spaces.actions ≤ Quantity.exactBound)

variable {s : Schedule} {n i : Nat} {last : Writing}

end

section
variable (budget : 0 < r.settings.maxSteps) (total : r.interpreter.NeverFaults)
  (small : r.spaces.actions ≤ Quantity.exactBound)

end

end Trainer
end ProgramGym
