/-! The kinds of agents, the names they are stored under and the aliases they are asked for by. -/
namespace ProgramGym

inductive AgentKind where
  | random
  | qlearning
  | policyGradient
  deriving DecidableEq, Repr

namespace AgentKind

def name : AgentKind → String
  | random => "random"
  | qlearning => "qlearning"
  | policyGradient => "policy_gradient"

def all : List AgentKind := [random, qlearning, policyGradient]

def ofName? (s : String) : Option AgentKind := all.find? (·.name == s)

def aliases : List (String × AgentKind) :=
  [("random", random), ("qlearning", qlearning), ("q", qlearning),
   ("policy_gradient", policyGradient), ("pg", policyGradient), ("reinforce", policyGradient)]

/-- Case does not count in an alias. -/
def ofAlias? (s : String) : Option AgentKind := aliases.lookup s.toLower

theorem ofName?_name (k : AgentKind) : ofName? k.name = some k := by
  cases k <;> decide

end AgentKind
end ProgramGym
