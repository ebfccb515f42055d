import Eis.Foundation.Uuid
import Eis.Foundation.Value

/-!
# Models of specialized agents

Assignments, challenges and the result of a coordination, whose outputs stand
under the kinds of the agents.
-/

set_option autoImplicit false

namespace Eis.Specialized

inductive AgentKind where
  | research | product | architecture | engineering | testing | security | documentation
  | analysis
deriving DecidableEq

structure AgentAssignment where
  agent : AgentKind
  objective : String
  input : Value := .none
  id : UUID

structure AgentChallenge where
  challenger : AgentKind
  target : AgentKind
  claim : String
  evidence : List String := []
  accepted : Bool := false
deriving DecidableEq

structure CoordinationResult (ω : Type) where
  assignments : List AgentAssignment
  results : OrderedDict AgentKind ω
  challenges : List AgentChallenge := []
  escalated : Bool := false
  escalationReason : Option String := none

end Eis.Specialized
