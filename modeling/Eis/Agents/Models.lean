import Eis.Foundation.Uuid
import Eis.Foundation.Value

/-!
# Agents, plans and results

Outputs of tools have the type `ω`.
-/

set_option autoImplicit false

namespace Eis.Agents

inductive AgentState where
  | receive
  | understand
  | plan
  | execute
  | observe
  | verify
  | complete
  | escalate
deriving DecidableEq

structure AgentPermission where
  action : String
  resource : String
deriving DecidableEq

structure Agent where
  id : UUID
  identity : String
  role : String
  permissions : List AgentPermission := []

structure AgentTask where
  objective : String
  input : Value := .none
  id : UUID

structure AgentStep where
  name : String
  action : String
  resource : Option String := none
  input : Value := .none
  id : UUID

structure AgentPlan where
  steps : List AgentStep

structure AgentResult (ω : Type) where
  state : AgentState
  output : Option ω := none
  error : Option String := none
  escalated : Bool := false
  observations : List ω := []

end Eis.Agents
