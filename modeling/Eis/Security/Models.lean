import Mathlib.Data.Rat.Defs
import Eis.Foundation.Uuid

/-!
# Security, governance and audit models

The frozen dataclasses of the security layer.  A `frozenset` is the list of its
members in the order of iteration; costs and seconds are rationals.
-/

set_option autoImplicit false

namespace Eis.Security

inductive RiskLevel where
  | low | medium | high | critical
deriving DecidableEq

inductive AuthorizationStatus where
  | allowed | denied | approvalRequired | unknown
deriving DecidableEq

inductive ApprovalStatus where
  | pending | approved | rejected | expired
deriving DecidableEq

structure Principal where
  id : String
  roles : List String := []
  authenticated : Bool := true
deriving DecidableEq

structure Permission where
  action : String
  resource : String
deriving DecidableEq

structure Role where
  name : String
  permissions : List Permission := []
deriving DecidableEq

structure AgentIdentity where
  id : UUID
  role : String
  permissions : List Permission := []
deriving DecidableEq

structure ResourceRestriction where
  resource : String
  allowedActions : List String
deriving DecidableEq

structure AuthorizationRequest where
  principal : Principal
  action : String
  resource : String
  riskLevel : RiskLevel := .low
  agent : Option AgentIdentity := none
  tool : Option String := none
  taskId : Option UUID := none
  target : Option String := none
deriving DecidableEq

structure AuthorizationDecision where
  status : AuthorizationStatus
  reason : String
  approvalRequired : Bool := false
deriving DecidableEq

structure ApprovalRequest where
  action : String
  resource : String
  actor : String
  reason : String
  riskLevel : RiskLevel
  taskId : Option UUID := none
  id : UUID
deriving DecidableEq

structure Approval where
  requestId : UUID
  status : ApprovalStatus
  approver : Option String := none
  reason : Option String := none
deriving DecidableEq

/-- `metadata` holds the one entry that `_audit` writes, under `"resource"`. -/
structure AuditRecord where
  actor : String
  agent : Option String
  task : Option String
  action : String
  tool : Option String
  target : Option String
  timestamp : String
  result : String
  riskLevel : RiskLevel
  authorization : AuthorizationStatus
  failure : Option String := none
  metadata : List (String × String) := []
  id : UUID
deriving DecidableEq

structure GovernanceLimits where
  maxActionsPerWindow : ℤ := 60
  windowSeconds : ℚ := 60
  maxCost : ℚ := 100
  maxExecutionSeconds : ℚ := 600
deriving DecidableEq

/-- `action` is the text of an `ActionType` or the string itself. -/
structure ActionRequest where
  actor : Principal
  action : String
  resource : String
  riskLevel : RiskLevel := .low
  tool : Option String := none
  target : Option String := none
  taskId : Option UUID := none
  agent : Option AgentIdentity := none
  estimatedCost : ℚ := 0
  estimatedSeconds : ℚ := 0
deriving DecidableEq

end Eis.Security
