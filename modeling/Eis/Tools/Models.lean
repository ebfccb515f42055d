import Mathlib.Algebra.Order.Ring.Rat
import Mathlib.Data.Rat.Floor
import Eis.Foundation.Uuid
import Eis.Foundation.Value
import Eis.Security.Models

/-!
# Requests, results and audit events of tools
-/

set_option autoImplicit false

namespace Eis.Tools

inductive ExecutionPolicy where
  | readOnly
  | safeWrite
  | controlledWrite
  | highRisk
  | prohibited
deriving DecidableEq

def ExecutionPolicy.value : ExecutionPolicy → String
  | .readOnly => "read_only"
  | .safeWrite => "safe_write"
  | .controlledWrite => "controlled_write"
  | .highRisk => "high_risk"
  | .prohibited => "prohibited"

inductive RiskLevel where
  | low
  | medium
  | high
  | critical
deriving DecidableEq

inductive ExecutionStatus where
  | success
  | failed
  | denied
  | timeout
deriving DecidableEq

structure ToolDefinition where
  name : String
  permissions : List String := []
  riskLevel : RiskLevel := .low
  timeoutSeconds : ℚ := 30
  executionPolicy : ExecutionPolicy := .readOnly

structure ToolRequest where
  tool : String
  arguments : Dict := Table.empty
  grantedPermissions : List String := []
  agentId : Option UUID := none
  taskId : Option UUID := none
  requestId : UUID
  actorId : Option String := none
  target : Option String := none

structure ToolResult where
  status : ExecutionStatus
  output : Value := .none
  error : Option String := none
  exitCode : Option ℤ := none
  stdout : String := ""
  stderr : String := ""
  durationSeconds : ℚ := 0
  requestId : Option UUID := none

structure AuditEvent where
  requestId : UUID
  tool : String
  status : ExecutionStatus
  policy : ExecutionPolicy
  riskLevel : RiskLevel
  agentId : Option UUID
  taskId : Option UUID
  arguments : Dict
  error : Option String
  durationSeconds : ℚ
  actor : Option String
  target : Option String
  authorization : Security.AuthorizationStatus

/-- The exceptions that the executor tells apart, with their texts.
`ToolSecurityError` is a `PermissionError`. -/
inductive ToolException where
  | timeoutError (message : String)
  | permissionError (message : String)
  | other (message : String)
deriving DecidableEq

/-- How `execute` of a tool ends; a `CancelledError` is no `Exception`. -/
inductive ToolOutcome where
  | returned (result : ToolResult)
  | raised (exception : ToolException)
  | cancelled

/-- `f"{seconds:.3f}"`, rounding half to even. -/
def fixed3 (seconds : ℚ) : String :=
  let thousandths := |seconds| * 1000
  let down := ⌊thousandths⌋.toNat
  let rest := thousandths - down
  let rounded :=
    if rest < 1 / 2 then down
    else if 1 / 2 < rest then down + 1
    else if down % 2 = 0 then down else down + 1
  (if seconds < 0 then "-" else "") ++ toString (rounded / 1000) ++ "." ++
    String.ofList (((toString (1000 + rounded % 1000)).toList).drop 1)

end Eis.Tools
