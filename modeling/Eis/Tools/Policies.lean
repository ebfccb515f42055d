import Eis.Tools.Models

/-!
# Policies and limits of tool execution
-/

set_option autoImplicit false

namespace Eis.Tools

structure SecurityPolicy where
  allowHighRisk : Bool := false
  allowControlledWrite : Bool := true
  allowSafeWrite : Bool := true
  allowReadOnly : Bool := true

namespace SecurityPolicy

def allows (policy : SecurityPolicy) : ExecutionPolicy → Bool
  | .readOnly => policy.allowReadOnly
  | .safeWrite => policy.allowSafeWrite
  | .controlledWrite => policy.allowControlledWrite
  | .highRisk => policy.allowHighRisk
  | .prohibited => false

def authorize (policy : SecurityPolicy) (_request : ToolRequest) (definition : ToolDefinition) :
    Except ToolException Unit :=
  if definition.executionPolicy = .prohibited then
    .error (.permissionError ("tool is prohibited: " ++ definition.name))
  else if policy.allows definition.executionPolicy then .ok ()
  else
    .error (.permissionError
      ("execution policy denied: " ++ definition.executionPolicy.value))

end SecurityPolicy

structure ExecutionLimits where
  maxOutputBytes : ℤ := 1000000
  maxArguments : ℤ := 100
  maxTimeoutSeconds : ℚ := 120

namespace ExecutionLimits

def validate (limits : ExecutionLimits) (definition : ToolDefinition) (request : ToolRequest) :
    Except ToolException Unit :=
  if limits.maxArguments < request.arguments.rows.length then
    .error (.permissionError "too many tool arguments")
  else if definition.timeoutSeconds ≤ 0 ∨ limits.maxTimeoutSeconds < definition.timeoutSeconds then
    .error (.permissionError "tool timeout exceeds execution limit")
  else .ok ()

theorem validate_eq_ok_iff (limits : ExecutionLimits) (definition : ToolDefinition)
    (request : ToolRequest) :
    limits.validate definition request = .ok () ↔
      (request.arguments.rows.length : ℤ) ≤ limits.maxArguments ∧
        0 < definition.timeoutSeconds ∧
          definition.timeoutSeconds ≤ limits.maxTimeoutSeconds := by
  unfold validate
  by_cases many : limits.maxArguments < request.arguments.rows.length
  · simp [many]
  · by_cases long : definition.timeoutSeconds ≤ 0 ∨
        limits.maxTimeoutSeconds < definition.timeoutSeconds
    · simp only [many, long, if_true, if_false, reduceCtorEq, false_iff, not_and, not_le]
      intro _ positive
      exact long.resolve_left (not_le.mpr positive)
    · simp only [many, long, if_false, true_iff]
      exact ⟨not_lt.mp many, not_le.mp (not_or.mp long).1, not_lt.mp (not_or.mp long).2⟩

end ExecutionLimits

end Eis.Tools
