import Mathlib.Data.List.Dedup
import Mathlib.Data.List.Sort
import Eis.Foundation.Utf8
import Eis.Security.Redaction
import Eis.Tools.Policies

/-!
# The secure executor

`SecureExecutor.execute` as its `try` block, which checks the request and
invokes the tool, its `except` branches, and its `finally` block, which records
the audit event.  Tools, policies and the clock are parameters.
-/

set_option autoImplicit false

namespace Eis.Tools

open Security

structure Tool where
  definition : ToolDefinition
  execute : ToolRequest → ToolOutcome

structure SecureExecutor where
  tools : String → Option Tool
  audit : List AuditEvent := []
  authorize : ToolRequest → ToolDefinition → Except ToolException Unit :=
    ({} : SecurityPolicy).authorize
  limits : ExecutionLimits := {}
  protector : RedactingProtector := {}

/-- What the `try` block leaves behind: its local variables, the request that
the tool was invoked with, and how the block ended. -/
structure Attempt where
  definition : Option ToolDefinition := none
  authorization : AuthorizationStatus := .unknown
  invoked : Option ToolRequest := none
  ending : ToolOutcome

/-- `set(definition.permissions) - set(request.granted_permissions)`, sorted. -/
def missingPermissions (definition : ToolDefinition) (request : ToolRequest) : List String :=
  (definition.permissions.dedup.filter fun permission =>
    decide (permission ∉ request.grantedPermissions)).insertionSort (· ≤ ·)

namespace SecureExecutor

def capText (executor : SecureExecutor) (text : String) : String :=
  Utf8.decode (Utf8.slice (Utf8.encode text) executor.limits.maxOutputBytes)

def capOutput (executor : SecureExecutor) (result : ToolResult) : ToolResult :=
  { result with
    output :=
      match result.output with
      | .str text => .str (executor.capText text)
      | .dict items => .dict (executor.protector.redactItems items)
      | output => output
    stdout := executor.capText result.stdout
    stderr := executor.capText result.stderr }

/-- The `try` block. -/
def attempt (executor : SecureExecutor) (request : ToolRequest) : Attempt :=
  match executor.tools request.tool with
  | none => { ending := .raised (.other ("tool is not registered: " ++ request.tool)) }
  | some tool =>
      match executor.limits.validate tool.definition request with
      | .error exception => { definition := some tool.definition, ending := .raised exception }
      | .ok () =>
          if missingPermissions tool.definition request ≠ [] then
            { definition := some tool.definition
              ending := .raised (.permissionError ("missing permissions: " ++
                String.intercalate ", " (missingPermissions tool.definition request))) }
          else
            match executor.authorize request tool.definition with
            | .error exception =>
                { definition := some tool.definition, ending := .raised exception }
            | .ok () =>
                { definition := some tool.definition
                  authorization := .allowed
                  invoked := some request
                  ending :=
                    match tool.execute request with
                    | .returned result => .returned (executor.capOutput result)
                    | .raised exception => .raised exception
                    | .cancelled => .cancelled }

/-- What the `except` branches make of the ending: the status, error and
authorization to be audited, and the result to be returned. -/
structure Settled where
  status : ExecutionStatus
  error : Option String
  authorization : AuthorizationStatus
  result : Option ToolResult

def timeoutText : Option ToolDefinition → String
  | some definition => "tool timed out after " ++ fixed3 definition.timeoutSeconds ++ "s"
  | none => "tool timed out"

/-- `ToolResult(status, error=error, request_id=request.request_id)` -/
def failure (request : ToolRequest) (status : ExecutionStatus) (error : String)
    (authorization : AuthorizationStatus) : Settled where
  status := status
  error := some error
  authorization := authorization
  result := some { status := status, error := some error, requestId := some request.requestId }

def settle (request : ToolRequest) (attempt : Attempt) : Settled :=
  match attempt.ending with
  | .returned result => ⟨result.status, result.error, attempt.authorization, some result⟩
  | .raised (.timeoutError _) =>
      failure request .timeout (timeoutText attempt.definition) attempt.authorization
  | .raised (.permissionError message) => failure request .denied message .denied
  | .raised (.other message) => failure request .failed message attempt.authorization
  | .cancelled => ⟨.failed, none, attempt.authorization, none⟩

/-- `definition.execution_policy` and `definition.risk_level` of the `finally` block -/
def audited : Option ToolDefinition → ExecutionPolicy × RiskLevel
  | some definition => (definition.executionPolicy, definition.riskLevel)
  | none => (.prohibited, .critical)

def auditEvent (executor : SecureExecutor) (request : ToolRequest) (attempt : Attempt)
    (settled : Settled) (seconds : ℚ) : AuditEvent where
  requestId := request.requestId
  tool := request.tool
  status := settled.status
  policy := (audited attempt.definition).1
  riskLevel := (audited attempt.definition).2
  agentId := request.agentId
  taskId := request.taskId
  arguments := executor.protector.redactDict request.arguments
  error := executor.protector.redactText settled.error
  durationSeconds := seconds
  actor := request.actorId
  target := executor.protector.redactText request.target
  authorization := settled.authorization

/-- What a call of `execute` leaves behind; without a result it was cancelled. -/
structure Executed where
  executor : SecureExecutor
  invoked : Option ToolRequest
  result : Option ToolResult

def execute (executor : SecureExecutor) (request : ToolRequest) (seconds : ℚ) : Executed :=
  let attempt := executor.attempt request
  let settled := settle request attempt
  { executor :=
      { executor with
        audit := executor.audit ++ [executor.auditEvent request attempt settled seconds] }
    invoked := attempt.invoked
    result := settled.result }

/-! ## The gate and the audit -/

/-- Every check that stands before the tool is passed. -/
structure Admitted (executor : SecureExecutor) (request : ToolRequest) (tool : Tool) : Prop where
  registered : executor.tools request.tool = some tool
  arguments : (request.arguments.rows.length : ℤ) ≤ executor.limits.maxArguments
  timeoutPositive : 0 < tool.definition.timeoutSeconds
  timeout : tool.definition.timeoutSeconds ≤ executor.limits.maxTimeoutSeconds
  permitted : ∀ permission ∈ tool.definition.permissions,
    permission ∈ request.grantedPermissions
  authorized : executor.authorize request tool.definition = .ok ()

structure GatedAndAudited (executor : SecureExecutor) (request : ToolRequest)
    (executed : Executed) : Prop where
  gated : ∀ invocation, executed.invoked = some invocation →
    invocation = request ∧ ∃ tool, Admitted executor request tool
  audited : ∃ event, executed.executor.audit = executor.audit ++ [event] ∧
    event.requestId = request.requestId ∧ event.tool = request.tool ∧
      ∀ result, executed.result = some result → event.status = result.status
  answered : executed.result = none →
    ∃ tool, Admitted executor request tool ∧ tool.execute request = .cancelled

theorem missingPermissions_eq_nil_iff (definition : ToolDefinition) (request : ToolRequest) :
    missingPermissions definition request = [] ↔
      ∀ permission ∈ definition.permissions, permission ∈ request.grantedPermissions := by
  unfold missingPermissions
  rw [← List.length_eq_zero_iff, List.length_insertionSort, List.length_eq_zero_iff,
    List.filter_eq_nil_iff]
  simp [List.mem_dedup]

theorem attempt_cases (executor : SecureExecutor) (request : ToolRequest) :
    ((executor.attempt request).invoked = none ∧
        ∃ exception, (executor.attempt request).ending = .raised exception) ∨
      ∃ tool, Admitted executor request tool ∧
        (executor.attempt request).invoked = some request ∧
          ((executor.attempt request).ending = .cancelled → tool.execute request = .cancelled) := by
  unfold attempt
  cases registered : executor.tools request.tool with
  | none => exact Or.inl ⟨rfl, _, rfl⟩
  | some tool =>
      simp only
      split
      · exact Or.inl ⟨rfl, _, rfl⟩
      · rename_i valid
        obtain ⟨arguments, positive, timeout⟩ :=
          (ExecutionLimits.validate_eq_ok_iff _ _ _).mp valid
        split
        · exact Or.inl ⟨rfl, _, rfl⟩
        · rename_i complete
          have permitted := (missingPermissions_eq_nil_iff _ _).mp (not_not.mp complete)
          split
          · exact Or.inl ⟨rfl, _, rfl⟩
          · rename_i authorized
            refine Or.inr ⟨tool, ⟨registered, arguments, positive, timeout, permitted,
              authorized⟩, rfl, ?_⟩
            cases outcome : tool.execute request with
            | returned result => simp
            | raised exception => simp
            | cancelled => simp

/-- Whatever the ending, what is audited is what is returned, and only a
cancelled call returns nothing. -/
theorem settle_cases (request : ToolRequest) (attempt : Attempt) :
    (attempt.ending = .cancelled ∧ (settle request attempt).result = none) ∨
      ∃ result, (settle request attempt).result = some result ∧
        (settle request attempt).status = result.status := by
  unfold settle
  rcases attempt.ending with result | (message | message | message) | _
  · exact Or.inr ⟨result, rfl, rfl⟩
  · exact Or.inr ⟨_, rfl, rfl⟩
  · exact Or.inr ⟨_, rfl, rfl⟩
  · exact Or.inr ⟨_, rfl, rfl⟩
  · exact Or.inl ⟨rfl, rfl⟩

/-- A tool runs only for a request that has passed every check, and whatever
happens one event is recorded, with the status that is returned. -/
theorem gated_and_audited (executor : SecureExecutor) (request : ToolRequest) (seconds : ℚ) :
    GatedAndAudited executor request (executor.execute request seconds) := by
  constructor
  case gated =>
    intro invocation invoked
    rcases executor.attempt_cases request with ⟨uninvoked, _⟩ | ⟨tool, admitted, same, _⟩
    · simp [execute, uninvoked] at invoked
    · obtain rfl : request = invocation := Option.some.inj (same.symm.trans invoked)
      exact ⟨rfl, tool, admitted⟩
  case audited =>
    refine ⟨_, rfl, rfl, rfl, fun result returned => ?_⟩
    rcases settle_cases request (executor.attempt request) with ⟨_, none⟩ | ⟨own, some, same⟩
    · simp [execute, none] at returned
    · obtain rfl : own = result := Option.some.inj (some.symm.trans returned)
      exact same
  case answered =>
    intro unanswered
    rcases settle_cases request (executor.attempt request) with ⟨cancelled, _⟩ | ⟨own, some, _⟩
    · rcases executor.attempt_cases request with ⟨_, exception, raised⟩ | ⟨tool, admitted, _, same⟩
      · simp [raised] at cancelled
      · exact ⟨tool, admitted, same cancelled⟩
    · simp [execute, some] at unanswered

end SecureExecutor

end Eis.Tools
