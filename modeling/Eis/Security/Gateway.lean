import Mathlib.Data.Rat.Cast.Order
import Mathlib.Logic.Function.Basic
import Eis.Security.Authorizer
import Eis.Security.Redaction

/-!
# The security gateway

`InMemoryApprovalGate`, `GovernanceGuard` and `SecurityGateway`.  A call takes
the state of the gateway and answers with the next one and with what it
returned or raised; what the clocks and `uuid4` answer during the call is its
`Reading`.
-/

set_option autoImplicit false

namespace Eis.Security

inductive SecurityError where
  | authorization (message : String)
  | governanceLimit (message : String)
deriving DecidableEq

def SecurityError.message : SecurityError → String
  | .authorization message => message
  | .governanceLimit message => message

/-! ## Approvals -/

structure InMemoryApprovalGate where
  approvals : String → Option Approval := fun _ => none

namespace InMemoryApprovalGate

def store (gate : InMemoryApprovalGate) (approval : Approval) : InMemoryApprovalGate :=
  { gate with
    approvals := Function.update gate.approvals approval.requestId.str (some approval) }

def request (gate : InMemoryApprovalGate) (request : ApprovalRequest) :
    InMemoryApprovalGate × Approval :=
  (gate.store { requestId := request.id, status := .pending },
    { requestId := request.id, status := .pending })

def resolution (approval : Approval) (approver : String) (approved : Bool)
    (reason : String) : Approval :=
  { requestId := approval.requestId
    status := if approved then .approved else .rejected
    approver := some approver
    reason := some reason }

def resolve (gate : InMemoryApprovalGate) (approval : Approval) (approver : String)
    (approved : Bool) (reason : String) :
    Except SecurityError (InMemoryApprovalGate × Approval) :=
  if Text.strip approver = "" ∨ Text.strip reason = "" then
    .error (.authorization "approval requires an identified approver and reason")
  else .ok (gate.store (resolution approval approver approved reason),
    resolution approval approver approved reason)

@[simp] theorem approvals_store (gate : InMemoryApprovalGate) (approval : Approval) :
    (gate.store approval).approvals =
      Function.update gate.approvals approval.requestId.str (some approval) := rfl

theorem resolve_eq_ok_iff {gate resolved : InMemoryApprovalGate} {approval updated : Approval}
    {approver reason : String} {approved : Bool} :
    gate.resolve approval approver approved reason = .ok (resolved, updated) ↔
      (Text.strip approver ≠ "" ∧ Text.strip reason ≠ "") ∧
        resolved = gate.store updated ∧
        updated = resolution approval approver approved reason := by
  unfold resolve
  split
  · rename_i blank
    simp only [reduceCtorEq, false_iff]
    rintro ⟨⟨named, explained⟩, _⟩
    exact blank.elim named explained
  · rename_i identified
    simp only [not_or] at identified
    constructor
    · intro success
      obtain ⟨rfl, rfl⟩ := Prod.mk.inj (Except.ok.inj success)
      exact ⟨identified, rfl, rfl⟩
    · rintro ⟨_, rfl, rfl⟩
      rfl

end InMemoryApprovalGate

/-! ## Governance -/

structure GovernanceGuard where
  limits : GovernanceLimits := {}
  actions : List ℚ := []
  cost : ℚ := 0
  executionSeconds : ℚ := 0
deriving DecidableEq

namespace GovernanceGuard

def prune (guard : GovernanceGuard) (now : ℚ) : GovernanceGuard :=
  { guard with
    actions := guard.actions.filter fun stamp => now - stamp ≤ guard.limits.windowSeconds }

/-- The stamps outside the window are dropped also when the check refuses. -/
def check (guard : GovernanceGuard) (request : ActionRequest) (now : ℚ) :
    GovernanceGuard × Except SecurityError Unit :=
  (guard.prune now,
    if guard.limits.maxActionsPerWindow ≤ (guard.prune now).actions.length then
      .error (.governanceLimit "action rate limit exceeded")
    else if request.estimatedCost < 0 ∨
        guard.limits.maxCost < guard.cost + request.estimatedCost then
      .error (.governanceLimit "cost limit exceeded")
    else if request.estimatedSeconds < 0 ∨
        guard.limits.maxExecutionSeconds < guard.executionSeconds + request.estimatedSeconds then
      .error (.governanceLimit "execution limit exceeded")
    else .ok ())

def commit (guard : GovernanceGuard) (actualCost actualSeconds now : ℚ) :
    GovernanceGuard × Except SecurityError Unit :=
  if actualCost < 0 ∨ actualSeconds < 0 then
    (guard, .error (.governanceLimit "negative usage is invalid"))
  else
    ({ guard with
      actions := guard.actions ++ [now]
      cost := guard.cost + actualCost
      executionSeconds := guard.executionSeconds + actualSeconds }, .ok ())

end GovernanceGuard

/-! ## The gateway -/

def highRiskActions : List String :=
  ["production_deploy", "destructive_database", "delete_repository", "delete_file",
    "credential_change", "external_communication", "financial_action"]

structure Reading where
  monotonic : ℚ
  timestamp : String
  recordId : UUID
deriving DecidableEq

structure SecurityGateway where
  authorizer : RoleAuthorizer
  audit : List AuditRecord := []
  approvalGate : InMemoryApprovalGate := {}
  governance : GovernanceGuard := {}
  protector : RedactingProtector := {}

namespace ActionRequest

def HighRisk (request : ActionRequest) : Prop :=
  request.action ∈ highRiskActions ∨ request.riskLevel = .high ∨ request.riskLevel = .critical

instance (request : ActionRequest) : Decidable request.HighRisk :=
  inferInstanceAs (Decidable (_ ∨ _))

def authorizationRequest (request : ActionRequest) : AuthorizationRequest :=
  { principal := request.actor
    action := request.action
    resource := request.resource
    riskLevel := request.riskLevel
    agent := request.agent
    tool := request.tool
    taskId := request.taskId
    target := request.target }

end ActionRequest

def Approved (approval : Option Approval) : Prop :=
  ∃ presented, approval = some presented ∧ presented.status = .approved

def approvedDecision : AuthorizationDecision :=
  { status := .allowed, reason := "authorized" }

namespace SecurityGateway

def auditRecord (gateway : SecurityGateway) (request : ActionRequest)
    (decision : AuthorizationDecision) (result : String) (failure : Option String)
    (reading : Reading) : AuditRecord :=
  { actor := request.actor.id
    agent := request.agent.map fun agent => agent.id.str
    task := request.taskId.map UUID.str
    action := request.action
    tool := request.tool
    target := gateway.protector.redactText request.target
    timestamp := reading.timestamp
    result := result
    riskLevel := request.riskLevel
    authorization := decision.status
    failure := gateway.protector.redactText failure
    metadata := [("resource", gateway.protector.redact request.resource)]
    id := reading.recordId }

def recordAudit (gateway : SecurityGateway) (request : ActionRequest)
    (decision : AuthorizationDecision) (result : String) (failure : Option String)
    (reading : Reading) : SecurityGateway :=
  { gateway with
    audit := gateway.audit ++ [gateway.auditRecord request decision result failure reading] }

def authorize (gateway : SecurityGateway) (request : ActionRequest) : AuthorizationDecision :=
  if request.HighRisk then
    { status := .approvalRequired
      reason := "human approval required for high-risk action"
      approvalRequired := true }
  else gateway.authorizer.authorize request.authorizationRequest

/-- The tail of `prepare` behind the authorization. -/
def govern (gateway : SecurityGateway) (request : ActionRequest) (reading : Reading) :
    SecurityGateway × Except SecurityError AuthorizationDecision :=
  ({ gateway with governance := (gateway.governance.check request reading.monotonic).1 },
    (gateway.governance.check request reading.monotonic).2.map fun _ => approvedDecision)

def prepare (gateway : SecurityGateway) (request : ActionRequest) (approval : Option Approval)
    (reading : Reading) : SecurityGateway × Except SecurityError AuthorizationDecision :=
  match (gateway.authorize request).status, approval.map Approval.status with
  | .approvalRequired, some .approved => gateway.govern request reading
  | .approvalRequired, _ =>
      (gateway.recordAudit request (gateway.authorize request) "approval_required"
        (some "valid human approval missing") reading,
        .error (.authorization "valid human approval required"))
  | .allowed, _ => gateway.govern request reading
  | _, _ =>
      (gateway.recordAudit request (gateway.authorize request) "denied"
        (some (gateway.authorize request).reason) reading,
        .error (.authorization (gateway.authorize request).reason))

/-- A refused usage leaves no audit record. -/
def complete (gateway : SecurityGateway) (request : ActionRequest) (result : String)
    (failure : Option String) (actualCost actualSeconds : ℚ) (reading : Reading) :
    SecurityGateway × Except SecurityError Unit :=
  match gateway.governance.commit actualCost actualSeconds reading.monotonic with
  | (governance, .error error) => ({ gateway with governance := governance }, .error error)
  | (governance, .ok ()) =>
      (({ gateway with governance := governance }).recordAudit request approvedDecision result
        failure reading, .ok ())

def executeApproved (gateway : SecurityGateway) (request : ActionRequest)
    (approval : Option Approval) (result : String) (failure : Option String)
    (actualCost actualSeconds : ℚ) (prepared completed : Reading) :
    SecurityGateway × Except SecurityError Unit :=
  match gateway.prepare request approval prepared with
  | (gateway, .error error) => (gateway, .error error)
  | (gateway, .ok _) =>
      gateway.complete request result failure actualCost actualSeconds completed

/-! ## What the calls do -/

def Granted (gateway : SecurityGateway) (request : ActionRequest) : Prop :=
  (gateway.authorizer.authorize request.authorizationRequest).status = .allowed

def WithinLimits (gateway : SecurityGateway) (request : ActionRequest) (reading : Reading) :
    Prop :=
  (gateway.governance.check request reading.monotonic).2 = .ok ()

/-- What `prepare` asks of a request before the governance check. -/
def Cleared (gateway : SecurityGateway) (request : ActionRequest)
    (approval : Option Approval) : Prop :=
  if request.HighRisk then Approved approval else gateway.Granted request

theorem approved_iff (approval : Option Approval) :
    Approved approval ↔ approval.map Approval.status = some .approved := by
  simp [Approved]

theorem prepare_cleared {gateway : SecurityGateway} {request : ActionRequest}
    {approval : Option Approval} (cleared : gateway.Cleared request approval)
    (reading : Reading) :
    gateway.prepare request approval reading = gateway.govern request reading := by
  unfold Cleared at cleared
  unfold prepare authorize
  split at cleared
  · rename_i risky
    simp [risky, (approved_iff approval).mp cleared]
  · rename_i ordinary
    have granted : (gateway.authorizer.authorize request.authorizationRequest).status =
      .allowed := cleared
    simp [ordinary, granted]

theorem prepare_refused {gateway : SecurityGateway} {request : ActionRequest}
    {approval : Option Approval} (uncleared : ¬ gateway.Cleared request approval)
    (reading : Reading) :
    ∃ result failure error, result ≠ "success" ∧ gateway.prepare request approval reading =
      (gateway.recordAudit request (gateway.authorize request) result failure reading,
        .error error) := by
  unfold Cleared at uncleared
  unfold prepare authorize
  split at uncleared
  · rename_i risky
    rw [approved_iff] at uncleared
    exact ⟨"approval_required", some "valid human approval missing",
      .authorization "valid human approval required", by decide, by simp [risky]⟩
  · rename_i ordinary
    have denied : (gateway.authorizer.authorize request.authorizationRequest).status =
        .denied :=
      (RoleAuthorizer.authorizeWith_status fnmatch gateway.authorizer
        request.authorizationRequest).resolve_left uncleared
    exact ⟨"denied", some (gateway.authorizer.authorize request.authorizationRequest).reason,
      .authorization (gateway.authorizer.authorize request.authorizationRequest).reason,
      by decide, by simp [ordinary, denied]⟩

/-- `prepare` returns exactly for a cleared request within the limits. -/
theorem prepare_isOk_iff (gateway : SecurityGateway) (request : ActionRequest)
    (approval : Option Approval) (reading : Reading) :
    (∃ decision, (gateway.prepare request approval reading).2 = .ok decision) ↔
      gateway.Cleared request approval ∧ gateway.WithinLimits request reading := by
  by_cases cleared : gateway.Cleared request approval
  · rw [prepare_cleared cleared]
    unfold govern WithinLimits
    cases checked : (gateway.governance.check request reading.monotonic).2 <;>
      simp [cleared, Except.map]
  · obtain ⟨result, failure, error, -, refused⟩ := prepare_refused cleared reading
    simp [refused, cleared]

theorem prepare_frame (gateway : SecurityGateway) (request : ActionRequest)
    (approval : Option Approval) (reading : Reading) :
    (gateway.prepare request approval reading).1.approvalGate = gateway.approvalGate ∧
      (gateway.prepare request approval reading).1.authorizer = gateway.authorizer := by
  by_cases cleared : gateway.Cleared request approval
  · rw [prepare_cleared cleared]
    exact ⟨rfl, rfl⟩
  · obtain ⟨result, failure, error, -, refused⟩ := prepare_refused cleared reading
    rw [refused]
    exact ⟨rfl, rfl⟩

theorem complete_frame (gateway : SecurityGateway) (request : ActionRequest)
    (result : String) (failure : Option String) (actualCost actualSeconds : ℚ)
    (reading : Reading) :
    (gateway.complete request result failure actualCost actualSeconds reading).1.approvalGate =
        gateway.approvalGate ∧
      (gateway.complete request result failure actualCost actualSeconds reading).1.authorizer =
        gateway.authorizer := by
  unfold complete
  split <;> exact ⟨rfl, rfl⟩

theorem complete_invalid (gateway : SecurityGateway) (request : ActionRequest)
    (result : String) (failure : Option String) {actualCost actualSeconds : ℚ}
    (invalid : actualCost < 0 ∨ actualSeconds < 0) (reading : Reading) :
    gateway.complete request result failure actualCost actualSeconds reading =
      (gateway, .error (.governanceLimit "negative usage is invalid")) := by
  unfold complete GovernanceGuard.commit
  rw [if_pos invalid]

theorem complete_valid (gateway : SecurityGateway) (request : ActionRequest)
    (result : String) (failure : Option String) {actualCost actualSeconds : ℚ}
    (cost : 0 ≤ actualCost) (seconds : 0 ≤ actualSeconds) (reading : Reading) :
    gateway.complete request result failure actualCost actualSeconds reading =
      ({ gateway with
        audit := gateway.audit ++
          [gateway.auditRecord request approvedDecision result failure reading]
        governance :=
          { gateway.governance with
            actions := gateway.governance.actions ++ [reading.monotonic]
            cost := gateway.governance.cost + actualCost
            executionSeconds := gateway.governance.executionSeconds + actualSeconds } },
        .ok ()) := by
  have valid : ¬ (actualCost < 0 ∨ actualSeconds < 0) :=
    not_or.mpr ⟨not_lt.mpr cost, not_lt.mpr seconds⟩
  unfold complete GovernanceGuard.commit
  rw [if_neg valid]
  rfl

theorem complete_isOk_iff (gateway : SecurityGateway) (request : ActionRequest)
    (result : String) (failure : Option String) (actualCost actualSeconds : ℚ)
    (reading : Reading) :
    (gateway.complete request result failure actualCost actualSeconds reading).2 = .ok () ↔
      0 ≤ actualCost ∧ 0 ≤ actualSeconds := by
  by_cases invalid : actualCost < 0 ∨ actualSeconds < 0
  · rw [complete_invalid gateway request result failure invalid]
    constructor
    · intro success
      cases success
    · intro ⟨cost, seconds⟩
      exact absurd invalid (not_or.mpr ⟨not_lt.mpr cost, not_lt.mpr seconds⟩)
  · obtain ⟨cost, seconds⟩ := not_or.mp invalid
    rw [complete_valid gateway request result failure (not_lt.mp cost) (not_lt.mp seconds)]
    exact iff_of_true rfl ⟨not_lt.mp cost, not_lt.mp seconds⟩

theorem executeApproved_isOk_iff (gateway : SecurityGateway) (request : ActionRequest)
    (approval : Option Approval) (result : String) (failure : Option String)
    (actualCost actualSeconds : ℚ) (prepared completed : Reading) :
    (gateway.executeApproved request approval result failure actualCost actualSeconds
        prepared completed).2 = .ok () ↔
      (∃ decision, (gateway.prepare request approval prepared).2 = .ok decision) ∧
        0 ≤ actualCost ∧ 0 ≤ actualSeconds := by
  unfold executeApproved
  rcases gateway.prepare request approval prepared with ⟨after, error | decision⟩
  · simp
  · simpa using complete_isOk_iff after request result failure actualCost actualSeconds completed

theorem executeApproved_frame (gateway : SecurityGateway) (request : ActionRequest)
    (approval : Option Approval) (result : String) (failure : Option String)
    (actualCost actualSeconds : ℚ) (prepared completed : Reading) :
    (gateway.executeApproved request approval result failure actualCost actualSeconds
        prepared completed).1.approvalGate = gateway.approvalGate := by
  have before := (prepare_frame gateway request approval prepared).1
  unfold executeApproved
  rcases after : gateway.prepare request approval prepared with ⟨gateway', error | decision⟩
  · simpa [after] using before
  · rw [after] at before
    exact (complete_frame gateway' request result failure actualCost actualSeconds
      completed).1.trans before

end SecurityGateway

end Eis.Security
