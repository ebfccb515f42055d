import Eis.Security.Gateway

/-!
# External actions behind the gateway

`IntegrationSecurity` prepares a request, runs the action of its caller and records how
it ended.  The action is awaited, so other callers may use the gateway meanwhile.
-/

set_option autoImplicit false

namespace Eis.Integrations

open Eis.Security

/-- How an action ends; `cancelled` is an exception that is no `Exception`. -/
inductive Ending (α : Type) where
  | returned (value : α)
  | raised (message : String)
  | cancelled

/-- An action as the gateway sees it.  Whatever happens to the gateway meanwhile, its
audit sink only grows. -/
structure Action (α : Type) where
  ending : Ending α
  meanwhile : SecurityGateway → SecurityGateway
  appends : ∀ gateway, gateway.audit <+: (meanwhile gateway).audit

inductive Outcome (α : Type) where
  | returned (value : α)
  | raised (message : String)
  | cancelled
  | refused (error : SecurityError)

structure IntegrationSecurity where
  gateway : SecurityGateway
  principal : Principal

section Calls
variable {α : Type}

/-- `complete`, and then what the caller gets unless it raises. -/
def settle (gateway : SecurityGateway) (request : ActionRequest) (result : String)
    (failure : Option String) (reading : Reading) (outcome : Outcome α) :
    SecurityGateway × Outcome α :=
  match gateway.complete request result failure 0 0 reading with
  | (after, .ok ()) => (after, outcome)
  | (after, .error error) => (after, .refused error)

/-- The `except` clause and what follows it. -/
def finish (gateway : SecurityGateway) (request : ActionRequest) (reading : Reading) :
    Ending α → SecurityGateway × Outcome α
  | .returned value => settle gateway request "success" none reading (.returned value)
  | .raised message =>
      settle gateway request "failed" (some message) reading (.raised message)
  | .cancelled => (gateway, .cancelled)

namespace IntegrationSecurity

/-- The common body of `read` and `write`. -/
def perform (security : IntegrationSecurity) (request : ActionRequest)
    (approval : Option Approval) (action : Action α) (prepared completed : Reading) :
    SecurityGateway × Outcome α :=
  match security.gateway.prepare request approval prepared with
  | (gateway, .error error) => (gateway, .refused error)
  | (gateway, .ok _) => finish (action.meanwhile gateway) request completed action.ending

def readRequest (security : IntegrationSecurity) (resource operation : String) :
    ActionRequest :=
  { actor := security.principal
    action := "read"
    resource := resource
    target := some operation }

def read (security : IntegrationSecurity) (resource operation : String) (action : Action α)
    (prepared completed : Reading) : SecurityGateway × Outcome α :=
  security.perform (security.readRequest resource operation) none action prepared completed

def writeRequest (security : IntegrationSecurity) (resource operation : String) :
    ActionRequest :=
  { actor := security.principal
    action := "write"
    resource := resource
    riskLevel := .high
    target := some operation }

def write (security : IntegrationSecurity) (resource operation : String) (action : Action α)
    (approval : Option Approval) (prepared completed : Reading) : SecurityGateway × Outcome α :=
  security.perform (security.writeRequest resource operation) approval action prepared completed

end IntegrationSecurity

inductive Attempt (α : Type) where
  | executeApproved (gateway : SecurityGateway) (request : ActionRequest)
      (approval : Option Approval) (result : String) (failure : Option String)
      (actualCost actualSeconds : ℚ)
  | read (security : IntegrationSecurity) (resource operation : String) (action : Action α)
  | write (security : IntegrationSecurity) (resource operation : String) (action : Action α)
      (approval : Option Approval)

namespace Attempt

def gateway : Attempt α → SecurityGateway
  | .executeApproved gateway _ _ _ _ _ _ => gateway
  | .read security _ _ _ => security.gateway
  | .write security _ _ _ _ => security.gateway

def request : Attempt α → ActionRequest
  | .executeApproved _ request _ _ _ _ _ => request
  | .read security resource operation _ => security.readRequest resource operation
  | .write security resource operation _ _ => security.writeRequest resource operation

def approval : Attempt α → Option Approval
  | .executeApproved _ _ approval _ _ _ _ => approval
  | .read _ _ _ _ => none
  | .write _ _ _ _ approval => approval

/-- `execute_approved` runs no action itself. -/
def action : Attempt α → Option (Action α)
  | .executeApproved _ _ _ _ _ _ _ => none
  | .read _ _ _ action => some action
  | .write _ _ _ action _ => some action

def after (prepared completed : Reading) : Attempt α → SecurityGateway
  | .executeApproved gateway request approval result failure actualCost actualSeconds =>
      (gateway.executeApproved request approval result failure actualCost actualSeconds
        prepared completed).1
  | .read security resource operation action =>
      (security.read resource operation action prepared completed).1
  | .write security resource operation action approval =>
      (security.write resource operation action approval prepared completed).1

def Passed (attempt : Attempt α) (prepared : Reading) : Prop :=
  ∃ decision,
    (attempt.gateway.prepare attempt.request attempt.approval prepared).2 = .ok decision

def left : Attempt α → SecurityGateway → SecurityGateway
  | .executeApproved _ _ _ _ _ _ _, gateway => gateway
  | .read _ _ _ action, gateway => action.meanwhile gateway
  | .write _ _ _ action _, gateway => action.meanwhile gateway

def ended (completed : Reading) (gateway : SecurityGateway) : Attempt α → SecurityGateway
  | .executeApproved _ request _ result failure actualCost actualSeconds =>
      (gateway.complete request result failure actualCost actualSeconds completed).1
  | .read security resource operation action =>
      (finish gateway (security.readRequest resource operation) completed action.ending).1
  | .write security resource operation action _ =>
      (finish gateway (security.writeRequest resource operation) completed action.ending).1

def others (attempt : Attempt α) (prepared : Reading) : List AuditRecord :=
  match attempt.gateway.prepare attempt.request attempt.approval prepared with
  | (gateway, .ok _) => (attempt.left gateway).audit.drop gateway.audit.length
  | (_, .error _) => []

def Truthful (attempt : Attempt α) (prepared : Reading) (record : AuditRecord) : Prop :=
  ∀ action, attempt.action = some action →
    (record.result = "success" ↔
      attempt.Passed prepared ∧ ∃ value, action.ending = .returned value)

/-- One record is added besides those of other callers. -/
def AuditedOnce (attempt : Attempt α) (prepared completed : Reading) : Prop :=
  ∃ record, attempt.Truthful prepared record ∧
    (attempt.after prepared completed).audit =
      attempt.gateway.audit ++ attempt.others prepared ++ [record]

def Ends : Attempt α → Prop
  | .executeApproved _ _ _ _ _ actualCost actualSeconds => 0 ≤ actualCost ∧ 0 ≤ actualSeconds
  | .read _ _ _ action => action.ending ≠ .cancelled
  | .write _ _ _ action _ => action.ending ≠ .cancelled

/-- What is refused for want of permission or approval is recorded; what is cleared is
recorded within the limits and when it ends. -/
def Recorded (attempt : Attempt α) (prepared : Reading) : Prop :=
  attempt.gateway.Cleared attempt.request attempt.approval →
    attempt.gateway.WithinLimits attempt.request prepared ∧ attempt.Ends

/-! ## What an attempt records -/

section Laws
variable {gateway : SecurityGateway} {request : ActionRequest} {approval : Option Approval}
  {prepared : Reading}

theorem prepare_records (uncleared : ¬ gateway.Cleared request approval) (prepared : Reading) :
    ∃ after error record, record.result ≠ "success" ∧
      after.audit = gateway.audit ++ [record] ∧
      gateway.prepare request approval prepared = (after, .error error) := by
  obtain ⟨result, failure, error, unsuccessful, refused⟩ :=
    SecurityGateway.prepare_refused uncleared prepared
  exact ⟨_, error, _, unsuccessful, rfl, refused⟩

theorem prepare_exceeds (cleared : gateway.Cleared request approval)
    (exceeds : ¬ gateway.WithinLimits request prepared) :
    ∃ after error, after.audit = gateway.audit ∧
      gateway.prepare request approval prepared = (after, .error error) := by
  rw [SecurityGateway.prepare_cleared cleared]
  unfold SecurityGateway.govern
  unfold SecurityGateway.WithinLimits at exceeds
  cases checked : (gateway.governance.check request prepared.monotonic).2 with
  | error error =>
    exact ⟨{ gateway with governance := (gateway.governance.check request prepared.monotonic).1 },
      error, rfl, rfl⟩
  | ok => exact absurd checked exceeds

theorem prepare_passes (cleared : gateway.Cleared request approval)
    (within : gateway.WithinLimits request prepared) :
    ∃ after, after.audit = gateway.audit ∧
      gateway.prepare request approval prepared =
        (after, .ok approvedDecision) := by
  rw [SecurityGateway.prepare_cleared cleared]
  unfold SecurityGateway.govern
  unfold SecurityGateway.WithinLimits at within
  rw [within]
  exact ⟨{ gateway with governance := (gateway.governance.check request prepared.monotonic).1 },
    rfl, rfl⟩

theorem finish_audit (action : Action α) (gateway : SecurityGateway) (request : ActionRequest)
    (completed : Reading) :
    (¬ action.ending ≠ .cancelled ∧
        (finish gateway request completed action.ending).1.audit = gateway.audit) ∨
      (action.ending ≠ .cancelled ∧ ∃ record : AuditRecord,
        (record.result = "success" ↔ ∃ value, action.ending = .returned value) ∧
        (finish gateway request completed action.ending).1.audit = gateway.audit ++ [record]) := by
  have recorded : ∀ result failure (outcome : Outcome α),
      ∃ record : AuditRecord, record.result = result ∧
        (settle gateway request result failure completed outcome).1.audit =
          gateway.audit ++ [record] := by
    intro result failure outcome
    unfold settle
    rw [SecurityGateway.complete_valid gateway request result failure le_rfl le_rfl]
    exact ⟨_, rfl, rfl⟩
  cases action.ending with
  | returned value =>
    obtain ⟨record, result, audit⟩ := recorded "success" none (.returned value)
    exact Or.inr ⟨nofun, record, by simp [result], audit⟩
  | raised message =>
    obtain ⟨record, result, audit⟩ := recorded "failed" (some message) (.raised message)
    exact Or.inr ⟨nofun, record, by simp [result], audit⟩
  | cancelled => exact Or.inl ⟨fun running => running rfl, rfl⟩

theorem after_eq (attempt : Attempt α) (prepared completed : Reading) :
    attempt.after prepared completed =
      match attempt.gateway.prepare attempt.request attempt.approval prepared with
      | (gateway, .error _) => gateway
      | (gateway, .ok _) => attempt.ended completed (attempt.left gateway) := by
  cases attempt with
  | executeApproved before request approval result failure actualCost actualSeconds =>
    simp only [after, SecurityGateway.executeApproved, Attempt.gateway, Attempt.request,
      Attempt.approval]
    rcases before.prepare request approval prepared with ⟨gateway, error | decision⟩ <;> rfl
  | read security resource operation action =>
    simp only [after, IntegrationSecurity.read, IntegrationSecurity.perform, Attempt.gateway,
      Attempt.request, Attempt.approval]
    rcases security.gateway.prepare _ none prepared with ⟨gateway, error | decision⟩ <;> rfl
  | write security resource operation action approval =>
    simp only [after, IntegrationSecurity.write, IntegrationSecurity.perform, Attempt.gateway,
      Attempt.request, Attempt.approval]
    rcases security.gateway.prepare _ approval prepared with ⟨gateway, error | decision⟩ <;> rfl

theorem left_audit (attempt : Attempt α) (gateway : SecurityGateway) :
    (attempt.left gateway).audit =
      gateway.audit ++ (attempt.left gateway).audit.drop gateway.audit.length := by
  have grows : gateway.audit <+: (attempt.left gateway).audit := by
    cases attempt with
    | executeApproved => exact List.prefix_rfl
    | read security resource operation action => exact action.appends gateway
    | write security resource operation action approval => exact action.appends gateway
  exact List.prefix_iff_eq_append.mp grows |>.symm

theorem ended_audit (attempt : Attempt α) (gateway : SecurityGateway) (completed : Reading) :
    (¬ attempt.Ends ∧ (attempt.ended completed gateway).audit = gateway.audit) ∨
      (attempt.Ends ∧ ∃ record,
        (∀ action, attempt.action = some action →
          (record.result = "success" ↔ ∃ value, action.ending = .returned value)) ∧
        (attempt.ended completed gateway).audit = gateway.audit ++ [record]) := by
  cases attempt with
  | executeApproved before request approval result failure actualCost actualSeconds =>
    by_cases invalid : actualCost < 0 ∨ actualSeconds < 0
    · refine Or.inl ⟨?_, ?_⟩
      · intro ⟨cost, seconds⟩
        exact invalid.elim (not_lt.mpr cost) (not_lt.mpr seconds)
      · simp only [ended, SecurityGateway.complete_invalid gateway request result failure invalid]
    · obtain ⟨cost, seconds⟩ := not_or.mp invalid
      refine Or.inr ⟨⟨not_lt.mp cost, not_lt.mp seconds⟩,
        gateway.auditRecord request approvedDecision result failure completed, ?_, ?_⟩
      · intro action none
        cases none
      · simp only [ended, SecurityGateway.complete_valid gateway request result failure
          (not_lt.mp cost) (not_lt.mp seconds)]
  | read security resource operation action =>
    obtain cancelled | ⟨ends, record, truthful, audit⟩ := finish_audit action gateway
      (security.readRequest resource operation) completed
    · exact Or.inl cancelled
    · refine Or.inr ⟨ends, record, ?_, audit⟩
      intro other same
      cases same
      exact truthful
  | write security resource operation action approval =>
    obtain cancelled | ⟨ends, record, truthful, audit⟩ := finish_audit action gateway
      (security.writeRequest resource operation) completed
    · exact Or.inl cancelled
    · refine Or.inr ⟨ends, record, ?_, audit⟩
      intro other same
      cases same
      exact truthful

end Laws

/-- One record is added exactly when the request is not cleared, or is within the limits
and ends with a valid usage or without being cancelled. -/
theorem auditedOnce_iff (attempt : Attempt α) (prepared completed : Reading) :
    attempt.AuditedOnce prepared completed ↔ attempt.Recorded prepared := by
  by_cases cleared : attempt.gateway.Cleared attempt.request attempt.approval
  · by_cases within : attempt.gateway.WithinLimits attempt.request prepared
    · obtain ⟨gateway, audit, passed⟩ := prepare_passes cleared within
      have others : attempt.others prepared =
          (attempt.left gateway).audit.drop gateway.audit.length := by
        unfold Attempt.others
        rw [passed]
      have before : (attempt.left gateway).audit =
          attempt.gateway.audit ++ attempt.others prepared := by
        rw [left_audit, audit, others, audit]
      obtain ⟨unended, kept⟩ | ⟨ends, record, truthful, added⟩ :=
        ended_audit attempt (attempt.left gateway) completed
      · refine iff_of_false ?_ fun recorded => unended (recorded cleared).2
        intro ⟨record, _, appended⟩
        rw [after_eq, passed, kept, before] at appended
        exact absurd appended (by simp)
      · refine iff_of_true ⟨record, ?_, ?_⟩ fun _ => ⟨within, ends⟩
        · intro action given
          rw [truthful action given]
          exact (and_iff_right ⟨approvedDecision, congrArg Prod.snd passed⟩).symm
        · rw [after_eq, passed, added, before]
    · obtain ⟨gateway, error, audit, exceeded⟩ := prepare_exceeds cleared within
      refine iff_of_false ?_ fun recorded => within (recorded cleared).1
      intro ⟨record, _, appended⟩
      rw [after_eq, exceeded, audit] at appended
      exact absurd appended (by simp)
  · obtain ⟨gateway, error, record, unsuccessful, audit, refused⟩ :=
      prepare_records cleared prepared
    refine iff_of_true ⟨record, ?_, ?_⟩ fun permitted => absurd permitted cleared
    · intro action _
      refine iff_of_false unsuccessful ?_
      intro ⟨⟨decision, passed⟩, _⟩
      rw [refused] at passed
      cases passed
    · have others : attempt.others prepared = [] := by
        unfold Attempt.others
        rw [refused]
      rw [after_eq, refused, audit, others, List.append_nil]

def cancelledWrite : Attempt Unit :=
  .write { gateway := { authorizer := {} }, principal := { id := "operator" } }
    "github/repos/demo" "create issue"
    { ending := .cancelled, meanwhile := id, appends := fun _ => List.prefix_rfl }
    (some { requestId := ⟨0⟩, status := .approved })

def readingAtZero : Reading where
  monotonic := 0
  timestamp := "2026-10-01T00:00:00+00:00"
  recordId := ⟨1⟩

/-- The action was started and nothing is recorded. -/
theorem cancelledWrite_unrecorded :
    cancelledWrite.Passed readingAtZero ∧
      ¬ cancelledWrite.AuditedOnce readingAtZero readingAtZero := by
  have audit : (cancelledWrite.after readingAtZero readingAtZero).audit = [] := by decide +kernel
  refine ⟨⟨approvedDecision, by decide +kernel⟩, ?_⟩
  intro ⟨record, _, appended⟩
  rw [audit] at appended
  simp at appended

end Attempt

end Calls

end Eis.Integrations
