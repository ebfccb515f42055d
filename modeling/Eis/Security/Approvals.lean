import Eis.Foundation.Run
import Eis.Security.Gateway

/-!
# Histories of the approval gate

Any sequence of `request` and `resolve` calls on the gate of a gateway and of
`prepare` and `execute_approved` calls on the gateway itself.  The record that
the gate holds for a request id comes from the last `request` or `resolve` of
that id; the gateway reads the approval it is shown, never the gate.
-/

set_option autoImplicit false

namespace Eis.Security

open Transition

inductive GatewayCall where
  | request (request : ApprovalRequest)
  | resolve (approval : Approval) (approver : String) (approved : Bool) (reason : String)
  | prepare (request : ActionRequest) (approval : Option Approval) (reading : Reading)
  | executeApproved (request : ActionRequest) (approval : Option Approval) (result : String)
      (failure : Option String) (actualCost actualSeconds : ℚ) (prepared completed : Reading)

namespace SecurityGateway

/-- The gateway after the call; a call that raises may leave it as it was. -/
def after (gateway : SecurityGateway) : GatewayCall → SecurityGateway
  | .request request =>
      { gateway with approvalGate := (gateway.approvalGate.request request).1 }
  | .resolve approval approver approved reason =>
      match gateway.approvalGate.resolve approval approver approved reason with
      | .ok (gate, _) => { gateway with approvalGate := gate }
      | .error _ => gateway
  | .prepare request approval reading => (gateway.prepare request approval reading).1
  | .executeApproved request approval result failure actualCost actualSeconds prepared
      completed =>
      (gateway.executeApproved request approval result failure actualCost actualSeconds
        prepared completed).1

end SecurityGateway

def gatewayStep (gateway : SecurityGateway) (call : GatewayCall) (next : SecurityGateway) :
    Prop :=
  gateway.after call = next

/-- Some call of the history answered this request id with an approval, naming
an approver and a reason. -/
def ApprovedIn (calls : List GatewayCall) (record : Approval) : Prop :=
  ∃ pending approver reason, GatewayCall.resolve pending approver true reason ∈ calls ∧
    Text.strip approver ≠ "" ∧ Text.strip reason ≠ "" ∧
      record = InMemoryApprovalGate.resolution pending approver true reason

/-- The gate files every record under its own id and holds an approved one
only from a resolution. -/
def GateSound (calls : List GatewayCall) (gateway : SecurityGateway) : Prop :=
  ∀ key record, gateway.approvalGate.approvals key = some record →
    record.requestId.str = key ∧ (record.status = .approved → ApprovedIn calls record)

theorem ApprovedIn.append {calls : List GatewayCall} {record : Approval}
    (approved : ApprovedIn calls record) (call : GatewayCall) :
    ApprovedIn (calls ++ [call]) record := by
  obtain ⟨pending, approver, reason, member, rest⟩ := approved
  exact ⟨pending, approver, reason, List.mem_append_left _ member, rest⟩

theorem after_approvalGate (gateway : SecurityGateway) (call : GatewayCall) :
    (gateway.after call).approvalGate = gateway.approvalGate ∨
      ∃ record, (gateway.after call).approvalGate = gateway.approvalGate.store record ∧
        (record.status = .approved → ApprovedIn [call] record) := by
  cases call with
  | request request =>
      refine Or.inr ⟨{ requestId := request.id, status := .pending }, rfl, ?_⟩
      intro approved
      cases approved
  | resolve approval approver approved reason =>
      cases resolved : gateway.approvalGate.resolve approval approver approved reason with
      | error refusal => exact Or.inl (by simp [SecurityGateway.after, resolved])
      | ok stored =>
          obtain ⟨gate, updated⟩ := stored
          obtain ⟨⟨named, explained⟩, gateExact, updatedExact⟩ :=
            InMemoryApprovalGate.resolve_eq_ok_iff.mp resolved
          refine Or.inr ⟨updated, by simp [SecurityGateway.after, resolved, gateExact], ?_⟩
          intro status
          cases approved with
          | false => simp [updatedExact, InMemoryApprovalGate.resolution] at status
          | true =>
              exact ⟨approval, approver, reason, List.mem_singleton_self _, named, explained,
                updatedExact⟩
  | prepare request approval reading =>
      exact Or.inl (gateway.prepare_frame request approval reading).1
  | executeApproved request approval result failure actualCost actualSeconds prepared completed =>
      exact Or.inl (gateway.executeApproved_frame request approval result failure actualCost
        actualSeconds prepared completed)

theorem gateSound_step (past : List GatewayCall) (gateway : SecurityGateway)
    (call : GatewayCall) (next : SecurityGateway) (sound : GateSound past gateway)
    (fired : gatewayStep gateway call next) : GateSound (past ++ [call]) next := by
  subst fired
  have kept : GateSound (past ++ [call]) gateway := by
    intro key record found
    obtain ⟨filed, approved⟩ := sound key record found
    exact ⟨filed, fun status => (approved status).append call⟩
  intro key record found
  rcases after_approvalGate gateway call with same | ⟨stored, gate, approved⟩
  · exact kept key record (same ▸ found)
  rw [gate, InMemoryApprovalGate.approvals_store] at found
  by_cases addressed : key = stored.requestId.str
  · subst addressed
    obtain rfl : stored = record := by simpa using found
    refine ⟨rfl, fun status => ?_⟩
    obtain ⟨pending, approver, reason, member, rest⟩ := approved status
    exact ⟨pending, approver, reason, List.mem_append_right past member, rest⟩
  · exact kept key record (by simpa [addressed] using found)

theorem gateSound_run {gateway final : SecurityGateway} {calls : List GatewayCall}
    (empty : gateway.approvalGate.approvals = fun _ => none)
    (run : Run gatewayStep gateway calls final) : GateSound calls final := by
  refine Run.trace_invariant (motive := GateSound) ?_ gateSound_step run
  intro key record found
  simp [empty] at found

/-! ## What a high-risk action needs -/

/-- What the gateway asks of the approval of a high-risk action: that it is an
approved one, and nothing of the gate, which it leaves alone.  Only an approval
that the gate itself holds is known to be the answer of a named approver. -/
structure PresentedApproval (calls : List GatewayCall) (gateway : SecurityGateway) : Prop where
  prepared : ∀ request approval reading, request.HighRisk →
    (∃ decision, (gateway.prepare request approval reading).2 = .ok decision) →
      Approved approval
  executed : ∀ request approval result failure actualCost actualSeconds prepared completed,
    request.HighRisk →
      (gateway.executeApproved request approval result failure actualCost actualSeconds
        prepared completed).2 = .ok () → Approved approval
  prepareUntouched : ∀ request approval reading,
    (gateway.prepare request approval reading).1.approvalGate = gateway.approvalGate
  executeUntouched : ∀ request approval result failure actualCost actualSeconds prepared
    completed, (gateway.executeApproved request approval result failure actualCost
      actualSeconds prepared completed).1.approvalGate = gateway.approvalGate
  recorded : ∀ presented, presented.status = .approved →
    gateway.approvalGate.approvals presented.requestId.str = some presented →
      ApprovedIn calls presented
  filed : ∀ id record, gateway.approvalGate.approvals (UUID.str id) = some record →
    record.requestId = id

theorem prepare_highRisk {gateway : SecurityGateway} {request : ActionRequest}
    {approval : Option Approval} {reading : Reading} (risky : request.HighRisk)
    (returned : ∃ decision, (gateway.prepare request approval reading).2 = .ok decision) :
    Approved approval := by
  have cleared := ((gateway.prepare_isOk_iff request approval reading).mp returned).1
  simpa [SecurityGateway.Cleared, risky] using cleared

theorem presented_approval_approved {gateway final : SecurityGateway}
    {calls : List GatewayCall} (empty : gateway.approvalGate.approvals = fun _ => none)
    (run : Run gatewayStep gateway calls final) : PresentedApproval calls final := by
  have sound := gateSound_run empty run
  constructor
  case prepared => exact fun _ _ _ risky returned => prepare_highRisk risky returned
  case executed =>
    intro request approval result failure actualCost actualSeconds prepared completed risky done
    have returned := (final.executeApproved_isOk_iff request approval result failure actualCost
      actualSeconds prepared completed).mp done
    exact prepare_highRisk risky returned.1
  case prepareUntouched =>
    exact fun request approval reading => (final.prepare_frame request approval reading).1
  case executeUntouched =>
    intro request approval result failure actualCost actualSeconds prepared completed
    exact final.executeApproved_frame request approval result failure actualCost actualSeconds
      prepared completed
  case recorded => exact fun presented approved found => (sound _ presented found).2 approved
  case filed => exact fun id record found => UUID.str_injective (sound _ record found).1

def payments : SecurityGateway where
  authorizer := {}

def payout : ActionRequest where
  actor := { id := "agent" }
  action := "financial_action"
  resource := "account"

def payoutAsked : GatewayCall :=
  .request
    { action := "financial_action"
      resource := "account"
      actor := "agent"
      reason := "invoice"
      riskLevel := .high
      id := ⟨3⟩ }

def payoutAnswered : GatewayCall :=
  .resolve { requestId := ⟨3⟩, status := .pending } "owner" true "reviewed"

theorem presented_approval_approved_answered :
    PresentedApproval [payoutAsked, payoutAnswered]
      ((payments.after payoutAsked).after payoutAnswered) :=
  presented_approval_approved rfl ((Run.single rfl).snoc rfl)

/-! ## An approval that the gate never issued -/

/-- The gate holds an approved answer to a request for this very action. -/
def BoundApproval (calls : List GatewayCall) (gateway : SecurityGateway)
    (request : ActionRequest) (presented : Approval) : Prop :=
  (∃ record approver reason,
    gateway.approvalGate.approvals presented.requestId.str = some record ∧
      record.status = .approved ∧ record.approver = some approver ∧
      record.reason = some reason ∧ Text.strip approver ≠ "" ∧ Text.strip reason ≠ "") ∧
    ∃ asked, GatewayCall.request asked ∈ calls ∧ asked.id = presented.requestId ∧
      asked.actor = request.actor.id ∧ asked.action = request.action ∧
      asked.resource = request.resource

def forgedApproval : Approval :=
  { requestId := ⟨7⟩, status := .approved, approver := some "owner", reason := some "reviewed" }

def forgedPayout : GatewayCall :=
  .executeApproved payout (some forgedApproval) "success" none 0 0 ⟨0, "", ⟨0⟩⟩ ⟨1, "", ⟨1⟩⟩

theorem forged_approval_passes_twice :
    (payments.executeApproved payout (some forgedApproval) "success" none 0 0 ⟨0, "", ⟨0⟩⟩
        ⟨1, "", ⟨1⟩⟩).2 = .ok () ∧
      ((payments.after forgedPayout).prepare payout (some forgedApproval) ⟨2, "", ⟨2⟩⟩).2 =
        .ok approvedDecision ∧
      ¬ BoundApproval [forgedPayout] (payments.after forgedPayout) payout forgedApproval := by
  refine ⟨by decide +kernel, by decide +kernel, ?_⟩
  rintro ⟨⟨record, approver, reason, found, _⟩, _⟩
  have untouched : (payments.after forgedPayout).approvalGate = payments.approvalGate :=
    payments.executeApproved_frame payout (some forgedApproval) "success" none 0 0 _ _
  rw [untouched] at found
  cases found

end Eis.Security
