import Eis.Security.Gateway

/-!
# Role permissions behind the gateway

The contract that nothing passes `prepare` or `execute_approved` without a
decision of the role authorizer in its favour, and the requests for which the
gateway keeps it.
-/

set_option autoImplicit false

namespace Eis.Security

/-- What `prepare` and `execute_approved` let through is granted by the roles
and outside of the restrictions. -/
def GrantRequired (gateway : SecurityGateway) (request : ActionRequest)
    (approval : Option Approval) (reading : Reading) : Prop :=
  ((∃ decision, (gateway.prepare request approval reading).2 = .ok decision) →
      gateway.Granted request) ∧
    ∀ result failure actualCost actualSeconds completed,
      (gateway.executeApproved request approval result failure actualCost actualSeconds
          reading completed).2 = .ok () → gateway.Granted request

/-- The gateway keeps the contract for every request that is not of high risk.
A high-risk one is never shown to the authorizer: with an approved approval
and room in the budgets it passes, whatever the roles and restrictions say. -/
theorem grant_required_iff (gateway : SecurityGateway) (request : ActionRequest)
    (approval : Option Approval) (reading : Reading) :
    GrantRequired gateway request approval reading ↔
      ¬ request.HighRisk ∨ ¬ Approved approval ∨ ¬ gateway.WithinLimits request reading ∨
        RoleAuthorizer.Permitted fnmatch gateway.authorizer request.authorizationRequest := by
  have passes := gateway.prepare_isOk_iff request approval reading
  have permits : gateway.Granted request ↔
      RoleAuthorizer.Permitted fnmatch gateway.authorizer request.authorizationRequest :=
    RoleAuthorizer.authorizeWith_allowed_iff fnmatch gateway.authorizer _
  constructor
  · intro required
    by_cases risky : request.HighRisk
    · by_cases approved : Approved approval
      · by_cases within : gateway.WithinLimits request reading
        · have cleared : gateway.Cleared request approval := by
            simpa [SecurityGateway.Cleared, risky] using approved
          have granted := required.1 (passes.mpr ⟨cleared, within⟩)
          exact Or.inr (Or.inr (Or.inr (permits.mp granted)))
        · exact Or.inr (Or.inr (Or.inl within))
      · exact Or.inr (Or.inl approved)
    · exact Or.inl risky
  · intro condition
    have prepared : (∃ decision, (gateway.prepare request approval reading).2 = .ok decision) →
        gateway.Granted request := by
      intro returned
      obtain ⟨cleared, within⟩ := passes.mp returned
      unfold SecurityGateway.Cleared at cleared
      split at cleared
      · rename_i risky
        rcases condition with ordinary | unapproved | outside | permitted
        · exact absurd risky ordinary
        · exact absurd cleared unapproved
        · exact absurd within outside
        · exact permits.mpr permitted
      · exact cleared
    refine ⟨prepared, ?_⟩
    intro result failure actualCost actualSeconds completed returned
    exact prepared ((gateway.executeApproved_isOk_iff request approval result failure actualCost
      actualSeconds reading completed).mp returned).1

/-! ## A reader that writes -/

def readerGateway : SecurityGateway where
  authorizer :=
    { roles := fun roleName => if roleName = "reader" then
        some { name := "reader", permissions := [{ action := "read", resource := "*" }] }
        else none
      restrictions := [{ resource := "ledger", allowedActions := ["read"] }] }

def ledgerWrite : ActionRequest where
  actor := { id := "clerk", roles := ["reader"] }
  action := "write"
  resource := "ledger"
  riskLevel := .high

def unregisteredApproval : Approval := { requestId := ⟨7⟩, status := .approved }

theorem approval_replaces_grant :
    ¬ GrantRequired readerGateway ledgerWrite (some unregisteredApproval) ⟨0, "", ⟨0⟩⟩ := by
  intro required
  have passed : (readerGateway.prepare ledgerWrite (some unregisteredApproval)
      ⟨0, "", ⟨0⟩⟩).2 = .ok approvedDecision := by decide +kernel
  have denied : (readerGateway.authorizer.authorize ledgerWrite.authorizationRequest).status =
      .denied := by decide +kernel
  have granted : (readerGateway.authorizer.authorize ledgerWrite.authorizationRequest).status =
      .allowed := required.1 ⟨approvedDecision, passed⟩
  rw [denied] at granted
  cases granted

end Eis.Security
