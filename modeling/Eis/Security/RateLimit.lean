import Eis.Foundation.Run
import Eis.Foundation.SlidingWindow
import Eis.Security.Gateway

/-!
# The rate limit of the gateway

`check` prunes and counts at one reading of the clock, `commit` stamps at a later one.
Over whole runs of `execute_approved` no window holds more stamps than the limits allow.
-/

set_option autoImplicit false

namespace Eis.Security

open Transition
open SlidingWindow (Paced recent window)

structure ApprovedCall where
  request : ActionRequest
  approval : Option Approval := none
  result : String := "success"
  failure : Option String := none
  actualCost : ℚ := 0
  actualSeconds : ℚ := 0
  prepared : Reading
  completed : Reading

def ApprovedCall.execute (call : ApprovedCall) (gateway : SecurityGateway) :
    SecurityGateway × Except SecurityError Unit :=
  gateway.executeApproved call.request call.approval call.result call.failure call.actualCost
    call.actualSeconds call.prepared call.completed

/-- A gateway in use: the last reading of the clock, and when actions were committed. -/
structure Session where
  gateway : SecurityGateway
  clock : ℚ
  committed : List ℚ := []

namespace Session

def stamped (committed : List ℚ) (call : ApprovedCall) :
    Except SecurityError Unit → List ℚ
  | .ok () => committed ++ [call.completed.monotonic]
  | .error _ => committed

def after (session : Session) (call : ApprovedCall) : Session where
  gateway := (call.execute session.gateway).1
  clock := call.completed.monotonic
  committed := stamped session.committed call (call.execute session.gateway).2

/-- One call after another, under a clock that does not go back.  Where `prepare` refuses,
the second reading is not taken and stands for any later time. -/
structure Step (session : Session) (call : ApprovedCall) (next : Session) : Prop where
  starts : session.clock ≤ call.prepared.monotonic
  ends : call.prepared.monotonic ≤ call.completed.monotonic
  result : next = session.after call

end Session

/-! ## What a call does to the guard -/

theorem GovernanceGuard.check_room {guard : GovernanceGuard} {request : ActionRequest}
    {now : ℚ} (passed : (guard.check request now).2 = .ok ()) :
    ((guard.prune now).actions.length : ℤ) < guard.limits.maxActionsPerWindow := by
  unfold check at passed
  split at passed
  · cases passed
  · exact not_le.mp ‹_›

/-- The guard is left alone, or pruned, or pruned and stamped. -/
inductive Governs (guard : GovernanceGuard) (call : ApprovedCall) :
    GovernanceGuard → Except SecurityError Unit → Prop where
  | untouched (error : SecurityError) : Governs guard call guard (.error error)
  | pruned (error : SecurityError) :
      Governs guard call (guard.prune call.prepared.monotonic) (.error error)
  | committed (room : ((guard.prune call.prepared.monotonic).actions.length : ℤ) <
        guard.limits.maxActionsPerWindow) :
      Governs guard call
        { guard.prune call.prepared.monotonic with
          actions := (guard.prune call.prepared.monotonic).actions ++ [call.completed.monotonic]
          cost := guard.cost + call.actualCost
          executionSeconds := guard.executionSeconds + call.actualSeconds }
        (.ok ())

theorem execute_governs (call : ApprovedCall) (gateway : SecurityGateway) :
    Governs gateway.governance call (call.execute gateway).1.governance
      (call.execute gateway).2 := by
  unfold ApprovedCall.execute SecurityGateway.executeApproved
  by_cases cleared : gateway.Cleared call.request call.approval
  · rw [SecurityGateway.prepare_cleared cleared]
    unfold SecurityGateway.govern
    cases checked : (gateway.governance.check call.request call.prepared.monotonic).2 with
    | error error => exact Governs.pruned error
    | ok =>
      simp only [Except.map]
      by_cases invalid : call.actualCost < 0 ∨ call.actualSeconds < 0
      · rw [SecurityGateway.complete_invalid _ _ _ _ invalid]
        exact Governs.pruned _
      · obtain ⟨cost, seconds⟩ := not_or.mp invalid
        rw [SecurityGateway.complete_valid _ _ _ _ (not_lt.mp cost) (not_lt.mp seconds)]
        exact Governs.committed (GovernanceGuard.check_room checked)
  · obtain ⟨result, failure, error, -, refused⟩ :=
      SecurityGateway.prepare_refused cleared call.prepared
    rw [refused]
    exact Governs.untouched error

theorem prune_actions (guard : GovernanceGuard) (now : ℚ) :
    (guard.prune now).actions = recent guard.limits.windowSeconds now guard.actions := rfl

/-! ## Runs -/

/-- The invariant of a guard under `limits`, at `clock`, after the actions at `committed`. -/
structure Limited (limits : GovernanceLimits) (guard : GovernanceGuard) (clock : ℚ)
    (committed : List ℚ) : Prop where
  governed : guard.limits = limits
  paced : Paced limits.windowSeconds limits.maxActionsPerWindow.toNat clock guard.actions
    committed

theorem Governs.limited {limits : GovernanceLimits} {guard next : GovernanceGuard} {clock : ℚ}
    {committed : List ℚ} {call : ApprovedCall} {outcome : Except SecurityError Unit}
    (governs : Governs guard call next outcome) (limited : Limited limits guard clock committed)
    (starts : clock ≤ call.prepared.monotonic)
    (ends : call.prepared.monotonic ≤ call.completed.monotonic) :
    Limited limits next call.completed.monotonic (Session.stamped committed call outcome) := by
  obtain ⟨governed, paced⟩ := limited
  subst governed
  have pruned := paced.prune starts
  rw [← prune_actions] at pruned
  cases governs with
  | untouched error => exact ⟨rfl, paced.later (starts.trans ends)⟩
  | pruned error => exact ⟨rfl, pruned.later ends⟩
  | committed room => exact ⟨rfl, pruned.accept (by omega) ends⟩

namespace Session

theorem limited_step {limits : GovernanceLimits} {session next : Session} {call : ApprovedCall}
    (limited : Limited limits session.gateway.governance session.clock session.committed)
    (step : Step session call next) :
    Limited limits next.gateway.governance next.clock next.committed := by
  obtain ⟨starts, ends, result⟩ := step
  subst result
  exact (execute_governs call session.gateway).limited limited starts ends

/-- However the calls are spaced, no closed window of the configured length holds more
committed actions than the limit, and none at all under a limit below zero. -/
theorem rateLimited {gateway : SecurityGateway} {clock : ℚ} {calls : List ApprovedCall}
    {session : Session}
    (run : Run Step { gateway := gateway, clock := clock } calls session) (start : ℚ) :
    ((window gateway.governance.limits.windowSeconds start session.committed).length : ℤ) ≤
      max 0 gateway.governance.limits.maxActionsPerWindow := by
  have limited : Limited gateway.governance.limits session.gateway.governance session.clock
      session.committed :=
    run.invariant (motive := fun session => Limited gateway.governance.limits
      session.gateway.governance session.clock session.committed)
      ⟨rfl, Paced.nil⟩ fun _ _ _ limited step => limited_step limited step
  have bounded := limited.paced.bounded start
  omega

def unused (limits : GovernanceLimits) : SecurityGateway where
  authorizer := {}
  governance := { limits := limits }

def payoutAt (prepared completed : ℚ) : ApprovedCall where
  request := { actor := { id := "agent" }, action := "financial_action", resource := "account" }
  approval := some { requestId := ⟨3⟩, status := .approved }
  prepared := { monotonic := prepared, timestamp := "", recordId := ⟨4⟩ }
  completed := { monotonic := completed, timestamp := "", recordId := ⟨5⟩ }

def unusedSession (maxActionsPerWindow : ℤ) : Session where
  gateway := unused { maxActionsPerWindow := maxActionsPerWindow }
  clock := 0

/-- Two payouts where one is allowed: the second is still in the window of the first. -/
theorem rateLimited_payouts :
    ((window 60 1 (((unusedSession 1).after (payoutAt 0 1)).after
      (payoutAt 61 62)).committed).length : ℤ) ≤ max 0 1 := by
  have first : Run Step (unusedSession 1) [payoutAt 0 1]
      ((unusedSession 1).after (payoutAt 0 1)) :=
    Run.single { starts := by decide +kernel, ends := by decide +kernel, result := rfl }
  have second : Step ((unusedSession 1).after (payoutAt 0 1)) (payoutAt 61 62)
      (((unusedSession 1).after (payoutAt 0 1)).after (payoutAt 61 62)) :=
    { starts := by decide +kernel, ends := by decide +kernel, result := rfl }
  exact rateLimited (first.snoc second) 1

/-- A limit below zero lets nothing through, and no action is more than it allows. -/
theorem negative_limit :
    Run Step (unusedSession (-1)) [payoutAt 0 1] ((unusedSession (-1)).after (payoutAt 0 1)) ∧
      ¬ ((window 60 1 ((unusedSession (-1)).after (payoutAt 0 1)).committed).length : ℤ) ≤
        (unusedSession (-1)).gateway.governance.limits.maxActionsPerWindow := by
  refine ⟨Run.single ?_, by decide +kernel⟩
  exact { starts := by decide +kernel, ends := by decide +kernel, result := rfl }

end Session

end Eis.Security
