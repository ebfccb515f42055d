import Mathlib.Algebra.Order.BigOperators.Group.List
import Mathlib.Tactic.Linarith
import Eis.Security.RateLimit

/-!
# The cost and execution budgets of overlapping actions

`prepare` tests an estimate against what is committed, `complete` commits what was
used.  In between the actions of others come and go; nothing is set aside for them.
-/

set_option autoImplicit false

namespace Eis.Security

open Transition

inductive ActionCall where
  | prepare (request : ActionRequest) (approval : Option Approval) (reading : Reading)
  | complete (request : ActionRequest) (result : String) (failure : Option String)
      (actualCost actualSeconds : ℚ) (reading : Reading)

/-- A gateway with the actions that are between their two calls. -/
structure Overlap where
  gateway : SecurityGateway
  pending : List ActionRequest := []

/-- Any action may be prepared at any time, and any pending one completed, with no
more usage than it had estimated. -/
inductive OverlapStep (state : Overlap) : ActionCall → Overlap → Prop where
  | prepared {request : ActionRequest} {approval : Option Approval} {reading : Reading}
      (passed : ∃ decision, (state.gateway.prepare request approval reading).2 = .ok decision) :
      OverlapStep state (.prepare request approval reading)
        { gateway := (state.gateway.prepare request approval reading).1
          pending := state.pending ++ [request] }
  | refused {request : ActionRequest} {approval : Option Approval} {reading : Reading}
      (refused : ¬ ∃ decision,
        (state.gateway.prepare request approval reading).2 = .ok decision) :
      OverlapStep state (.prepare request approval reading)
        { state with gateway := (state.gateway.prepare request approval reading).1 }
  | completed {before after : List ActionRequest} {request : ActionRequest} {result : String}
      {failure : Option String} {actualCost actualSeconds : ℚ} {reading : Reading}
      (listed : state.pending = before ++ request :: after)
      (cost : actualCost ≤ request.estimatedCost)
      (seconds : actualSeconds ≤ request.estimatedSeconds) :
      OverlapStep state (.complete request result failure actualCost actualSeconds reading)
        { gateway := (state.gateway.complete request result failure actualCost actualSeconds
            reading).1
          pending := before ++ after }

structure WithinBudget (limits : GovernanceLimits) (guard : GovernanceGuard) : Prop where
  cost : guard.cost ≤ limits.maxCost
  seconds : guard.executionSeconds ≤ limits.maxExecutionSeconds

def estimatedCosts (requests : List ActionRequest) : ℚ :=
  (requests.map ActionRequest.estimatedCost).sum

def estimatedTimes (requests : List ActionRequest) : ℚ :=
  (requests.map ActionRequest.estimatedSeconds).sum

/-- The estimate fits beside the estimates of all pending actions. -/
structure Room (state : Overlap) (request : ActionRequest) : Prop where
  cost : state.gateway.governance.cost + estimatedCosts state.pending + request.estimatedCost ≤
    state.gateway.governance.limits.maxCost
  seconds : state.gateway.governance.executionSeconds + estimatedTimes state.pending +
      request.estimatedSeconds ≤ state.gateway.governance.limits.maxExecutionSeconds

/-- What `prepare` would let through finds room beside the pending actions. -/
def Reserved (state : Overlap) : ActionCall → Prop
  | .prepare request approval reading =>
      state.gateway.Cleared request approval → state.gateway.WithinLimits request reading →
        Room state request
  | .complete .. => True

/-! ## What the calls leave of the budgets -/

theorem GovernanceGuard.check_budgets {guard : GovernanceGuard} {request : ActionRequest}
    {now : ℚ} (passed : (guard.check request now).2 = .ok ()) :
    (0 ≤ request.estimatedCost ∧ guard.cost + request.estimatedCost ≤ guard.limits.maxCost) ∧
      0 ≤ request.estimatedSeconds ∧
        guard.executionSeconds + request.estimatedSeconds ≤ guard.limits.maxExecutionSeconds := by
  unfold check at passed
  split at passed
  · cases passed
  split at passed
  · cases passed
  rename_i cost
  split at passed
  · cases passed
  rename_i seconds
  obtain ⟨positive, affordable⟩ := not_or.mp cost
  obtain ⟨positive', affordable'⟩ := not_or.mp seconds
  exact ⟨⟨not_lt.mp positive, not_lt.mp affordable⟩, not_lt.mp positive', not_lt.mp affordable'⟩

structure SameBudgets (guard next : GovernanceGuard) : Prop where
  limits : next.limits = guard.limits
  cost : next.cost = guard.cost
  seconds : next.executionSeconds = guard.executionSeconds

theorem prepare_budgets (gateway : SecurityGateway) (request : ActionRequest)
    (approval : Option Approval) (reading : Reading) :
    SameBudgets gateway.governance (gateway.prepare request approval reading).1.governance := by
  by_cases cleared : gateway.Cleared request approval
  · rw [SecurityGateway.prepare_cleared cleared]
    exact { limits := rfl, cost := rfl, seconds := rfl }
  · obtain ⟨result, failure, error, -, refused⟩ :=
      SecurityGateway.prepare_refused cleared reading
    rw [refused]
    exact { limits := rfl, cost := rfl, seconds := rfl }

/-- What is committed and what the pending actions have estimated fit together. -/
structure Solvent (limits : GovernanceLimits) (state : Overlap) : Prop where
  governed : state.gateway.governance.limits = limits
  cost : state.gateway.governance.cost + estimatedCosts state.pending ≤ limits.maxCost
  seconds : state.gateway.governance.executionSeconds + estimatedTimes state.pending ≤
    limits.maxExecutionSeconds
  positive : ∀ request ∈ state.pending,
    0 ≤ request.estimatedCost ∧ 0 ≤ request.estimatedSeconds

section Sums
variable (before after : List ActionRequest) (request : ActionRequest)

theorem estimatedCosts_snoc :
    estimatedCosts (before ++ [request]) = estimatedCosts before + request.estimatedCost := by
  simp [estimatedCosts]

theorem estimatedTimes_snoc :
    estimatedTimes (before ++ [request]) = estimatedTimes before + request.estimatedSeconds := by
  simp [estimatedTimes]

theorem estimatedCosts_remove : estimatedCosts (before ++ request :: after) =
    estimatedCosts (before ++ after) + request.estimatedCost := by
  simp only [estimatedCosts, List.map_append, List.map_cons, List.sum_append, List.sum_cons]
  linarith

theorem estimatedTimes_remove : estimatedTimes (before ++ request :: after) =
    estimatedTimes (before ++ after) + request.estimatedSeconds := by
  simp only [estimatedTimes, List.map_append, List.map_cons, List.sum_append, List.sum_cons]
  linarith

end Sums

theorem estimatedCosts_nonneg {requests : List ActionRequest}
    (positive : ∀ request ∈ requests, 0 ≤ request.estimatedCost ∧ 0 ≤ request.estimatedSeconds) :
    0 ≤ estimatedCosts requests := by
  apply List.sum_nonneg
  intro cost member
  obtain ⟨request, listed, rfl⟩ := List.mem_map.mp member
  exact (positive request listed).1

theorem estimatedTimes_nonneg {requests : List ActionRequest}
    (positive : ∀ request ∈ requests, 0 ≤ request.estimatedCost ∧ 0 ≤ request.estimatedSeconds) :
    0 ≤ estimatedTimes requests := by
  apply List.sum_nonneg
  intro seconds member
  obtain ⟨request, listed, rfl⟩ := List.mem_map.mp member
  exact (positive request listed).2

section Steps
variable {limits : GovernanceLimits} {state next : Overlap}

theorem Solvent.withinBudget (solvent : Solvent limits state) :
    WithinBudget limits state.gateway.governance where
  cost := by
    have more := estimatedCosts_nonneg solvent.positive
    have less := solvent.cost
    linarith
  seconds := by
    have more := estimatedTimes_nonneg solvent.positive
    have less := solvent.seconds
    linarith

theorem Solvent.prepared {request : ActionRequest} {approval : Option Approval}
    {reading : Reading} (solvent : Solvent limits state) (room : Room state request)
    (within : state.gateway.WithinLimits request reading) :
    Solvent limits
      { gateway := (state.gateway.prepare request approval reading).1
        pending := state.pending ++ [request] } := by
  obtain ⟨governed, cost, seconds⟩ :=
    prepare_budgets state.gateway request approval reading
  obtain ⟨⟨positive, _⟩, positive', _⟩ := GovernanceGuard.check_budgets within
  have enough := room.cost
  have enough' := room.seconds
  rw [solvent.governed] at enough enough'
  refine
    { governed := governed.trans solvent.governed
      cost := ?cost
      seconds := ?seconds
      positive := ?positive }
  case cost =>
    rw [cost, estimatedCosts_snoc]
    linarith
  case seconds =>
    rw [seconds, estimatedTimes_snoc]
    linarith
  case positive =>
    intro other member
    cases List.mem_append.mp member with
    | inl earlier => exact solvent.positive other earlier
    | inr last =>
        obtain rfl := List.mem_singleton.mp last
        exact ⟨positive, positive'⟩

theorem Solvent.refused {request : ActionRequest} {approval : Option Approval}
    {reading : Reading} (solvent : Solvent limits state) :
    Solvent limits
      { state with gateway := (state.gateway.prepare request approval reading).1 } := by
  obtain ⟨governed, cost, seconds⟩ :=
    prepare_budgets state.gateway request approval reading
  refine
    { governed := governed.trans solvent.governed
      cost := ?cost
      seconds := ?seconds
      positive := solvent.positive }
  case cost =>
    rw [cost]
    exact solvent.cost
  case seconds =>
    rw [seconds]
    exact solvent.seconds

theorem Solvent.completed {before after : List ActionRequest} {request : ActionRequest}
    {result : String} {failure : Option String} {actualCost actualSeconds : ℚ}
    {reading : Reading} (solvent : Solvent limits state)
    (listed : state.pending = before ++ request :: after)
    (lessCost : actualCost ≤ request.estimatedCost)
    (lessTime : actualSeconds ≤ request.estimatedSeconds) :
    Solvent limits
      { gateway := (state.gateway.complete request result failure actualCost actualSeconds
          reading).1
        pending := before ++ after } := by
  obtain ⟨governed, cost, seconds, positive⟩ := solvent
  rw [listed, estimatedCosts_remove] at cost
  rw [listed, estimatedTimes_remove] at seconds
  rw [listed] at positive
  have own := positive request (by simp)
  have others : ∀ other ∈ before ++ after,
      0 ≤ other.estimatedCost ∧ 0 ≤ other.estimatedSeconds := by
    intro other member
    apply positive other
    cases List.mem_append.mp member with
    | inl earlier => exact List.mem_append_left _ earlier
    | inr later => exact List.mem_append_right _ (List.mem_cons_of_mem _ later)
  by_cases invalid : actualCost < 0 ∨ actualSeconds < 0
  · rw [SecurityGateway.complete_invalid _ _ _ _ invalid]
    refine { governed := governed, cost := ?cost, seconds := ?seconds, positive := others }
    case cost => linarith [own.1]
    case seconds => linarith [own.2]
  · obtain ⟨valid, valid'⟩ := not_or.mp invalid
    rw [SecurityGateway.complete_valid _ _ _ _ (not_lt.mp valid) (not_lt.mp valid')]
    refine { governed := governed, cost := ?cost, seconds := ?seconds, positive := others }
    case cost =>
      simp only
      linarith
    case seconds =>
      simp only
      linarith

theorem Solvent.step {call : ActionCall} (solvent : Solvent limits state)
    (reserved : Reserved state call) (step : OverlapStep state call next) :
    Solvent limits next := by
  cases step with
  | @prepared request approval reading passed =>
      obtain ⟨cleared, within⟩ :=
        (state.gateway.prepare_isOk_iff request approval reading).mp passed
      exact solvent.prepared (reserved cleared within) within
  | refused => exact solvent.refused
  | completed listed cost seconds => exact solvent.completed listed cost seconds

end Steps

/-- However prepares and completions are interleaved, the budgets are kept as long as
every action that is let through finds room beside those that are still pending. -/
theorem budgets_kept {gateway : SecurityGateway} {calls : List ActionCall} {state : Overlap}
    (start : WithinBudget gateway.governance.limits gateway.governance)
    (run : Run (Guarded Reserved OverlapStep) { gateway := gateway } calls state) :
    WithinBudget gateway.governance.limits state.gateway.governance := by
  have solvent : Solvent gateway.governance.limits state := by
    refine Run.invariant ?start ?kept run
    case start =>
      exact
        { governed := rfl
          cost := by simpa [estimatedCosts] using start.cost
          seconds := by simpa [estimatedTimes] using start.seconds
          positive := by simp }
    case kept =>
      intro before call after solvent ⟨reserved, step⟩
      exact solvent.step reserved step
  exact solvent.withinBudget

/-- With no action pending, the test of `prepare` is all that is needed. -/
theorem reserved_of_idle {state : Overlap} (idle : state.pending = []) (call : ActionCall) :
    Reserved state call := by
  cases call with
  | complete => trivial
  | prepare request approval reading =>
      intro _ within
      obtain ⟨⟨_, cost⟩, _, seconds⟩ := GovernanceGuard.check_budgets within
      constructor
      · simpa [idle, estimatedCosts] using cost
      · simpa [idle, estimatedTimes] using seconds

/-! ## Two payouts at once -/

def payoutOf (amount : ℚ) : ActionRequest where
  actor := { id := "agent" }
  action := "financial_action"
  resource := "account"
  estimatedCost := amount

def payoutApproval : Option Approval := some { requestId := ⟨3⟩, status := .approved }

def paidAt (monotonic : ℚ) : Reading where
  monotonic := monotonic
  timestamp := ""
  recordId := ⟨4⟩

def paying (amount : ℚ) (prepares completes : ℕ) : SecurityGateway :=
  let prepare := fun gateway : SecurityGateway =>
    (gateway.prepare (payoutOf amount) payoutApproval (paidAt 0)).1
  let complete := fun gateway : SecurityGateway =>
    (gateway.complete (payoutOf amount) "success" none amount 0 (paidAt 1)).1
  complete^[completes] (prepare^[prepares] (Session.unused {}))

theorem payout_completed {amount : ℚ} {state next : Overlap} {after : List ActionRequest}
    (listed : state.pending = [] ++ payoutOf amount :: after)
    (result : next =
      { gateway := (state.gateway.complete (payoutOf amount) "success" none amount 0 (paidAt 1)).1
        pending := [] ++ after }) :
    OverlapStep state (.complete (payoutOf amount) "success" none amount 0 (paidAt 1)) next := by
  subst result
  exact OverlapStep.completed listed le_rfl le_rfl

/-- Both are prepared before either is completed, and there is room for both. -/
theorem budgets_kept_payouts : WithinBudget {} (paying 40 2 2).governance := by
  have first : OverlapStep { gateway := paying 40 0 0 }
      (.prepare (payoutOf 40) payoutApproval (paidAt 0))
      { gateway := paying 40 1 0, pending := [payoutOf 40] } :=
    OverlapStep.prepared ⟨approvedDecision, by decide +kernel⟩
  have second : OverlapStep { gateway := paying 40 1 0, pending := [payoutOf 40] }
      (.prepare (payoutOf 40) payoutApproval (paidAt 0))
      { gateway := paying 40 2 0, pending := [payoutOf 40, payoutOf 40] } :=
    OverlapStep.prepared ⟨approvedDecision, by decide +kernel⟩
  have reserved : Reserved { gateway := paying 40 1 0, pending := [payoutOf 40] }
      (.prepare (payoutOf 40) payoutApproval (paidAt 0)) := fun _ _ =>
    { cost := by decide +kernel, seconds := by decide +kernel }
  have third : OverlapStep { gateway := paying 40 2 0, pending := [payoutOf 40, payoutOf 40] }
      (.complete (payoutOf 40) "success" none 40 0 (paidAt 1))
      { gateway := paying 40 2 1, pending := [payoutOf 40] } := payout_completed rfl rfl
  have fourth : OverlapStep { gateway := paying 40 2 1, pending := [payoutOf 40] }
      (.complete (payoutOf 40) "success" none 40 0 (paidAt 1)) { gateway := paying 40 2 2 } :=
    payout_completed rfl rfl
  have free (state : Overlap) :
      Reserved state (.complete (payoutOf 40) "success" none 40 0 (paidAt 1)) := trivial
  have prepared : Run (Guarded Reserved OverlapStep) { gateway := paying 40 0 0 } _ _ :=
    (Run.single ⟨reserved_of_idle rfl _, first⟩).snoc ⟨reserved, second⟩
  have run := (prepared.snoc ⟨free _, third⟩).snoc ⟨free _, fourth⟩
  have start : WithinBudget (paying 40 0 0).governance.limits (paying 40 0 0).governance :=
    { cost := by decide +kernel, seconds := by decide +kernel }
  exact budgets_kept start run

/-- Two larger ones, and 120 is committed. -/
theorem overlapping_payouts_overspend :
    ∃ calls state, Run OverlapStep { gateway := Session.unused {} } calls state ∧
      ¬ WithinBudget {} state.gateway.governance := by
  have first : OverlapStep { gateway := Session.unused {} }
      (.prepare (payoutOf 60) payoutApproval (paidAt 0))
      { gateway := paying 60 1 0, pending := [payoutOf 60] } :=
    OverlapStep.prepared ⟨approvedDecision, by decide +kernel⟩
  have second : OverlapStep { gateway := paying 60 1 0, pending := [payoutOf 60] }
      (.prepare (payoutOf 60) payoutApproval (paidAt 0))
      { gateway := paying 60 2 0, pending := [payoutOf 60, payoutOf 60] } :=
    OverlapStep.prepared ⟨approvedDecision, by decide +kernel⟩
  have third : OverlapStep { gateway := paying 60 2 0, pending := [payoutOf 60, payoutOf 60] }
      (.complete (payoutOf 60) "success" none 60 0 (paidAt 1))
      { gateway := paying 60 2 1, pending := [payoutOf 60] } := payout_completed rfl rfl
  have fourth : OverlapStep { gateway := paying 60 2 1, pending := [payoutOf 60] }
      (.complete (payoutOf 60) "success" none 60 0 (paidAt 1)) { gateway := paying 60 2 2 } :=
    payout_completed rfl rfl
  refine ⟨_, _, (((Run.single first).snoc second).snoc third).snoc fourth, ?_⟩
  intro within
  have few : (paying 60 2 2).governance.cost ≤ 100 := within.cost
  exact absurd few (by decide +kernel)

end Eis.Security
