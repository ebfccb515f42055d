import Mathlib.Logic.Function.Basic
import Mathlib.Tactic.NormNum
import Eis.Foundation.Run
import Eis.Models.Interfaces
import Eis.Models.Policy

/-!
# The reliability layer

`ReliableModel` with any number of `generate`, `generate_structured` and `embed`
calls under way, cut where a call awaits the provider or sleeps.  How and when
an invocation ends, by `wait_for` or by itself, is up to the environment.
-/

set_option autoImplicit false

namespace Eis.Models

open Transition

structure ModelTrace where
  traceId : String
  provider : String
  model : String
  operation : String
  durationMs : ℚ
  attempts : ℕ

structure UsageLedger where
  requests : ℕ := 0
  inputTokens : ℕ := 0
  outputTokens : ℕ := 0
  estimatedCost : ℚ := 0

def UsageLedger.record (ledger : UsageLedger) (usage : Usage) : UsageLedger :=
  { requests := ledger.requests + 1
    inputTokens := ledger.inputTokens + usage.inputTokens
    outputTokens := ledger.outputTokens + usage.outputTokens
    estimatedCost := ledger.estimatedCost + usage.cost }

/-- How `wait_for(function(request), timeout)` ends. -/
inductive InvocationOutcome (β ε : Type) where
  | returned (response : Response β)
  | timedOut
  | modelError (error : ModelError)
  | raised (error : ε)

inductive CallResult (β ε : Type) where
  | returned (response : Response β)
  | modelError (error : ModelError)
  | raised (error : ε)
  | delayError (error : DelayError)

structure Call where
  operation : Operation
  traceId : String
  started : ℚ

inductive CallState (β ε : Type) where
  | fresh
  | invoking (call : Call) (attempts : ℕ)
  | sleeping (call : Call) (attempts : ℕ)
  | done (call : Call) (attempts : ℕ) (result : CallResult β ε)

structure ReliableModel (τ β ε : Type) where
  metadata : ModelMetadata
  policy : RetryPolicy
  traces : List ModelTrace := []
  usage : UsageLedger := {}
  calls : τ → CallState β ε := fun _ => .fresh

variable {τ β ε : Type}

/-- `request.trace_id or uuid.uuid4().hex` -/
def Request.traceIdOr (request : Request) (fresh : String) : String :=
  match request.traceId with
  | none => fresh
  | some traceId => if traceId = "" then fresh else traceId

namespace ReliableModel

def defaultPolicy : RetryPolicy where
  attemptsPositive := by decide
  initialNonnegative := by norm_num
  initialLeMax := by norm_num
  multiplierAtLeastOne := by norm_num
  jitterNonnegative := le_rfl

def create (metadata : ModelMetadata) (retryPolicy : Option RetryPolicy) :
    ReliableModel τ β ε where
  metadata := metadata
  policy := retryPolicy.getD defaultPolicy

def modelTimeoutError (provider : String) (operation : Operation) : ModelError where
  kind := .timeout
  message := operation.name ++ " timed out"
  provider := some provider
  retryable := false

def appendTrace (s : ReliableModel τ β ε) (traceId operation : String) (started now : ℚ)
    (attempts : ℕ) : ReliableModel τ β ε :=
  { s with traces := s.traces ++ [
      { traceId := traceId
        provider := s.metadata.provider
        model := s.metadata.model
        operation := operation
        durationMs := (now - started) * 1000
        attempts := attempts }] }

def record (s : ReliableModel τ β ε) (response : Response β) : ReliableModel τ β ε :=
  { s with usage := s.usage.record response.usage }

section Calls
variable [DecidableEq τ]

def setCall (s : ReliableModel τ β ε) (task : τ) (state : CallState β ε) :
    ReliableModel τ β ε :=
  { s with calls := Function.update s.calls task state }

/-- The `except` branches from `await asyncio.sleep(self._policy.delay(attempts))` on. -/
def retry (s : ReliableModel τ β ε) (task : τ) (call : Call) (attempts : ℕ) :
    ReliableModel τ β ε :=
  match s.policy.delay attempts with
  | .ok _ => s.setCall task (.sleeping call attempts)
  | .error error => s.setCall task (.done call attempts (.delayError error))

/-- `_call` from the end of an invocation on.  The operations record the usage
of the response before any other task runs. -/
def settle (s : ReliableModel τ β ε) (task : τ) (call : Call) (attempts : ℕ)
    (outcome : InvocationOutcome β ε) (now : ℚ) : ReliableModel τ β ε :=
  match outcome with
  | .returned response =>
      ((s.appendTrace call.traceId call.operation.name call.started now attempts).record
        response).setCall task (.done call attempts (.returned response))
  | .timedOut =>
      if s.policy.maxAttempts ≤ attempts then
        s.setCall task (.done call attempts
          (.modelError (modelTimeoutError s.metadata.provider call.operation)))
      else s.retry task call attempts
  | .modelError error =>
      if error.retryable = false ∨ s.policy.maxAttempts ≤ attempts then
        s.setCall task (.done call attempts (.modelError error))
      else s.retry task call attempts
  | .raised error => s.setCall task (.done call attempts (.raised error))

end Calls

end ReliableModel

/-- `uuid` is what `uuid4().hex` would return. -/
inductive CallEvent (τ β ε : Type) where
  | start (task : τ) (operation : Operation) (request : Request) (uuid : String) (now : ℚ)
  | settle (task : τ) (outcome : InvocationOutcome β ε) (now : ℚ)
  | wake (task : τ)

section Machine
variable [DecidableEq τ]

def ReliableModel.next (s : ReliableModel τ β ε) :
    CallEvent τ β ε → Option (ReliableModel τ β ε)
  | .start task operation request uuid now =>
      match s.calls task with
      | .fresh =>
          some (s.setCall task (.invoking ⟨operation, request.traceIdOr uuid, now⟩ 1))
      | _ => none
  | .settle task outcome now =>
      match s.calls task with
      | .invoking call attempts => some (s.settle task call attempts outcome now)
      | _ => none
  | .wake task =>
      match s.calls task with
      | .sleeping call attempts => some (s.setCall task (.invoking call (attempts + 1)))
      | _ => none

def callStep (s : ReliableModel τ β ε) (event : CallEvent τ β ε) (t : ReliableModel τ β ε) :
    Prop :=
  s.next event = some t

end Machine

end Eis.Models
