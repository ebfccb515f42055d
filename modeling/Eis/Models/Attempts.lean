import Eis.Foundation.Retry
import Eis.Models.Calls

/-!
# One call, attempt by attempt

The loop of `_call` by itself, for whatever its invocations end with, and what it has to do
with the calls of a `ReliableModel`.
-/

set_option autoImplicit false

namespace Eis.Models

open Transition

/-- A `ModelError`, or any other exception. -/
inductive CallException (ε : Type) where
  | modelError (error : ModelError)
  | raised (error : ε)

variable {τ β ε : Type} [Exceptions ε]

instance : Exceptions (CallException ε) where
  isException
    | .modelError _ => true
    | .raised error => Exceptions.isException error
  overflowError := .raised Exceptions.overflowError
  valueError message := .raised (Exceptions.valueError message)
  runtimeError message := .raised (Exceptions.runtimeError message)

def DelayError.exception : DelayError → CallException ε
  | .valueError message => Exceptions.valueError message
  | .overflowError => Exceptions.overflowError

def CallResult.ending : CallResult β ε → Retry.Ending (Response β) (CallException ε)
  | .returned response => .returned response
  | .modelError error => .raised (.modelError error)
  | .raised error => .raised (.raised error)
  | .delayError error => .raised error.exception

/-- The delay that `_call` sleeps after that many attempts. -/
def RetryPolicy.delayAfter (policy : RetryPolicy) (attempts : ℕ) :
    Except (CallException ε) ℚ :=
  match policy.delay attempts with
  | .ok seconds => .ok seconds
  | .error error => .error error.exception

section Loop
variable (policy : RetryPolicy) (provider : String) (operation : Operation)
  (outcomes : ℕ → Option (InvocationOutcome β ε))

/-- The loop of `_call`, `attempts` being those that were made. -/
def callLoop (attempts : ℕ) : Retry.Trace ℚ (Response β) (CallException ε) :=
  match outcomes attempts with
  | none => .stop .pending
  | some (.returned response) => .stop (.returned response)
  | some .timedOut =>
      if policy.maxAttempts ≤ attempts + 1 then
        .stop (.raised (.modelError (ReliableModel.modelTimeoutError provider operation)))
      else (callLoop (attempts + 1)).sleep (policy.delayAfter (attempts + 1))
  | some (.modelError error) =>
      if error.retryable = false ∨ policy.maxAttempts ≤ attempts + 1 then
        .stop (.raised (.modelError error))
      else (callLoop (attempts + 1)).sleep (policy.delayAfter (attempts + 1))
  | some (.raised error) => .stop (.raised (.raised error))
termination_by policy.maxAttempts - attempts
decreasing_by all_goals grind

end Loop

/-! ## The calls of the machine -/

def Extends (given : ℕ → Option (InvocationOutcome β ε)) (ended : List (InvocationOutcome β ε)) :
    Prop :=
  ∀ k outcome, ended[k]? = some outcome → given k = some outcome

/-- Where the loop is when a call is in that state, whatever comes next. -/
def CallState.Follows (policy : RetryPolicy) (provider : String)
    (ended : List (InvocationOutcome β ε)) : CallState β ε → Prop
  | .fresh => ended = []
  | .invoking call attempts => ended.length + 1 = attempts ∧
      ∀ given, Extends given ended → ∃ sleeps : List ℚ, sleeps.length = ended.length ∧
        callLoop policy provider call.operation given 0 =
          sleeps.foldr Retry.Trace.prepend
            (callLoop policy provider call.operation given ended.length)
  | .sleeping call attempts => ended.length = attempts ∧
      ∀ given, Extends given ended → ∃ sleeps : List ℚ, sleeps.length = ended.length ∧
        callLoop policy provider call.operation given 0 =
          sleeps.foldr Retry.Trace.prepend
            (callLoop policy provider call.operation given ended.length)
  | .done call attempts result => ended.length = attempts ∧
      ∀ given, Extends given ended → ∃ sleeps : List ℚ, sleeps.length + 1 = ended.length ∧
        callLoop policy provider call.operation given 0 =
          sleeps.foldr Retry.Trace.prepend (.stop result.ending)

structure LoopsInv [DecidableEq τ] (policy : RetryPolicy) (provider : String)
    (trace : List (CallEvent τ β ε)) (s : ReliableModel τ β ε) : Prop where
  samePolicy : s.policy = policy
  sameProvider : s.metadata.provider = provider
  calls : ∀ task, (s.calls task).Follows policy provider (outcomes trace task)

section Machine
variable [DecidableEq τ]

omit [Exceptions ε] in
theorem Extends.of_snoc {given : ℕ → Option (InvocationOutcome β ε)}
    {ended : List (InvocationOutcome β ε)} {outcome : InvocationOutcome β ε}
    (extended : Extends given (ended ++ [outcome])) :
    Extends given ended ∧ given ended.length = some outcome := by
  constructor
  · intro k earlier found
    obtain ⟨within, _⟩ := List.getElem?_eq_some_iff.mp found
    exact extended k earlier (by rw [List.getElem?_append_left within, found])
  · exact extended ended.length outcome (by simp)

/-- The state of a call whose invocation has ended, and the turn of the loop that leads there. -/
inductive Turned (policy : RetryPolicy) (provider : String) (call : Call) (attempts : ℕ)
    (outcome : InvocationOutcome β ε) : CallState β ε → Prop where
  | done (result : CallResult β ε)
      (turn : ∀ given : ℕ → Option (InvocationOutcome β ε), given attempts = some outcome →
        callLoop policy provider call.operation given attempts = .stop result.ending) :
      Turned policy provider call attempts outcome (.done call (attempts + 1) result)
  | sleeping (seconds : ℚ)
      (turn : ∀ given : ℕ → Option (InvocationOutcome β ε), given attempts = some outcome →
        callLoop policy provider call.operation given attempts =
          (callLoop policy provider call.operation given (attempts + 1)).prepend seconds) :
      Turned policy provider call attempts outcome (.sleeping call (attempts + 1))

section Settle
variable (s : ReliableModel τ β ε) (task : τ) (call : Call) (attempts : ℕ)
  (outcome : InvocationOutcome β ε) (now : ℚ)

theorem retry_turned
    (turn : ∀ given : ℕ → Option (InvocationOutcome β ε), given attempts = some outcome →
      callLoop s.policy s.metadata.provider call.operation given attempts =
        (callLoop s.policy s.metadata.provider call.operation given (attempts + 1)).sleep
          (s.policy.delayAfter (attempts + 1))) :
    ∃ state, (s.retry task call (attempts + 1)).calls = Function.update s.calls task state ∧
      Turned s.policy s.metadata.provider call attempts outcome state := by
  unfold ReliableModel.retry
  cases delay : s.policy.delay (attempts + 1) with
  | ok seconds =>
      refine ⟨_, rfl, .sleeping seconds fun given ended => ?_⟩
      rw [turn given ended, RetryPolicy.delayAfter, delay, Retry.Trace.sleep]
  | error undefined =>
      refine ⟨_, rfl, .done (.delayError undefined) fun given ended => ?_⟩
      rw [turn given ended, RetryPolicy.delayAfter, delay]
      rfl

/-- What `settle` does to the calls is what the loop does next. -/
theorem settle_turned :
    ∃ state, (s.settle task call (attempts + 1) outcome now).calls =
        Function.update s.calls task state ∧
      Turned s.policy s.metadata.provider call attempts outcome state := by
  unfold ReliableModel.settle
  cases outcome with
  | returned response =>
      refine ⟨_, rfl, .done _ fun given ended => ?_⟩
      rw [callLoop, ended]
      rfl
  | raised error =>
      refine ⟨_, rfl, .done _ fun given ended => ?_⟩
      rw [callLoop, ended]
      rfl
  | timedOut =>
      by_cases last : s.policy.maxAttempts ≤ attempts + 1
      · simp only [if_pos last]
        refine ⟨_, rfl, .done _ fun given ended => ?_⟩
        rw [callLoop, ended]
        simp only [if_pos last]
        rfl
      · simp only [if_neg last]
        refine retry_turned s task call attempts _ fun given ended => ?_
        rw [callLoop, ended]
        simp only [if_neg last]
  | modelError error =>
      by_cases final : error.retryable = false ∨ s.policy.maxAttempts ≤ attempts + 1
      · simp only [if_pos final]
        refine ⟨_, rfl, .done _ fun given ended => ?_⟩
        rw [callLoop, ended]
        simp only [if_pos final]
        rfl
      · simp only [if_neg final]
        refine retry_turned s task call attempts _ fun given ended => ?_
        rw [callLoop, ended]
        simp only [if_neg final]

omit [Exceptions ε] in
theorem settle_constant :
    (s.settle task call attempts outcome now).policy = s.policy ∧
      (s.settle task call attempts outcome now).metadata = s.metadata := by
  cases outcome <;> simp only [ReliableModel.settle, ReliableModel.retry] <;> repeat' split
  all_goals exact ⟨rfl, rfl⟩

end Settle

section Steps
variable {policy : RetryPolicy} {provider : String} {trace : List (CallEvent τ β ε)}
  {s t : ReliableModel τ β ε}

theorem LoopsInv.move (inv : LoopsInv policy provider trace s) {task : τ}
    {state : CallState β ε} {event : CallEvent τ β ε} (samePolicy : t.policy = s.policy)
    (sameMetadata : t.metadata = s.metadata)
    (calls : t.calls = Function.update s.calls task state)
    (others : ∀ other, task ≠ other → event.outcome? other = none)
    (follows : state.Follows policy provider (outcomes (trace ++ [event]) task)) :
    LoopsInv policy provider (trace ++ [event]) t := by
  refine ⟨samePolicy.trans inv.samePolicy, sameMetadata ▸ inv.sameProvider, fun other => ?_⟩
  rw [calls]
  by_cases own : task = other
  · subst own
    rw [Function.update_self]
    exact follows
  · rw [Function.update_of_ne (Ne.symm own), outcomes_snoc, others other own]
    simpa using inv.calls other

theorem LoopsInv.settle (inv : LoopsInv policy provider trace s) {task : τ} {call : Call}
    {attempts : ℕ} (outcome : InvocationOutcome β ε) (now : ℚ)
    (invoking : s.calls task = .invoking call attempts) :
    LoopsInv policy provider (trace ++ [.settle task outcome now])
      (s.settle task call attempts outcome now) := by
  have follows := inv.calls task
  rw [invoking] at follows
  obtain ⟨rfl, sofar⟩ := follows
  obtain ⟨samePolicy, sameMetadata⟩ :=
    settle_constant s task call ((outcomes trace task).length + 1) outcome now
  obtain ⟨state, calls, turned⟩ :=
    settle_turned s task call (outcomes trace task).length outcome now
  rw [inv.samePolicy, inv.sameProvider] at turned
  refine inv.move samePolicy sameMetadata calls (fun other own => (settle_others other own).2) ?_
  rw [outcomes_settle]
  cases turned with
  | done result turn =>
      refine ⟨by simp, fun given extended => ?_⟩
      obtain ⟨earlier, ended⟩ := extended.of_snoc
      obtain ⟨sleeps, length, begun⟩ := sofar given earlier
      refine ⟨sleeps, by simp [length], ?_⟩
      rw [begun, turn given ended]
  | sleeping seconds turn =>
      refine ⟨by simp, fun given extended => ?_⟩
      obtain ⟨earlier, ended⟩ := extended.of_snoc
      obtain ⟨sleeps, length, begun⟩ := sofar given earlier
      refine ⟨sleeps ++ [seconds], by simp [length], ?_⟩
      rw [begun, turn given ended, List.foldr_append, List.length_append]
      rfl

theorem LoopsInv.step {event : CallEvent τ β ε} (inv : LoopsInv policy provider trace s)
    (fired : callStep s event t) : LoopsInv policy provider (trace ++ [event]) t := by
  unfold callStep ReliableModel.next at fired
  cases event with
  | start task operation request uuid now =>
      have follows := inv.calls task
      cases state : s.calls task with
      | fresh =>
          simp only [state, Option.some.injEq] at fired
          rw [state] at follows
          subst fired
          refine inv.move rfl rfl rfl (fun _ _ => rfl) ?_
          have ended : outcomes (trace ++ [.start task operation request uuid now]) task = [] := by
            rw [outcomes_snoc, follows]
            rfl
          rw [ended]
          exact ⟨rfl, fun given _ => ⟨[], rfl, rfl⟩⟩
      | invoking _ _ | sleeping _ _ | done _ _ _ => simp [state] at fired
  | settle task outcome now =>
      cases state : s.calls task with
      | invoking call attempts =>
          simp only [state, Option.some.injEq] at fired
          exact fired ▸ inv.settle outcome now state
      | fresh | sleeping _ _ | done _ _ _ => simp [state] at fired
  | wake task =>
      have follows := inv.calls task
      cases state : s.calls task with
      | sleeping call attempts =>
          simp only [state, Option.some.injEq] at fired
          rw [state] at follows
          obtain ⟨length, sofar⟩ := follows
          subst fired
          refine inv.move rfl rfl rfl (fun _ _ => rfl) ?_
          have ended : outcomes (trace ++ [.wake task]) task = outcomes trace task := by
            rw [outcomes_snoc]
            simp [CallEvent.outcome?]
          rw [ended]
          exact ⟨by omega, sofar⟩
      | fresh | invoking _ _ | done _ _ _ => simp [state] at fired

end Steps

theorem loopsInv_of_run {metadata : ModelMetadata} {retryPolicy : Option RetryPolicy}
    {trace : List (CallEvent τ β ε)} {s : ReliableModel τ β ε}
    (run : Run callStep (ReliableModel.create metadata retryPolicy) trace s) :
    LoopsInv (retryPolicy.getD ReliableModel.defaultPolicy) metadata.provider trace s := by
  induction run with
  | nil => exact ⟨rfl, rfl, fun task => rfl⟩
  | snoc _ fired ih => exact ih.step fired

/-- However the calls of a model interleave, one that has ended made the attempts of its
loop, and ended as that does on the same outcomes. -/
theorem done_eq_callLoop {metadata : ModelMetadata} {retryPolicy : Option RetryPolicy}
    {trace : List (CallEvent τ β ε)} {s : ReliableModel τ β ε}
    (run : Run callStep (ReliableModel.create metadata retryPolicy) trace s) {task : τ}
    {call : Call} {attempts : ℕ} {result : CallResult β ε}
    (done : s.calls task = .done call attempts result) :
    ∃ sleeps, callLoop s.policy s.metadata.provider call.operation
      (fun k => (outcomes trace task)[k]?) 0 = ⟨attempts, sleeps, result.ending⟩ := by
  have inv := loopsInv_of_run run
  have follows := inv.calls task
  rw [done] at follows
  obtain ⟨rfl, sofar⟩ := follows
  obtain ⟨sleeps, length, whole⟩ := sofar _ fun k outcome found => found
  refine ⟨sleeps, ?_⟩
  rw [inv.samePolicy, inv.sameProvider, whole, Retry.foldr_prepend, ← length]
  simp [Retry.Trace.stop, Nat.add_comm]

end Machine

end Eis.Models
