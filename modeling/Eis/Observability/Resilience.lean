import Eis.Foundation.Retry
import Eis.Models.Policy

/-!
# Bounded retries

`retry_async`, which counts the retries and not the attempts.
-/

set_option autoImplicit false

namespace Eis.Observability

open Eis.Models (floatPow)

structure RetryPolicy where
  maxRetries : ℤ := 2
  backoffSeconds : ℚ := 1 / 2
  maxBackoffSeconds : ℚ := 10

variable {α ε : Type} [Exceptions ε]

def RetryPolicy.delay (policy : RetryPolicy) (attempt : ℕ) : Except ε ℚ :=
  match floatPow 2 attempt with
  | none => .error Exceptions.overflowError
  | some power => .ok (min policy.maxBackoffSeconds (policy.backoffSeconds * power))

section Loop
variable (selected : RetryPolicy) (shouldRetry : ε → Bool)
  (outcomes : ℕ → Option (Except ε α))

def retryLoop : List ℕ → Retry.Trace ℚ α ε
  | [] => ⟨0, [], .raised (Exceptions.runtimeError "retry loop exhausted")⟩
  | attempt :: later =>
      match outcomes attempt with
      | none => .stop .pending
      | some (.ok value) => .stop (.returned value)
      | some (.error exc) =>
          if Exceptions.isException exc = false then .stop (.raised exc)
          else if selected.maxRetries ≤ attempt ∨ shouldRetry exc = false then
            .stop (.raised exc)
          else (retryLoop later).sleep (selected.delay attempt)

end Loop

def retryAsync (policy : Option RetryPolicy) (retryable : Option (ε → Bool))
    (outcomes : ℕ → Option (Except ε α)) : Retry.Trace ℚ α ε :=
  let selected := policy.getD {}
  let shouldRetry := retryable.getD fun _ => true
  retryLoop selected shouldRetry outcomes (List.range (selected.maxRetries + 1).toNat)

section Turns
variable (selected : RetryPolicy) (shouldRetry : ε → Bool)
  (outcomes : ℕ → Option (Except ε α))

theorem retryLoop_cons (attempt : ℕ) (later : List ℕ) :
    retryLoop selected shouldRetry outcomes (attempt :: later) =
      Retry.turn (fun exc => Exceptions.isException exc && shouldRetry exc)
        (selected.delay attempt) (outcomes attempt)
        (if selected.maxRetries ≤ attempt then none
          else some (retryLoop selected shouldRetry outcomes later)) := by
  rw [retryLoop]
  exact (Retry.turn_caught Exceptions.isException shouldRetry _ _ _ _).symm

/-- The attempts from `attempt` on are a run with as many retries. -/
theorem retryLoop_eq_run {left attempt : ℕ} (total : (attempt + left : ℕ) = selected.maxRetries) :
    retryLoop selected shouldRetry outcomes (List.range' attempt (left + 1)) =
      Retry.run (fun exc => Exceptions.isException exc && shouldRetry exc) selected.delay
        outcomes left attempt := by
  refine Retry.eq_run
    (fun left attempt => retryLoop selected shouldRetry outcomes
      (List.range' attempt (left + 1))) (attempt + left) ?last ?more rfl
  case last => rw [List.range'_succ, retryLoop_cons, if_pos total.ge]
  case more =>
    intro rest earlier same
    have again : ¬ selected.maxRetries ≤ earlier := by omega
    rw [List.range'_succ, retryLoop_cons, if_neg again]

end Turns

theorem retryAsync_eq_run (retryable : ε → Bool) {policy : RetryPolicy} {retries : ℕ}
    (counted : policy.maxRetries = retries) (outcomes : ℕ → Option (Except ε α)) :
    retryAsync (some policy) (some retryable) outcomes =
      Retry.run (fun exc => Exceptions.isException exc && retryable exc) policy.delay outcomes
        retries 0 := by
  have turns : (policy.maxRetries + 1).toNat = retries + 1 := by omega
  have total : ((0 + retries : ℕ) : ℤ) = policy.maxRetries := by omega
  rw [← retryLoop_eq_run policy retryable outcomes total]
  rw [retryAsync, Option.getD_some, Option.getD_some, turns, List.range_eq_range']

end Eis.Observability
