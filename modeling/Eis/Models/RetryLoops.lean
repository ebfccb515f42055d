import Eis.Models.Attempts
import Eis.Performance.Execution
import Eis.Observability.Resilience

/-!
# The three retry loops

`ReliableModel._call`, `retry_optimized` and `retry_async` on the same operation.  One
counts the attempts it has made, one those it may make, and one its retries.
-/

set_option autoImplicit false

namespace Eis.Models

open Eis.Performance (RetryConfig retryDelay retryOptimized)
open Eis.Observability (retryAsync)

variable {β ε : Type} [Exceptions ε]

def invocation : Except ModelError (Response β) → InvocationOutcome β ε
  | .ok response => .returned response
  | .error error => .modelError error

def CallException.retryable : CallException ε → Bool
  | .modelError error => error.retryable
  | .raised _ => false

section Call
variable (policy : RetryPolicy) (provider : String) (operation : Operation)
  (outcomes : ℕ → Option (Except ModelError (Response β)))

theorem callLoop_turn (attempts : ℕ) :
    callLoop (ε := ε) policy provider operation (fun k => (outcomes k).map invocation) attempts =
      Retry.turn
        (fun exc => Exceptions.isException exc && CallException.retryable exc)
        (policy.delayAfter (attempts + 1)) ((outcomes attempts).map (Except.mapError .modelError))
        (if policy.maxAttempts ≤ attempts + 1 then none
          else some (callLoop policy provider operation (fun k => (outcomes k).map invocation)
            (attempts + 1))) := by
  rw [Retry.turn_caught, callLoop]
  rcases outcomes attempts with _ | error | response
  · rfl
  · change (if _ then _ else _) = (if _ then _ else if _ then _ else _)
    simp only [CallException.retryable, Exceptions.isException, or_comm]
    rfl
  · rfl

/-- `_call` is the run of its attempts. -/
theorem callLoop_eq_run :
    callLoop (ε := ε) policy provider operation (fun k => (outcomes k).map invocation) 0 =
      Retry.run (fun exc => Exceptions.isException exc && CallException.retryable exc)
        (fun attempt => policy.delayAfter (attempt + 1))
        (fun k => (outcomes k).map (Except.mapError .modelError)) (policy.maxAttempts - 1) 0 := by
  refine Retry.eq_run
    (fun _ attempts => callLoop policy provider operation
      (fun k => (outcomes k).map invocation) attempts) (policy.maxAttempts - 1) ?last ?more
      (Nat.zero_add _)
  case last =>
    have final : policy.maxAttempts ≤ policy.maxAttempts - 1 + 1 := by omega
    rw [callLoop_turn, if_pos final]
  case more =>
    intro left attempts earlier
    have again : ¬ policy.maxAttempts ≤ attempts + 1 := by omega
    rw [callLoop_turn, if_neg again]

end Call

/-- Doubled delays without jitter are the same in all three. -/
theorem retryDelay_eq_delayAfter (policy : RetryPolicy) (config : RetryConfig)
    (base : config.baseDelaySeconds = policy.initialDelay)
    (cap : config.maxDelaySeconds = policy.maxDelay) (doubled : policy.multiplier = 2)
    (steady : config.jitter = 0) (uniform : ℕ → ℚ → ℚ → ℚ) :
    retryDelay (ε := CallException ε) config uniform =
      fun attempt => policy.delayAfter (attempt + 1) := by
  funext attempt
  have later : ¬ attempt + 1 < 1 := by omega
  unfold retryDelay RetryPolicy.delayAfter RetryPolicy.delay
  rw [if_neg later, doubled, base, cap, Nat.add_sub_cancel]
  cases floatPow 2 attempt with
  | none => rfl
  | some power => simp only [if_pos steady]

theorem delay_eq_delayAfter (policy : RetryPolicy) (doubled : policy.multiplier = 2)
    (maxRetries : ℤ) :
    Eis.Observability.RetryPolicy.delay (ε := CallException ε)
        ⟨maxRetries, policy.initialDelay, policy.maxDelay⟩ =
      fun attempt => policy.delayAfter (attempt + 1) := by
  funext attempt
  have later : ¬ attempt + 1 < 1 := by omega
  unfold Eis.Observability.RetryPolicy.delay RetryPolicy.delayAfter RetryPolicy.delay
  rw [if_neg later, doubled, Nat.add_sub_cancel]
  cases floatPow 2 attempt <;> rfl

/-- Whatever the operation does, the three loops call it equally often, sleep equally long
and end alike. -/
theorem retry_loops_agree {n : ℤ} {b m : ℚ} (attempts : 1 ≤ n) (nonnegative : 0 ≤ b)
    (ordered : b ≤ m) (provider : String) (operation : Operation)
    (outcomes : ℕ → Option (Except ModelError (Response β))) (uniform : ℕ → ℚ → ℚ → ℚ) :
    ∃ policy config, RetryPolicy.create n b m 2 = .ok policy ∧
      RetryConfig.create n b m 0 = .ok config ∧
      retryOptimized (ε := CallException ε) CallException.retryable (some config) uniform
          (fun k => (outcomes k).map (Except.mapError .modelError)) =
        callLoop policy provider operation (fun k => (outcomes k).map invocation) 0 ∧
      retryAsync (ε := CallException ε) (some ⟨n - 1, b, m⟩) (some CallException.retryable)
          (fun k => (outcomes k).map (Except.mapError .modelError)) =
        callLoop policy provider operation (fun k => (outcomes k).map invocation) 0 := by
  have capNonnegative : 0 ≤ m := nonnegative.trans ordered
  let policy : RetryPolicy :=
    { maxAttempts := n.toNat
      initialDelay := b
      maxDelay := m
      multiplier := 2
      attemptsPositive := by omega
      initialNonnegative := nonnegative
      initialLeMax := ordered
      multiplierAtLeastOne := by norm_num
      jitterNonnegative := le_rfl }
  let config : RetryConfig :=
    { maxAttempts := n.toNat
      baseDelaySeconds := b
      maxDelaySeconds := m
      jitter := 0
      attemptsPositive := by omega
      baseNonnegative := nonnegative
      maxNonnegative := capNonnegative }
  have retries : n - 1 = ((policy.maxAttempts - 1 : ℕ) : ℤ) := by
    change n - 1 = ((n.toNat - 1 : ℕ) : ℤ)
    omega
  refine ⟨policy, config, ?policy, ?config, ?optimized, ?async⟩
  case policy =>
    unfold RetryPolicy.create
    rw [dif_neg (not_lt.mpr attempts), dif_neg (not_or.mpr ⟨not_lt.mpr nonnegative,
      not_lt.mpr capNonnegative⟩), dif_neg (not_lt.mpr ordered), dif_neg (by norm_num),
      dif_neg (lt_irrefl 0)]
  case config =>
    unfold RetryConfig.create
    rw [dif_pos ⟨attempts, nonnegative, capNonnegative⟩]
  case optimized =>
    rw [Eis.Performance.retryOptimized_eq_run, callLoop_eq_run,
      retryDelay_eq_delayAfter policy config rfl rfl rfl rfl uniform]
  case async =>
    have delay : Eis.Observability.RetryPolicy.delay (ε := CallException ε) ⟨n - 1, b, m⟩ =
        fun attempt => policy.delayAfter (attempt + 1) := delay_eq_delayAfter policy rfl (n - 1)
    rw [Eis.Observability.retryAsync_eq_run CallException.retryable retries, callLoop_eq_run,
      delay]

inductive BuiltinError where
  | overflowError
  | valueError (message : String)
  | runtimeError (message : String)

instance : Exceptions BuiltinError where
  isException _ := true
  overflowError := .overflowError
  valueError := .valueError
  runtimeError := .runtimeError

def unavailableTwice (attempt : ℕ) : Option (Except ModelError (Response Unit)) :=
  if attempt < 2 then
    some (.error { kind := .unavailable, message := "provider returned HTTP 503",
                   retryable := true })
  else some (.error { kind := .validation, message := "provider returned HTTP 400" })

theorem retry_loops_agree_unavailable :
    ∃ policy config, RetryPolicy.create 4 (1 / 2) 8 2 = .ok policy ∧
      RetryConfig.create 4 (1 / 2) 8 0 = .ok config ∧
      retryOptimized (ε := CallException BuiltinError) CallException.retryable (some config)
          (fun _ low _ => low) (fun k => (unavailableTwice k).map (Except.mapError .modelError)) =
        callLoop policy "openai" .generate (fun k => (unavailableTwice k).map invocation) 0 ∧
      retryAsync (ε := CallException BuiltinError) (some ⟨4 - 1, 1 / 2, 8⟩)
          (some CallException.retryable)
          (fun k => (unavailableTwice k).map (Except.mapError .modelError)) =
        callLoop policy "openai" .generate (fun k => (unavailableTwice k).map invocation) 0 :=
  retry_loops_agree (by decide) (by norm_num) (by norm_num) "openai" .generate unavailableTwice
    fun _ low _ => low

end Eis.Models
