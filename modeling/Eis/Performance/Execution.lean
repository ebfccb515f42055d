import Eis.Foundation.Retry
import Eis.Models.Policy

/-!
# Retries with jitter

`retry_optimized`.  What the operation does on each attempt is a parameter, and so are the
numbers that `random.uniform` draws.
-/

set_option autoImplicit false

namespace Eis.Performance

open Eis.Models (floatPow)

structure RetryConfig where
  maxAttempts : ℕ := 3
  baseDelaySeconds : ℚ := 1 / 4
  maxDelaySeconds : ℚ := 8
  jitter : ℚ := 1 / 10
  attemptsPositive : 1 ≤ maxAttempts
  baseNonnegative : 0 ≤ baseDelaySeconds
  maxNonnegative : 0 ≤ maxDelaySeconds

namespace RetryConfig

/-- `RetryConfig(...)` with its `__post_init__` -/
def create (maxAttempts : ℤ := 3) (baseDelaySeconds : ℚ := 1 / 4) (maxDelaySeconds : ℚ := 8)
    (jitter : ℚ := 1 / 10) : Except String RetryConfig :=
  if valid : 1 ≤ maxAttempts ∧ 0 ≤ baseDelaySeconds ∧ 0 ≤ maxDelaySeconds then
    .ok
      { maxAttempts := maxAttempts.toNat
        baseDelaySeconds := baseDelaySeconds
        maxDelaySeconds := maxDelaySeconds
        jitter := jitter
        attemptsPositive := by omega
        baseNonnegative := valid.2.1
        maxNonnegative := valid.2.2 }
  else .error "invalid retry configuration"

theorem default_positive : 1 ≤ 3 := by decide

theorem default_nonnegative : (0 : ℚ) ≤ 1 / 4 ∧ (0 : ℚ) ≤ 8 := by norm_num

def default : RetryConfig where
  attemptsPositive := default_positive
  baseNonnegative := default_nonnegative.1
  maxNonnegative := default_nonnegative.2

end RetryConfig

variable {α ε : Type} [Exceptions ε]

section Loop
variable (selected : RetryConfig) (retryable : ε → Bool) (uniform : ℕ → ℚ → ℚ → ℚ)

/-- The seconds to sleep after `attempt`.  An integer power beyond the floats cannot be
multiplied with one. -/
def retryDelay (attempt : ℕ) : Except ε ℚ :=
  match floatPow 2 attempt with
  | none => .error Exceptions.overflowError
  | some power =>
      let delay := min selected.maxDelaySeconds (selected.baseDelaySeconds * power)
      if selected.jitter = 0 then .ok delay
      else .ok (delay + uniform attempt 0 (delay * selected.jitter))

def retryLoop (outcomes : ℕ → Option (Except ε α)) : List ℕ → Retry.Trace ℚ α ε
  | [] => ⟨0, [], .raised (Exceptions.runtimeError "retry loop exhausted")⟩
  | attempt :: later =>
      match outcomes attempt with
      | none => .stop .pending
      | some (.ok value) => .stop (.returned value)
      | some (.error exc) =>
          if Exceptions.isException exc = false then .stop (.raised exc)
          else if selected.maxAttempts ≤ attempt + 1 ∨ retryable exc = false then
            .stop (.raised exc)
          else (retryLoop outcomes later).sleep (retryDelay selected uniform attempt)

end Loop

def retryOptimized (retryable : ε → Bool) (config : Option RetryConfig)
    (uniform : ℕ → ℚ → ℚ → ℚ) (outcomes : ℕ → Option (Except ε α)) : Retry.Trace ℚ α ε :=
  let selected := config.getD RetryConfig.default
  retryLoop selected retryable uniform outcomes (List.range selected.maxAttempts)

section Turns
variable (selected : RetryConfig) (retryable : ε → Bool) (uniform : ℕ → ℚ → ℚ → ℚ)
  (outcomes : ℕ → Option (Except ε α))

theorem retryLoop_cons (attempt : ℕ) (later : List ℕ) :
    retryLoop selected retryable uniform outcomes (attempt :: later) =
      Retry.turn (fun exc => Exceptions.isException exc && retryable exc)
        (retryDelay selected uniform attempt) (outcomes attempt)
        (if selected.maxAttempts ≤ attempt + 1 then none
          else some (retryLoop selected retryable uniform outcomes later)) := by
  rw [retryLoop]
  exact (Retry.turn_caught Exceptions.isException retryable _ _ _ _).symm

theorem retryLoop_eq_run {left attempt : ℕ} (total : attempt + left = selected.maxAttempts - 1) :
    retryLoop selected retryable uniform outcomes (List.range' attempt (left + 1)) =
      Retry.run (fun exc => Exceptions.isException exc && retryable exc)
        (retryDelay selected uniform) outcomes left attempt := by
  refine Retry.eq_run
    (fun left attempt => retryLoop selected retryable uniform outcomes
      (List.range' attempt (left + 1))) (selected.maxAttempts - 1) ?last ?more total
  case last =>
    have final : selected.maxAttempts ≤ selected.maxAttempts - 1 + 1 := by omega
    rw [List.range'_succ, retryLoop_cons, if_pos final]
  case more =>
    intro left attempt earlier
    have again : ¬ selected.maxAttempts ≤ attempt + 1 := by omega
    rw [List.range'_succ, retryLoop_cons, if_neg again]

end Turns

/-- `retry_optimized` is the run of its attempts. -/
theorem retryOptimized_eq_run (retryable : ε → Bool) (config : RetryConfig)
    (uniform : ℕ → ℚ → ℚ → ℚ) (outcomes : ℕ → Option (Except ε α)) :
    retryOptimized retryable (some config) uniform outcomes =
      Retry.run (fun exc => Exceptions.isException exc && retryable exc)
        (retryDelay config uniform) outcomes (config.maxAttempts - 1) 0 := by
  obtain ⟨left, attempts⟩ := Nat.exists_eq_add_of_le' config.attemptsPositive
  have last : config.maxAttempts - 1 = left := by omega
  rw [last, ← retryLoop_eq_run config retryable uniform outcomes (by omega)]
  rw [retryOptimized, Option.getD_some, attempts, List.range_eq_range']

end Eis.Performance
