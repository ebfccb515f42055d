import Mathlib.Algebra.Order.Ring.Rat
import Mathlib.Algebra.Order.GroupWithZero.Basic
import Mathlib.Tactic.NormNum

/-!
# The retry policy

Delays are exact rationals.  A power of floats that leaves their range raises an
`OverflowError`, while a product that does so is infinite, and then the maximal
delay is the smaller one.
-/

set_option autoImplicit false

namespace Eis.Models

structure RetryPolicy where
  maxAttempts : ℕ := 3
  initialDelay : ℚ := 1 / 4
  maxDelay : ℚ := 5
  multiplier : ℚ := 2
  jitter : ℚ := 0
  attemptsPositive : 1 ≤ maxAttempts
  initialNonnegative : 0 ≤ initialDelay
  initialLeMax : initialDelay ≤ maxDelay
  multiplierAtLeastOne : 1 ≤ multiplier
  jitterNonnegative : 0 ≤ jitter

inductive DelayError where
  | valueError (message : String)
  | overflowError
deriving DecidableEq

/-- What rounds to a finite float lies below. -/
def floatLimit : ℚ := 2 ^ 1024 - 2 ^ 970

/-- `base ** exponent` for a base of at least one; `none` stands for the
`OverflowError`. -/
def floatPow (base : ℚ) (exponent : ℕ) : Option ℚ :=
  if base ^ exponent < floatLimit then some (base ^ exponent) else none

theorem floatLimit_eq : floatLimit = 2 ^ 970 * (2 ^ 54 - 1) := by
  rw [floatLimit, mul_sub, ← pow_add, mul_one]

theorem one_lt_floatLimit : 1 < floatLimit := by
  have grown : (1 : ℚ) ≤ 2 ^ 970 := one_le_pow₀ (by norm_num)
  have factor : (1 : ℚ) < 2 ^ 54 - 1 := by norm_num
  rw [floatLimit_eq]
  exact one_lt_mul_of_le_of_lt grown factor

namespace RetryPolicy

/-- `RetryPolicy(...)` with its `__post_init__` -/
def create (maxAttempts : ℤ := 3) (initialDelay : ℚ := 1 / 4) (maxDelay : ℚ := 5)
    (multiplier : ℚ := 2) (jitter : ℚ := 0) : Except String RetryPolicy :=
  if attempts : maxAttempts < 1 then .error "max_attempts must be at least 1"
  else if delays : initialDelay < 0 ∨ maxDelay < 0 then
    .error "retry delays cannot be negative"
  else if ordered : maxDelay < initialDelay then .error "max_delay must be >= initial_delay"
  else if growing : multiplier < 1 then .error "multiplier must be >= 1"
  else if spread : jitter < 0 then .error "jitter cannot be negative"
  else
    .ok
      { maxAttempts := maxAttempts.toNat
        initialDelay := initialDelay
        maxDelay := maxDelay
        multiplier := multiplier
        jitter := jitter
        attemptsPositive := by omega
        initialNonnegative := not_lt.mp (not_or.mp delays).1
        initialLeMax := not_lt.mp ordered
        multiplierAtLeastOne := not_lt.mp growing
        jitterNonnegative := not_lt.mp spread }

def delay (policy : RetryPolicy) (attempt : ℕ) : Except DelayError ℚ :=
  if attempt < 1 then .error (.valueError "attempt must be >= 1")
  else
    match floatPow policy.multiplier (attempt - 1) with
    | none => .error .overflowError
    | some power => .ok (min policy.maxDelay (policy.initialDelay * power))

theorem delay_cases (policy : RetryPolicy) {attempt : ℕ} (positive : 1 ≤ attempt) :
    (policy.multiplier ^ (attempt - 1) < floatLimit ∧ policy.delay attempt =
        .ok (min policy.maxDelay (policy.initialDelay * policy.multiplier ^ (attempt - 1)))) ∨
      floatLimit ≤ policy.multiplier ^ (attempt - 1) ∧
        policy.delay attempt = .error .overflowError := by
  unfold delay floatPow
  rw [if_neg (not_lt.mpr positive)]
  by_cases finite : policy.multiplier ^ (attempt - 1) < floatLimit
  · exact Or.inl ⟨finite, by rw [if_pos finite]⟩
  · exact Or.inr ⟨not_lt.mp finite, by rw [if_neg finite]⟩

theorem delay_eq_ok_iff (policy : RetryPolicy) {attempt : ℕ} (positive : 1 ≤ attempt) :
    (∃ seconds, policy.delay attempt = .ok seconds) ↔
      policy.multiplier ^ (attempt - 1) < floatLimit := by
  rcases policy.delay_cases positive with ⟨finite, defined⟩ | ⟨infinite, overflow⟩
  · simp [defined, finite]
  · simp [overflow, not_lt.mpr infinite]

theorem delay_one (policy : RetryPolicy) : policy.delay 1 = .ok policy.initialDelay := by
  rcases policy.delay_cases le_rfl with ⟨_, same⟩ | ⟨infinite, _⟩
  · rw [same, Nat.sub_self, pow_zero, mul_one, min_eq_right policy.initialLeMax]
  · rw [Nat.sub_self, pow_zero] at infinite
    exact absurd one_lt_floatLimit (not_lt.mpr infinite)

end RetryPolicy

end Eis.Models
