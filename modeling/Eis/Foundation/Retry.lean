import Mathlib.Data.Nat.Notation

/-!
# Bounded retries

What is seen from outside of a loop that calls an operation, sleeps after a failure and
calls it again: how often it called, how long it slept each time, and how it ended.
Attempts count from zero.
-/

set_option autoImplicit false

/-- The exceptions of a program, as far as a loop tells them apart or raises its own. -/
class Exceptions (ε : Type) where
  /-- `isinstance(exc, Exception)` -/
  isException : ε → Bool
  overflowError : ε
  valueError : String → ε
  runtimeError : String → ε

namespace Retry

inductive Ending (α ε : Type) where
  | returned (value : α)
  | raised (error : ε)
  /-- The last call does not end. -/
  | pending

structure Trace (δ α ε : Type) where
  calls : ℕ
  sleeps : List δ
  ending : Ending α ε

variable {δ α ε : Type}

def Trace.stop (ending : Ending α ε) : Trace δ α ε := ⟨1, [], ending⟩

def Trace.prepend (seconds : δ) (later : Trace δ α ε) : Trace δ α ε :=
  ⟨later.calls + 1, seconds :: later.sleeps, later.ending⟩

/-- One call and, after a sleep, all the rest; the error of an undefined delay ends it. -/
def Trace.sleep (delay : Except ε δ) (later : Trace δ α ε) : Trace δ α ε :=
  match delay with
  | .ok seconds => later.prepend seconds
  | .error undefined => .stop (.raised undefined)

theorem foldr_prepend (sleeps : List δ) (later : Trace δ α ε) :
    sleeps.foldr Trace.prepend later =
      ⟨later.calls + sleeps.length, sleeps ++ later.sleeps, later.ending⟩ := by
  induction sleeps with
  | nil => rfl
  | cons seconds sleeps ih =>
      rw [List.foldr_cons, ih]
      rfl

/-- One turn of a loop; `later` is what follows a sleep, if there is another attempt.  A
failure that is not repeated goes through. -/
def turn (again : ε → Bool) (delay : Except ε δ) (outcome : Option (Except ε α))
    (later : Option (Trace δ α ε)) : Trace δ α ε :=
  match outcome with
  | none => .stop .pending
  | some (.ok value) => .stop (.returned value)
  | some (.error error) =>
      match later with
      | none => .stop (.raised error)
      | some later =>
          if again error then later.sleep delay else .stop (.raised error)

theorem turn_caught (isException retryable : ε → Bool) (delay : Except ε δ)
    (outcome : Option (Except ε α)) (final : Prop) [Decidable final] (later : Trace δ α ε) :
    turn (fun exc => isException exc && retryable exc) delay outcome
        (if final then none else some later) =
      match outcome with
      | none => .stop .pending
      | some (.ok value) => .stop (.returned value)
      | some (.error exc) =>
          if isException exc = false then .stop (.raised exc)
          else if final ∨ retryable exc = false then .stop (.raised exc)
          else later.sleep delay := by
  rcases outcome with _ | exc | value
  · rfl
  · by_cases last : final
    · simp [turn, last]
    · cases caught : isException exc
      · simp [turn, last, caught]
      · cases retried : retryable exc
        · simp [turn, last, retried]
        · simp [turn, last, caught, retried]
  · rfl

section Run
variable (again : ε → Bool) (delay : ℕ → Except ε δ) (outcomes : ℕ → Option (Except ε α))

def run : ℕ → ℕ → Trace δ α ε
  | 0, attempt => turn again (delay attempt) (outcomes attempt) none
  | left + 1, attempt =>
      turn again (delay attempt) (outcomes attempt) (some (run left (attempt + 1)))

variable {again delay outcomes}

/-- A loop whose turns are these is this run, however it counts. -/
theorem eq_run (loop : ℕ → ℕ → Trace δ α ε) (limit : ℕ)
    (last : loop 0 limit = turn again (delay limit) (outcomes limit) none)
    (more : ∀ left attempt, attempt + (left + 1) = limit → loop (left + 1) attempt =
      turn again (delay attempt) (outcomes attempt) (some (loop left (attempt + 1))))
    {left attempt : ℕ} (total : attempt + left = limit) :
    loop left attempt = run again delay outcomes left attempt := by
  induction left generalizing attempt with
  | zero =>
      obtain rfl : attempt = limit := total
      exact last
  | succ left ih =>
      have rest : loop left (attempt + 1) = run again delay outcomes left (attempt + 1) :=
        ih (by omega)
      rw [more left attempt total, rest, run]

end Run

end Retry
