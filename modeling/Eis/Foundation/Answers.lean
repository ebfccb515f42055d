import Eis.Foundation.Program

/-!
# Asking for answers by name

A harness puts named cases to something outside, one after the other, and
refuses an answer that goes by another name.  All answers are kept in the order
in which they came.
-/

set_option autoImplicit false

structure Asked (σ α : Type) where
  world : σ
  answers : List α := []

inductive AskError (ε : Type) where
  | mismatch (returned expected : String)
  | missing (name : String)
  | raised (error : ε)

/-- The text of the `ValueError` or of the `KeyError`; `repr` writes a string as `!r` does. -/
def AskError.message {ε : Type} (asked : String) (repr : String → String) (str : ε → String) :
    AskError ε → String
  | .mismatch returned expected =>
      asked ++ " returned case " ++ repr returned ++ " for " ++ repr expected
  | .missing name => repr name
  | .raised error => str error

def AskError.Genuine {ε : Type} : AskError ε → Prop
  | .mismatch returned expected => returned ≠ expected
  | .missing _ => False
  | .raised _ => True

namespace Program

variable {σ ε α : Type}

def ask (name : α → String) (call : Call σ ε α) (expected : String) :
    Program (Asked σ α) (AskError ε) α := fun asked =>
  match call asked.world with
  | (world, .ok answer) =>
      if name answer = expected then
        .ok answer { world := world, answers := asked.answers ++ [answer] }
      else
        .error (.mismatch (name answer) expected)
          { world := world, answers := asked.answers ++ [answer] }
  | (world, .error error) => .error (.raised error) { asked with world := world }

theorem ends_ask (name : α → String) (call : Call σ ε α) (expected : String)
    (asked : Asked σ α) :
    (ask name call expected).Ends asked
      (fun answer after => name answer = expected ∧ after.answers = asked.answers ++ [answer])
      fun exception _ => exception.Genuine := by
  unfold Ends ask
  cases called : call asked.world with
  | mk world outcome =>
      cases outcome with
      | error error => trivial
      | ok answer =>
          by_cases named : name answer = expected
          · simp [named]
          · simp only [if_neg named]
            exact named

end Program
