import Eis.Sdk.Api

/-!
# How a handler ends

A handler of the application ends when its call raises, when it returns a value, or
when what it has returned to await is through.
-/

set_option autoImplicit false

namespace Eis.Sdk

open Program

variable {η ω ε : Type}

/-- The session in which the handler ends, and its end; `mark` is what the facade does
between the call and the wait. -/
def handled (mark : Session η ω → Session η ω) (call : HandlerCall η ω ε)
    (session : Session η ω) : Session η ω × Except (SdkException ε) Value :=
  match call session with
  | (called, .error exception) => (called, .error exception)
  | (called, .ok (.value value)) => (mark called, .ok value)
  | (called, .ok (.awaitable wait)) => wait (mark called)

namespace Application

section Invoke
variable {α : Type} {call : Call (Session η ω) (SdkException ε) α} {session called : Session η ω}

theorem invoke_of_ok {value : α} (ok : call session = (called, .ok value)) :
    invoke call session = .ok value called := by
  unfold invoke
  rw [ok]

theorem invoke_of_error {exception : SdkException ε}
    (raised : call session = (called, .error exception)) :
    invoke call session = .error exception called := by
  unfold invoke
  rw [raised]

end Invoke

section Handled
variable {mark : Session η ω → Session η ω} {call : HandlerCall η ω ε}
variable {session called last : Session η ω}

theorem handled_of_raised {exception : SdkException ε}
    (raised : call session = (called, .error exception)) :
    handled mark call session = (called, .error exception) := by
  unfold handled
  rw [raised]

theorem handled_of_value {value : Value} (ok : call session = (called, .ok (.value value))) :
    handled mark call session = (mark called, .ok value) := by
  unfold handled
  rw [ok]

theorem handled_of_awaitable {wait : Call (Session η ω) (SdkException ε) Value}
    (ok : call session = (called, .ok (.awaitable wait))) :
    handled mark call session = wait (mark called) := by
  unfold handled
  rw [ok]

theorem settle_of_handled {returned : Returned η ω ε}
    {outcome : Except (SdkException ε) Value} (ok : call session = (called, .ok returned))
    (through : handled mark call session = (last, outcome)) :
    settle returned (mark called) = Program.ended outcome last := by
  cases returned with
  | value value =>
      rw [handled_of_value ok] at through
      cases through
      rfl
  | awaitable wait =>
      rw [handled_of_awaitable ok] at through
      cases outcome with
      | ok value => exact invoke_of_ok through
      | error exception => exact invoke_of_error through

theorem invoke_of_handled {outcome : Except (SdkException ε) Value}
    (through : handled id call session = (last, outcome)) :
    (invoke call >>= settle : SdkProgram η ω ε Value) session = Program.ended outcome last := by
  rcases ok : call session with ⟨called, exception | returned⟩
  · rw [handled_of_raised ok] at through
    cases through
    exact bind_of_error (invoke_of_error ok)
  · rw [bind_of_ok (invoke_of_ok ok)]
    exact settle_of_handled ok through

end Handled

end Application

end Eis.Sdk
