/-!
# Futures

The state of an `asyncio.Future`.  It is settled once: a second `set_result` or
`set_exception` raises `InvalidStateError`, and `cancel` settles a future that
is still pending.
-/

set_option autoImplicit false

universe u v

inductive Future (α : Type u) (ε : Type v) where
  | pending
  | cancelled
  | result (value : α)
  | exception (error : ε)
deriving DecidableEq

namespace Future

variable {α : Type u} {ε : Type v}

def done : Future α ε → Bool
  | .pending => false
  | _ => true

/-- `none` stands for the `InvalidStateError`. -/
def setResult (future : Future α ε) (value : α) : Option (Future α ε) :=
  match future with
  | .pending => some (.result value)
  | _ => none

/-- `none` stands for the `InvalidStateError`. -/
def setException (future : Future α ε) (error : ε) : Option (Future α ε) :=
  match future with
  | .pending => some (.exception error)
  | _ => none

def cancel : Future α ε → Future α ε
  | .pending => .cancelled
  | settled => settled

@[simp] theorem cancel_done (future : Future α ε) : future.cancel.done = true := by
  cases future <;> rfl

theorem cancel_of_done {future : Future α ε} (settled : future.done = true) :
    future.cancel = future := by
  cases future with
  | pending => cases settled
  | cancelled => rfl
  | result value => rfl
  | exception error => rfl

end Future
