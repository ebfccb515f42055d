import Mathlib.Algebra.Order.Ring.Rat
import Mathlib.Data.Prod.Lex
import Eis.Foundation.Text
import Eis.Knowledge.Models

/-!
# Memory records

A record of what was observed.  `create` bounds the confidence and the relevance
of a record; the constructor itself checks nothing.
-/

set_option autoImplicit false

namespace Eis.Memory

open Eis.Knowledge (Provenance KnowledgeContent)

inductive MemoryScope where
  | organizational
  | project
  | task
  | agent
  | session
  | episodic
  | decision
  | failure
deriving DecidableEq

inductive MemoryKind where
  | fact
  | observation
  | decision
  | assumption
  | inference
  | experience
  | failure
  | preference
  | unknown
deriving DecidableEq

inductive MemoryStatus where
  | active
  | invalidated
  | superseded
deriving DecidableEq

inductive MemoryError where
  | valueError (message : String)
  | keyError (message : String)
deriving DecidableEq

structure MemoryRecord where
  id : UUID
  scope : MemoryScope
  kind : MemoryKind
  content : KnowledgeContent
  provenance : Provenance
  createdAt : ℚ
  observedAt : ℚ
  confidence : ℚ
  relevance : ℚ
  status : MemoryStatus := .active
  invalidatedAt : Option ℚ := none
  invalidationReason : Option String := none
  supersedes : Option UUID := none
  metadata : Dict := Table.empty

structure Moment where
  time : ℚ
  aware : Bool

namespace MemoryRecord

/-- `MemoryRecord.create`, where `id` is the fresh UUID -/
def create (id : UUID) (now : ℚ) (scope : MemoryScope) (kind : MemoryKind)
    (content : KnowledgeContent) (provenance : Provenance) (confidence : ℚ := 1 / 2)
    (relevance : ℚ := 1 / 2) (observedAt : Option Moment := none) (metadata : Dict := Table.empty)
    (supersedes : Option UUID := none) : Except MemoryError MemoryRecord :=
  if ¬ (0 ≤ confidence ∧ confidence ≤ 1) then
    .error (.valueError "confidence must be between 0 and 1")
  else if ¬ (0 ≤ relevance ∧ relevance ≤ 1) then
    .error (.valueError "relevance must be between 0 and 1")
  else
    let observed := observedAt.getD ⟨now, true⟩
    if observed.aware = false then .error (.valueError "observed_at must be timezone-aware")
    else
      .ok
        { id := id
          scope := scope
          kind := kind
          content := content
          provenance := provenance
          createdAt := now
          observedAt := observed.time
          confidence := confidence
          relevance := relevance
          metadata := metadata
          supersedes := supersedes }

variable (memory : MemoryRecord)

def invalidate (reason : String) (now : ℚ) : Except MemoryError MemoryRecord :=
  if Text.strip reason = "" then .error (.valueError "invalidation reason must not be empty")
  else
    .ok { memory with
      status := .invalidated
      invalidatedAt := some now
      invalidationReason := some reason }

def supersede : MemoryRecord := { memory with status := .superseded }

/-- `(item.relevance, item.observed_at)` -/
def rank : Lex (ℚ × ℚ) := toLex (memory.relevance, memory.observedAt)

/-- `str(memory.content)` -/
def text (reprDict : Dict → String) : String :=
  match memory.content with
  | .text value => value
  | .fields value => reprDict value

end MemoryRecord

end Eis.Memory
