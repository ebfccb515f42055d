import Mathlib.Algebra.GroupWithZero.Nat
import Mathlib.Data.Rat.Defs
import Mathlib.Algebra.Order.Ring.Rat
import Eis.Foundation.Uuid
import Eis.Foundation.Value

/-!
# Models of retrieval and assembled context

Items with their provenance, the normalized query, and a request whose bounds
have passed the checks of its constructor.  Scores are rationals.
-/

set_option autoImplicit false

namespace Eis.Context

inductive SourceKind where
  | knowledge | memory | project | repository | documentation | decision | task
deriving DecidableEq

structure ProvenanceRecord where
  sourceId : String
  sourceKind : SourceKind
  locator : String
  authority : ℚ := 1
  capturedAt : String
  sourceVersion : Option String := none
  metadata : Dict := Table.empty
  bounded : 0 ≤ authority ∧ authority ≤ 1

structure ContextItem where
  id : UUID
  content : String
  provenance : ProvenanceRecord
  relevance : ℚ := 0
  freshness : ℚ := 1
  score : ℚ := 0
  metadata : Dict := Table.empty

structure Query where
  raw : String
  normalized : String
  terms : List String

structure ContextRequest where
  query : String
  limit : ℤ := 10
  maxCharacters : ℤ := 12000
  sourceKinds : List SourceKind := []
  metadata : Dict := Table.empty
  minScore : ℚ := 0
  positive : 1 ≤ limit ∧ 1 ≤ maxCharacters
  bounded : 0 ≤ minScore ∧ minScore ≤ 1

theorem unthresholded : (0 : ℚ) ≤ 0 ∧ (0 : ℚ) ≤ 1 := by decide +kernel

/-- `sum(len(item.content) for item in items)` -/
def characters (items : List ContextItem) : ℕ :=
  (items.map fun item => item.content.length).sum

structure ContextResult where
  query : Query
  items : List ContextItem
  truncated : Bool := false

def ContextResult.characterCount (result : ContextResult) : ℕ := characters result.items

@[simp] theorem characters_append (items others : List ContextItem) :
    characters (items ++ others) = characters items + characters others := by
  simp [characters]

@[simp] theorem characters_singleton (item : ContextItem) :
    characters [item] = item.content.length := by
  simp [characters]

end Eis.Context
