import Mathlib.Data.PNat.Basic
import Mathlib.Algebra.Order.Ring.Rat
import Mathlib.Tactic.NormNum
import Eis.Foundation.Uuid
import Eis.Foundation.Value

/-!
# Tasks, plans, limits and reports of the engineering agent
-/

set_option autoImplicit false

namespace Eis.Engineering

inductive EngineeringPhase where
  | understand
  | retrieve
  | inspect
  | architecture
  | affectedComponents
  | existingFunctionality
  | duplication
  | plan
  | validatePlan
  | implement
  | targetedTests
  | broaderTests
  | analyzeFailures
  | correct
  | report
  | escalate
deriving DecidableEq

theorem defaultSeconds_pos : (0 : ℚ) < 600 := by norm_num

structure EngineeringLimits where
  maxIterations : ℕ+ := 3
  maxFilesChanged : ℕ+ := 10
  maxExecutionSeconds : { seconds : ℚ // 0 < seconds } := ⟨600, defaultSeconds_pos⟩
  maxToolCalls : ℕ+ := 40

/-- `EngineeringLimits(...)` with its `__post_init__` -/
def EngineeringLimits.create (maxIterations maxFilesChanged : ℤ) (maxExecutionSeconds : ℚ)
    (maxToolCalls : ℤ) : Except String EngineeringLimits :=
  if positive : 1 ≤ maxIterations ∧ 1 ≤ maxFilesChanged then
    if bounded : 0 < maxExecutionSeconds ∧ 1 ≤ maxToolCalls then
      .ok
        { maxIterations := ⟨maxIterations.toNat, by omega⟩
          maxFilesChanged := ⟨maxFilesChanged.toNat, by omega⟩
          maxExecutionSeconds := ⟨maxExecutionSeconds, bounded.1⟩
          maxToolCalls := ⟨maxToolCalls.toNat, by omega⟩ }
    else .error "engineering limits must be positive"
  else .error "engineering limits must be positive"

structure EngineeringTask where
  objective : String
  repository : String
  input : Value := .none
  id : UUID

structure FileChange where
  path : String
  operation : String
  summary : String := ""
deriving DecidableEq

structure ChangeRecord where
  phase : EngineeringPhase
  changes : List FileChange := []
  tool : Option String := none
  detail : String := ""
deriving DecidableEq

structure RepositorySnapshot where
  repository : String
  files : List String := []
  architecture : List String := []
  existingFunctionality : List String := []
  relevantSources : List String := []
  duplicatedComponents : List String := []
  metadata : Dict := Table.empty

structure EngineeringPlan where
  objective : String
  rationale : String
  affectedComponents : List String
  reuseCandidates : List String
  steps : List String
  validation : List String
  risks : List String := []
deriving DecidableEq

structure EngineeringReport where
  task : EngineeringTask
  status : String
  plan : Option EngineeringPlan := none
  changes : List ChangeRecord := []
  tests : List String := []
  failures : List String := []
  iterations : ℕ := 0
  toolCalls : ℕ := 0
  escalated : Bool := false
  escalationReason : Option String := none
  summary : String := ""

end Eis.Engineering
