import Mathlib.Data.Rat.Defs
import Mathlib.Algebra.Order.Ring.Rat
import Eis.Foundation.OrderedDict
import Eis.Foundation.Uuid
import Eis.Foundation.Value

/-!
# Stages, corrections and reports of verification
-/

set_option autoImplicit false

namespace Eis.Verification

inductive VerificationStage where
  | requirement
  | code
  | test
  | regression
  | architecture
  | security
  | quality
deriving DecidableEq

def VerificationStage.all : List VerificationStage :=
  [.requirement, .code, .test, .regression, .architecture, .security, .quality]

inductive FailureClass where
  | syntaxFailure
  | type
  | test
  | runtime
  | dependency
  | architecture
  | security
  | requirement
  | environment
  | unknown
deriving DecidableEq

structure VerificationLimits where
  maxCorrectionAttempts : ℕ := 3

def VerificationLimits.create (maxCorrectionAttempts : ℤ) : Except String VerificationLimits :=
  if maxCorrectionAttempts < 0 then .error "max_correction_attempts must not be negative"
  else .ok { maxCorrectionAttempts := maxCorrectionAttempts.toNat }

structure VerificationRequest where
  objective : String
  repository : String
  changes : List String := []
  baseline : Value := .none
  input : Value := .none
  id : UUID

/-- `stage` is what the verifier says it has checked. -/
structure StageResult where
  stage : VerificationStage
  passed : Bool
  detail : String := ""
  evidence : List String := []
  uncertainty : String := ""
deriving DecidableEq

structure RootCauseAnalysis where
  failure : String
  classification : FailureClass
  suspectedCause : String
  confidence : ℚ := 0
  evidence : List String := []
  bounded : 0 ≤ confidence ∧ confidence ≤ 1

structure CorrectionRecord where
  attempt : ℕ
  originalFailure : String
  classification : FailureClass
  suspectedCause : String
  changeMade : List String := []
  validationResult : String := ""
  remainingUncertainty : String := ""
  rootCause : Option RootCauseAnalysis := none

structure VerificationReport where
  status : String
  stages : List StageResult := []
  corrections : List CorrectionRecord := []
  failures : List String := []
  attempts : ℕ := 0
  escalated : Bool := false
  escalationReason : Option String := none
  summary : String := ""

namespace VerificationReport

def latest (stages : List StageResult) : OrderedDict VerificationStage StageResult :=
  stages.foldl (fun latest stage => latest.setItem stage.stage stage) Table.empty

def verified (report : VerificationReport) : Bool :=
  if report.status ≠ "verified" ∨ report.escalated then false
  else
    !(latest report.stages).rows.isEmpty &&
      (latest report.stages).rows.all fun item => item.2.passed

end VerificationReport

end Eis.Verification
