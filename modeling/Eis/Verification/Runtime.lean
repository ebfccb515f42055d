import Mathlib.Tactic.NormNum
import Eis.Foundation.Program
import Eis.Foundation.Text
import Eis.Verification.Models

/-!
# The verification engine

`VerificationEngine.verify` over a world that the verifiers, the analyzer and
the correction runner may change as they like.  The trace lists the calls that
returned.
-/

set_option autoImplicit false

namespace Eis.Verification

/-! ## The default analyzer -/

def FailureClass.keywords : List (FailureClass × List String) :=
  [(.syntaxFailure, ["syntax", "parseerror", "indentation"]),
    (.type, ["type", "mypy", "typing"]),
    (.test, ["test", "assert", "pytest"]),
    (.runtime, ["runtime", "traceback", "exception"]),
    (.dependency, ["dependency", "importerror", "modulenotfound"]),
    (.architecture, ["architecture", "coupling", "layer"]),
    (.security, ["security", "permission", "vulnerability"]),
    (.requirement, ["requirement", "acceptance", "expected"]),
    (.environment, ["environment", "os", "platform", "configuration"])]

def FailureClass.classify (text : String) : FailureClass :=
  match keywords.find? fun entry => entry.2.any (Text.includes text) with
  | some entry => entry.1
  | none => .unknown

def FailureClass.confidence (classification : FailureClass) : ℚ :=
  if classification ≠ .unknown then 1 / 2 else 0

theorem FailureClass.confidence_bounded (classification : FailureClass) :
    0 ≤ classification.confidence ∧ classification.confidence ≤ 1 := by
  unfold confidence
  split <;> norm_num

def DefaultRootCauseAnalyzer.analyze (failure : StageResult) : RootCauseAnalysis :=
  let text := Text.lower (failure.detail ++ " " ++ " ".intercalate failure.evidence)
  let classification := FailureClass.classify text
  { failure := Text.orElse failure.detail "verification stage failed"
    classification := classification
    suspectedCause := Text.orElse failure.detail "cause could not be established"
    confidence := classification.confidence
    evidence := failure.evidence
    bounded := classification.confidence_bounded }

/-! ## The engine -/

structure RegressionGuard (σ ε : Type) where
  verifyBaseline : VerificationRequest → Call σ ε StageResult
  verifyRegression : VerificationRequest → Call σ ε StageResult

structure VerificationEngine (σ ε : Type) where
  verifier : VerificationStage → VerificationRequest → Call σ ε StageResult
  correction : VerificationRequest → RootCauseAnalysis → Call σ ε (List String)
  rootCause : Option (StageResult → Call σ ε RootCauseAnalysis) := none
  regression : Option (RegressionGuard σ ε) := none
  limits : VerificationLimits := {}

/-- `guarded` tells whether the regression guard was called. -/
inductive VerificationEvent where
  | baseline (result : StageResult)
  | stage (stage : VerificationStage) (guarded : Bool) (result : StageResult)
  | analyzed
  | corrected (changes : List String)
  | validated (result : StageResult)
deriving DecidableEq

structure Progress (σ : Type) where
  world : σ
  trace : List VerificationEvent := []

/-- The lists and the counter that `verify` accumulates. -/
structure Account where
  stages : List StageResult := []
  corrections : List CorrectionRecord := []
  failures : List String := []
  attempts : ℕ := 0

def Account.escalate (account : Account) (reason : String) : VerificationReport where
  status := "escalated"
  stages := account.stages
  corrections := account.corrections
  failures := account.failures
  attempts := account.attempts
  escalated := true
  escalationReason := some reason
  summary := "Verification stopped without declaring success."

namespace VerificationEngine

variable {σ ε : Type} (engine : VerificationEngine σ ε)

def await {α : Type} (call : Call σ ε α) (event : α → VerificationEvent) :
    Program (Progress σ) ε α := fun progress =>
  match call progress.world with
  | (world, .ok value) => .ok value { world := world, trace := progress.trace ++ [event value] }
  | (world, .error exception) => .error exception { progress with world := world }

def report (account : Account) : VerificationReport where
  status := "verified"
  stages := account.stages
  corrections := account.corrections
  failures := account.failures
  attempts := account.attempts
  summary :=
    if engine.regression.isSome then
      "All independent verification stages passed, including regression protection."
    else "All independent verification stages passed."

/-- The body of the loop of `_run_stages`. -/
def runStage (request : VerificationRequest) (stage : VerificationStage) :
    Program (Progress σ) ε StageResult :=
  match engine.regression with
  | some guard =>
      if stage = .regression then await (guard.verifyRegression request) (.stage stage true)
      else await (engine.verifier stage request) (.stage stage false)
  | none => await (engine.verifier stage request) (.stage stage false)

def runStages (request : VerificationRequest) : Program (Progress σ) ε (List StageResult) :=
  VerificationStage.all.mapM (engine.runStage request)

def validateCorrection (request : VerificationRequest) : Program (Progress σ) ε String := do
  let result ← await (engine.verifier .code request) .validated
  pure (if result.passed then "validated" else "rejected")

/-- `(self.root_cause or DefaultRootCauseAnalyzer()).analyze(failed)` -/
def analyze (failed : StageResult) : Program (Progress σ) ε RootCauseAnalysis :=
  match engine.rootCause with
  | some analyzer => await (analyzer failed) fun _ => .analyzed
  | none => pure (DefaultRootCauseAnalyzer.analyze failed)

/-- The `while` loop; `remaining` is `max_correction_attempts - attempts`. -/
def cycles (request : VerificationRequest) :
    ℕ → Account → Program (Progress σ) ε VerificationReport
  | remaining, account => do
      let current ← engine.runStages request
      let account := { account with stages := account.stages ++ current }
      match current.find? fun stage => !stage.passed with
      | none => pure (engine.report account)
      | some failed =>
          let account :=
            { account with
              failures := account.failures ++
                [Text.orElse failed.detail "verification stage failed"] }
          match remaining with
          | 0 => pure (account.escalate "maximum correction attempts reached")
          | remaining + 1 =>
              let attempts := account.attempts + 1
              let analysis ← engine.analyze failed
              let changes ← await (engine.correction request analysis) .corrected
              let validation ← engine.validateCorrection request
              let record : CorrectionRecord :=
                { attempt := attempts
                  originalFailure := failed.detail
                  classification := analysis.classification
                  suspectedCause := analysis.suspectedCause
                  changeMade := changes
                  validationResult := validation
                  remainingUncertainty :=
                    analysis.evidence.headD "uncertainty remains until full verification"
                  rootCause := some analysis }
              let account :=
                { account with
                  corrections := account.corrections ++ [record]
                  attempts := attempts }
              if validation ≠ "validated" then
                pure (account.escalate "correction did not validate")
              else cycles request remaining account

def verify (request : VerificationRequest) : Program (Progress σ) ε VerificationReport := do
  match engine.regression with
  | some guard =>
      let baseline ← await (guard.verifyBaseline request) .baseline
      let account : Account := { stages := [baseline] }
      if !baseline.passed then
        pure ({ account with failures := [baseline.detail] }.escalate
          "baseline regression verification failed")
      else engine.cycles request engine.limits.maxCorrectionAttempts account
  | none => engine.cycles request engine.limits.maxCorrectionAttempts {}

end VerificationEngine

end Eis.Verification
