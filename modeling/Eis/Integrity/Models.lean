import Mathlib.Algebra.Order.Ring.Rat
import Mathlib.Tactic.NormNum
import Eis.Foundation.Text
import Eis.Knowledge.Models

/-!
# Claims, evidence and assessments
-/

set_option autoImplicit false

namespace Eis.Integrity

open Eis.Knowledge (Provenance)

inductive IntegrityKind where
  | fact
  | verifiedFact
  | observation
  | inference
  | assumption
  | opinion
  | proposal
  | unknown
  | conflictingEvidence
  | uncertain
deriving DecidableEq

inductive ValidationStatus where
  | supported
  | unsupported
  | questionable
  | insufficientEvidence
  | technicallyRisky
  | needsInvestigation
deriving DecidableEq

/-- `__post_init__` refuses a value out of bounds and a blank basis. -/
structure Confidence where
  value : ℚ
  basis : String
  nonnegative : 0 ≤ value
  atMostOne : value ≤ 1
  based : Text.strip basis ≠ ""

theorem sourceEvidence_based : Text.strip "source evidence" ≠ "" := by decide +kernel

def Confidence.sourceEvidence : Confidence where
  value := 1
  basis := "source evidence"
  nonnegative := zero_le_one
  atMostOne := le_refl 1
  based := sourceEvidence_based

structure Uncertainty where
  reason : String
  impact : String
  resolution : Option String := none
deriving DecidableEq

structure EvidenceItem where
  content : String
  provenance : Provenance
  kind : IntegrityKind := .fact
  confidence : Confidence := Confidence.sourceEvidence
  observedAt : ℚ
  expiresAt : Option ℚ := none
  claimKey : Option String := none
  polarity : Option Bool := none
  metadata : Dict := Table.empty

/-- `is_fresh`, where the clock reads `now` -/
def EvidenceItem.isFresh (now : ℚ) (item : EvidenceItem) : Bool :=
  match item.expiresAt with
  | none => true
  | some expiresAt => decide (now ≤ expiresAt)

structure Claim where
  statement : String
  kind : IntegrityKind
  confidence : Confidence
  provenance : List Provenance := []
  evidenceIds : List UUID := []
  uncertainty : List Uncertainty := []
  invalidators : List String := []
  metadata : Dict := Table.empty
  id : UUID

structure ClaimAssessment where
  claim : Claim
  status : ValidationStatus
  supportingEvidence : List EvidenceItem := []
  contradictingEvidence : List EvidenceItem := []
  unsupportedReasons : List String := []
  uncertainty : List Uncertainty := []
  freshnessCheckedAt : ℚ

structure HonestResponse where
  answer : String
  known : List Claim
  beliefs : List Claim
  evidence : List EvidenceItem
  uncertainties : List Uncertainty
  invalidators : List String
  assessments : List ClaimAssessment := []

structure IdeaCriterion where
  name : String
  assessment : ClaimAssessment

structure IdeaEvaluation where
  idea : String
  objective : String
  criteria : List IdeaCriterion
  status : ValidationStatus
  risks : List String := []
  unknowns : List String := []
  dependencies : List String := []
  nextInvestigations : List String := []

end Eis.Integrity
