import Mathlib.Data.List.Dedup
import Eis.Integrity.Models

/-!
# The integrity engine

The clock is read whenever the freshness of an item is asked for, so the readings
are parameters: one for each position of the list that is filtered.
-/

set_option autoImplicit false

namespace Eis.Integrity

/-- What the clock reads while one claim is validated: at each matching item, when
the fresh ones are taken and when the stale ones are, and at the end. -/
structure Readings where
  fresh : ℕ → ℚ
  stale : ℕ → ℚ
  checked : ℚ

def Readings.fixed (now : ℚ) : Readings where
  fresh := fun _ => now
  stale := fun _ => now
  checked := now

def matchesClaim (claim : Claim) (item : EvidenceItem) : Bool :=
  match claim.metadata.get? "claim_key" with
  | none => true
  | some .none => true
  | some (.str key) => decide (item.claimKey = some key)
  | some _ => false

/-- `claim.metadata.get("polarity", True)` -/
def Claim.polarity (claim : Claim) : Value :=
  (claim.metadata.get? "polarity").getD (.bool true)

def isPolarity (polarity : Bool) : Value → Bool
  | .bool expected => decide (polarity = expected)
  | _ => false

def supports (claim : Claim) (item : EvidenceItem) : Bool :=
  match item.polarity with
  | none => true
  | some polarity => isPolarity polarity claim.polarity

def contradicts (claim : Claim) (item : EvidenceItem) : Bool :=
  match item.polarity with
  | none => false
  | some polarity => !isPolarity polarity claim.polarity

def freshAt (reading : ℕ → ℚ) (items : List EvidenceItem) : List EvidenceItem :=
  (items.zipIdx.filter fun entry => entry.1.isFresh (reading entry.2)).map Prod.fst

def staleAt (reading : ℕ → ℚ) (items : List EvidenceItem) : List EvidenceItem :=
  (items.zipIdx.filter fun entry => !entry.1.isFresh (reading entry.2)).map Prod.fst

/-- `len({item.provenance.source.source_id for item in supporting})` -/
def sourceCount (items : List EvidenceItem) : ℕ :=
  (items.map fun item => item.provenance.source.sourceId).dedup.length

def staleEvidence : Uncertainty where
  reason := "some matching evidence is stale"
  impact := "the conclusion may no longer reflect current conditions"
  resolution := some "refresh or replace the stale source"

def conflictingSources : Uncertainty where
  reason := "fresh evidence conflicts with supporting evidence"
  impact := "the claim cannot be treated as settled"
  resolution := some "resolve the conflicting sources"

def singleSource : Uncertainty where
  reason := "verification has only one independent source"
  impact := "the claim should not be treated as independently verified"
  resolution := some "obtain corroboration from another source"

/-- `claim.metadata.get("technical_risk")`, as a condition -/
def Claim.technicalRisk (claim : Claim) : Bool :=
  ((claim.metadata.get? "technical_risk").getD .none).truthy

structure Verdict where
  status : ValidationStatus
  reasons : List String := []
  uncertainty : List Uncertainty := []

/-- The branches of `validate_claim`. -/
def verdict (claim : Claim) (matching stale supporting contradicting : List EvidenceItem) :
    Verdict :=
  if contradicting ≠ [] then { status := .questionable, uncertainty := [conflictingSources] }
  else if supporting = [] then
    if matching ≠ [] ∧ stale = [] then
      { status := .unsupported, reasons := ["available evidence does not support the claim"] }
    else
      { status := .insufficientEvidence, reasons := ["no fresh evidence supports the claim"] }
  else if claim.kind = .verifiedFact ∧ sourceCount supporting < 2 then
    { status := .questionable, uncertainty := [singleSource] }
  else if claim.technicalRisk then { status := .technicallyRisky }
  else { status := .supported }

namespace DefaultIntegrityEngine

def validateClaim (readings : Readings) (claim : Claim) (evidence : List EvidenceItem) :
    ClaimAssessment :=
  let matching := evidence.filter (matchesClaim claim)
  let fresh := freshAt readings.fresh matching
  let stale := staleAt readings.stale matching
  let supporting := fresh.filter (supports claim)
  let contradicting := fresh.filter (contradicts claim)
  let decided := verdict claim matching stale supporting contradicting
  { claim := claim
    status := decided.status
    supportingEvidence := supporting
    contradictingEvidence := contradicting
    unsupportedReasons := decided.reasons
    uncertainty := claim.uncertainty ++ (if stale ≠ [] then [staleEvidence] else []) ++
      decided.uncertainty
    freshnessCheckedAt := readings.checked }

/-- `readings` has an entry for each position of the claims. -/
def assessResponse (readings : ℕ → Readings) (answer : String) (claims : List Claim)
    (evidence : List EvidenceItem) : HonestResponse :=
  let assessments := claims.zipIdx.map fun entry =>
    validateClaim (readings entry.2) entry.1 evidence
  { answer := answer
    known := (assessments.filter fun assessment => assessment.status = .supported).map
      ClaimAssessment.claim
    beliefs := (assessments.filter fun assessment => assessment.status ≠ .supported).map
      ClaimAssessment.claim
    evidence := evidence
    uncertainties := assessments.flatMap ClaimAssessment.uncertainty
    invalidators := claims.flatMap Claim.invalidators
    assessments := assessments }

end DefaultIntegrityEngine

/-! ## The branches of the verdict -/

/-- The evidence settles the claim: none of it is against it, and there is enough for it. -/
structure Settled (claim : Claim) (supporting contradicting : List EvidenceItem) : Prop where
  unopposed : contradicting = []
  backed : supporting ≠ []
  corroborated : ¬ (claim.kind = .verifiedFact ∧ sourceCount supporting < 2)

theorem verdict_of_settled {claim : Claim}
    {matching stale supporting contradicting : List EvidenceItem}
    (settled : Settled claim supporting contradicting) :
    (verdict claim matching stale supporting contradicting).status =
      if claim.technicalRisk then .technicallyRisky else .supported := by
  unfold verdict
  rw [if_neg (not_not.mpr settled.unopposed), if_neg settled.backed, if_neg settled.corroborated]
  split <;> rfl

theorem verdict_of_unsettled {claim : Claim}
    {matching stale supporting contradicting : List EvidenceItem}
    (unsettled : ¬ Settled claim supporting contradicting) :
    (verdict claim matching stale supporting contradicting).status ≠ .supported ∧
      (verdict claim matching stale supporting contradicting).status ≠ .technicallyRisky := by
  unfold verdict
  by_cases opposed : contradicting ≠ []
  · rw [if_pos opposed]
    exact ⟨nofun, nofun⟩
  by_cases unbacked : supporting = []
  · rw [if_neg opposed, if_pos unbacked]
    split <;> exact ⟨nofun, nofun⟩
  by_cases single : claim.kind = .verifiedFact ∧ sourceCount supporting < 2
  · rw [if_neg opposed, if_neg unbacked, if_pos single]
    exact ⟨nofun, nofun⟩
  · exact absurd ⟨not_not.mp opposed, unbacked, single⟩ unsettled

/-! ## The fresh items -/

theorem mem_freshAt_iff {reading : ℕ → ℚ} {items : List EvidenceItem} {item : EvidenceItem} :
    item ∈ freshAt reading items ↔
      ∃ i, items[i]? = some item ∧ item.isFresh (reading i) = true := by
  unfold freshAt
  constructor
  · intro member
    obtain ⟨⟨other, i⟩, kept, rfl⟩ := List.mem_map.mp member
    obtain ⟨present, fresh⟩ := List.mem_filter.mp kept
    exact ⟨i, List.mem_zipIdx_iff_getElem?.mp present, fresh⟩
  · rintro ⟨i, present, fresh⟩
    refine List.mem_map.mpr ⟨(item, i), List.mem_filter.mpr ⟨?_, fresh⟩, rfl⟩
    exact List.mem_zipIdx_iff_getElem?.mpr present

theorem filter_zipIdx (kept : EvidenceItem → Bool) (items : List EvidenceItem) :
    (items.zipIdx.filter fun entry => kept entry.1).map Prod.fst = items.filter kept := by
  have along := List.filter_map (f := Prod.fst) (p := kept) (l := items.zipIdx)
  rw [List.zipIdx_map_fst] at along
  exact along.symm

@[simp] theorem freshAt_fixed (now : ℚ) (items : List EvidenceItem) :
    freshAt (Readings.fixed now).fresh items = items.filter (EvidenceItem.isFresh now) :=
  filter_zipIdx (EvidenceItem.isFresh now) items

@[simp] theorem staleAt_fixed (now : ℚ) (items : List EvidenceItem) :
    staleAt (Readings.fixed now).stale items =
      items.filter fun item => !item.isFresh now :=
  filter_zipIdx (fun item => !item.isFresh now) items

end Eis.Integrity
