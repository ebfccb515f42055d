import Mathlib.Data.List.Perm.Basic
import Eis.Integrity.Engine

/-!
# How a verdict depends on the evidence

With a clock that stands still the order of the evidence does not matter, expired
items settle nothing, and one fresh item of the opposite polarity makes a claim
questionable.
-/

set_option autoImplicit false

namespace Eis.Integrity

namespace DefaultIntegrityEngine

def Backed (status : ValidationStatus) : Prop :=
  status = .supported ∨ status = .technicallyRisky

/-- The laws of one claim and one list of evidence; an item is added anywhere. -/
structure EvidenceLaws (now : ℚ) (claim : Claim) (evidence : List EvidenceItem) : Prop where
  unordered : ∀ reordered : List EvidenceItem, reordered.Perm evidence →
    (validateClaim (Readings.fixed now) claim reordered).status =
      (validateClaim (Readings.fixed now) claim evidence).status
  expired : ∀ before item after, evidence = before ++ after → matchesClaim claim item = true →
    item.isFresh now = false →
      (Backed (validateClaim (Readings.fixed now) claim (before ++ item :: after)).status →
        Backed (validateClaim (Readings.fixed now) claim evidence).status) ∧
      staleEvidence ∈
        (validateClaim (Readings.fixed now) claim (before ++ item :: after)).uncertainty
  opposed : ∀ expected before item after, claim.polarity = .bool expected →
    evidence = before ++ after → matchesClaim claim item = true → item.isFresh now = true →
      item.polarity = some (!expected) →
        (validateClaim (Readings.fixed now) claim (before ++ item :: after)).status =
          .questionable

end DefaultIntegrityEngine

/-! ## The branches of the verdict -/

theorem sourceCount_perm {items items' : List EvidenceItem} (same : items.Perm items') :
    sourceCount items = sourceCount items' :=
  (same.map _).dedup.length_eq

theorem verdict_perm (claim : Claim)
    {matching matching' stale stale' supporting supporting' contradicting contradicting' :
      List EvidenceItem} (matched : matching.Perm matching') (expired : stale.Perm stale')
    (backing : supporting.Perm supporting') (opposing : contradicting.Perm contradicting') :
    verdict claim matching stale supporting contradicting =
      verdict claim matching' stale' supporting' contradicting' := by
  have nil_iff : ∀ {items items' : List EvidenceItem}, items.Perm items' →
      (items = [] ↔ items' = []) := by
    intro items items' same
    constructor
    · rintro rfl
      exact same.symm.eq_nil
    · rintro rfl
      exact same.eq_nil
  unfold verdict
  simp only [ne_eq, nil_iff matched, nil_iff expired, nil_iff backing, nil_iff opposing,
    sourceCount_perm backing]

theorem backed_iff (claim : Claim)
    (matching stale supporting contradicting : List EvidenceItem) :
    DefaultIntegrityEngine.Backed (verdict claim matching stale supporting contradicting).status ↔
      Settled claim supporting contradicting := by
  unfold DefaultIntegrityEngine.Backed
  by_cases settled : Settled claim supporting contradicting
  · refine iff_of_true ?_ settled
    rw [verdict_of_settled settled]
    cases claim.technicalRisk with
    | true => exact Or.inr rfl
    | false => exact Or.inl rfl
  · obtain ⟨unsupported, riskless⟩ := verdict_of_unsettled settled
    exact iff_of_false (not_or.mpr ⟨unsupported, riskless⟩) settled

theorem verdict_of_contradicting {claim : Claim}
    {matching stale supporting contradicting : List EvidenceItem} {item : EvidenceItem}
    (member : item ∈ contradicting) :
    (verdict claim matching stale supporting contradicting).status = .questionable := by
  have conflict : contradicting ≠ [] := List.ne_nil_of_mem member
  unfold verdict
  rw [if_pos conflict]

namespace DefaultIntegrityEngine

variable {now : ℚ} {claim : Claim} {evidence : List EvidenceItem}

theorem status_perm {reordered : List EvidenceItem} (same : reordered.Perm evidence) :
    (validateClaim (Readings.fixed now) claim reordered).status =
      (validateClaim (Readings.fixed now) claim evidence).status := by
  unfold validateClaim
  simp only [freshAt_fixed, staleAt_fixed]
  have matched := same.filter (matchesClaim claim)
  have fresh := matched.filter (EvidenceItem.isFresh now)
  have expired := matched.filter fun item => !item.isFresh now
  rw [verdict_perm claim matched expired (fresh.filter _) (fresh.filter _)]

theorem fresh_insert_expired (claim : Claim) (before after : List EvidenceItem)
    {item : EvidenceItem} (expired : item.isFresh now = false) :
    ((before ++ item :: after).filter (matchesClaim claim)).filter (EvidenceItem.isFresh now) =
      ((before ++ after).filter (matchesClaim claim)).filter (EvidenceItem.isFresh now) := by
  rw [List.filter_append, List.filter_append, List.filter_append, List.filter_append,
    List.filter_cons]
  split
  · rw [List.filter_cons_of_neg (by simp [expired])]
  · rfl

/-- The laws hold for every claim and all evidence. -/
theorem evidenceLaws (now : ℚ) (claim : Claim) (evidence : List EvidenceItem) :
    EvidenceLaws now claim evidence := by
  refine { unordered := ?unordered, expired := ?expired, opposed := ?opposed }
  case unordered =>
    intro reordered same
    exact status_perm same
  case expired =>
    rintro before item after rfl matched expired
    have fresh := fresh_insert_expired claim before after expired
    constructor
    · unfold validateClaim
      simp only [freshAt_fixed, backed_iff, fresh]
      exact id
    · have stale : item ∈ ((before ++ item :: after).filter (matchesClaim claim)).filter
          (fun other => !other.isFresh now) := by
        simp [matched, expired]
      unfold validateClaim
      simp only [staleAt_fixed]
      rw [if_pos (List.ne_nil_of_mem stale)]
      simp
  case opposed =>
    rintro expected before item after given rfl matched fresh polarity
    unfold validateClaim
    simp only [freshAt_fixed]
    have among : item ∈ (((before ++ item :: after).filter (matchesClaim claim)).filter
        (EvidenceItem.isFresh now)).filter (contradicts claim) := by
      simp [matched, fresh, contradicts, polarity, given, isPolarity]
    exact verdict_of_contradicting among

end DefaultIntegrityEngine

end Eis.Integrity
