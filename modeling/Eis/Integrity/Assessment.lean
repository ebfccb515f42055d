import Eis.Integrity.Engine

/-!
# What a response presents as known

Only the kind `VERIFIED_FACT` is looked at: a claim of any other kind is known as
soon as fresh evidence supports it.
-/

set_option autoImplicit false

namespace Eis.Integrity

def IntegrityKind.Unsettled (kind : IntegrityKind) : Prop :=
  kind = .opinion ∨ kind = .proposal ∨ kind = .assumption ∨ kind = .unknown ∨
    kind = .conflictingEvidence ∨ kind = .uncertain

theorem IntegrityKind.Unsettled.ne_verifiedFact {kind : IntegrityKind}
    (unsettled : kind.Unsettled) : kind ≠ .verifiedFact := by
  rintro rfl
  simp [IntegrityKind.Unsettled] at unsettled

def FreshMatch (readings : Readings) (claim : Claim) (evidence : List EvidenceItem)
    (item : EvidenceItem) : Prop :=
  ∃ i, (evidence.filter (matchesClaim claim))[i]? = some item ∧
    item.isFresh (readings.fresh i) = true

/-- Fresh matching evidence contradicts the claim, or none supports it, or the claim
is marked as a technical risk. -/
def Doubtful (readings : Readings) (claim : Claim) (evidence : List EvidenceItem) : Prop :=
  (∃ item, FreshMatch readings claim evidence item ∧ contradicts claim item = true) ∨
    (∀ item, FreshMatch readings claim evidence item → supports claim item = false) ∨
    claim.technicalRisk = true

theorem verdict_supported_iff {claim : Claim}
    {matching stale supporting contradicting : List EvidenceItem} :
    (verdict claim matching stale supporting contradicting).status = .supported ↔
      Settled claim supporting contradicting ∧ claim.technicalRisk = false := by
  by_cases settled : Settled claim supporting contradicting
  · rw [verdict_of_settled settled]
    cases claim.technicalRisk <;> simp [settled]
  · refine iff_of_false ?_ fun supported => settled supported.1
    exact (verdict_of_unsettled settled).1

namespace DefaultIntegrityEngine

variable {readings : Readings} {claim : Claim} {evidence : List EvidenceItem}

theorem filter_fresh_eq_nil_iff {kept : EvidenceItem → Bool} :
    (freshAt readings.fresh (evidence.filter (matchesClaim claim))).filter kept = [] ↔
      ∀ item, FreshMatch readings claim evidence item → kept item = false := by
  rw [List.filter_eq_nil_iff]
  constructor
  · intro none item found
    exact Bool.eq_false_iff.mpr (none item (mem_freshAt_iff.mpr found))
  · intro none item member
    exact Bool.eq_false_iff.mp (none item (mem_freshAt_iff.mp member))

theorem supported_iff (unverified : claim.kind ≠ .verifiedFact) :
    (validateClaim readings claim evidence).status = .supported ↔
      ¬ Doubtful readings claim evidence := by
  unfold validateClaim
  rw [verdict_supported_iff]
  constructor
  · rintro ⟨settled, riskless⟩ (⟨item, found, opposed⟩ | unbacked | risky)
    · rw [filter_fresh_eq_nil_iff.mp settled.unopposed item found] at opposed
      cases opposed
    · exact settled.backed (filter_fresh_eq_nil_iff.mpr unbacked)
    · rw [riskless] at risky
      cases risky
  · intro settled
    refine ⟨{ unopposed := ?unopposed, backed := ?backed, corroborated := ?corroborated }, ?_⟩
    case unopposed =>
      refine filter_fresh_eq_nil_iff.mpr fun item found => ?_
      exact Bool.eq_false_iff.mpr fun opposed => settled (Or.inl ⟨item, found, opposed⟩)
    case backed =>
      intro unbacked
      exact settled (Or.inr (Or.inl (filter_fresh_eq_nil_iff.mp unbacked)))
    case corroborated => exact fun verified => unverified verified.1
    exact Bool.eq_false_iff.mpr fun risky => settled (Or.inr (Or.inr risky))

end DefaultIntegrityEngine

/-! ## Known claims and beliefs -/

def marked {α : Type} (items : List α) (marks : List Bool) : List α :=
  ((items.zip marks).filter Prod.snd).map Prod.fst

/-- Every claim is in one of both lists, at one place for each place it has among
the claims, and in their order. -/
def Partitioned (claims known beliefs : List Claim) : Prop :=
  ∃ marks : List Bool, marks.length = claims.length ∧ known = marked claims marks ∧
    beliefs = marked claims (marks.map not)

/-- No claim of an unsettled kind is known, and the claims are split in two. -/
structure HonestlyAssessed (claims : List Claim) (response : HonestResponse) : Prop where
  settled : ∀ claim ∈ response.known, ¬ claim.kind.Unsettled
  partitioned : Partitioned claims response.known response.beliefs

theorem marked_map {α β γ : Type} (f : γ → β) (own : γ → α) (back : β → α)
    (inverse : ∀ item, back (f item) = own item) (kept : β → Bool) (items : List γ) :
    ((items.map f).filter kept).map back =
      marked (items.map own) (items.map fun item => kept (f item)) := by
  induction items with
  | nil => rfl
  | cons item rest ih =>
      unfold marked at ih ⊢
      simp only [List.map_cons, List.filter_cons, List.zip_cons_cons]
      split <;> simp [inverse, ih]

namespace DefaultIntegrityEngine

variable {readings : ℕ → Readings} {answer : String} {claims : List Claim}
variable {evidence : List EvidenceItem}

theorem mem_known_iff {claim : Claim} :
    claim ∈ (assessResponse readings answer claims evidence).known ↔
      ∃ i, claims[i]? = some claim ∧
        (validateClaim (readings i) claim evidence).status = .supported := by
  unfold assessResponse
  simp only [List.mem_map, List.mem_filter, decide_eq_true_eq]
  constructor
  · rintro ⟨_, ⟨⟨⟨other, i⟩, present, rfl⟩, supported⟩, rfl⟩
    exact ⟨i, List.mem_zipIdx_iff_getElem?.mp present, supported⟩
  · rintro ⟨i, present, supported⟩
    exact ⟨_, ⟨⟨(claim, i), List.mem_zipIdx_iff_getElem?.mpr present, rfl⟩, supported⟩, rfl⟩

theorem partitioned (readings : ℕ → Readings) (answer : String) (claims : List Claim)
    (evidence : List EvidenceItem) : Partitioned claims
      (assessResponse readings answer claims evidence).known
      (assessResponse readings answer claims evidence).beliefs := by
  have own : claims.zipIdx.map Prod.fst = claims := List.zipIdx_map_fst 0 claims
  refine ⟨claims.zipIdx.map fun entry =>
    decide ((validateClaim (readings entry.2) entry.1 evidence).status = .supported),
    by simp, ?_, ?_⟩
  · have known := marked_map
      (fun entry : Claim × ℕ => validateClaim (readings entry.2) entry.1 evidence)
      Prod.fst ClaimAssessment.claim (fun _ => rfl)
      (fun assessment => decide (assessment.status = .supported)) claims.zipIdx
    rw [own] at known
    exact known
  · have beliefs := marked_map
      (fun entry : Claim × ℕ => validateClaim (readings entry.2) entry.1 evidence)
      Prod.fst ClaimAssessment.claim (fun _ => rfl)
      (fun assessment => decide (assessment.status ≠ .supported)) claims.zipIdx
    rw [own] at beliefs
    refine Eq.trans beliefs (congrArg (marked claims) ?_)
    rw [List.map_map]
    apply List.map_congr_left
    intro entry _
    simp

/-- The response is honest exactly when every claim of an unsettled kind is doubtful
on its evidence. -/
theorem honestlyAssessed_iff (readings : ℕ → Readings) (answer : String)
    (claims : List Claim) (evidence : List EvidenceItem) :
    HonestlyAssessed claims (assessResponse readings answer claims evidence) ↔
      ∀ i claim, claims[i]? = some claim → claim.kind.Unsettled →
        Doubtful (readings i) claim evidence := by
  constructor
  · intro honest i claim present unsettled
    by_contra settled
    have supported := (supported_iff unsettled.ne_verifiedFact).mpr settled
    exact honest.settled claim (mem_known_iff.mpr ⟨i, present, supported⟩) unsettled
  · intro doubtful
    refine ⟨?_, partitioned readings answer claims evidence⟩
    intro claim known unsettled
    obtain ⟨i, present, supported⟩ := mem_known_iff.mp known
    exact (supported_iff unsettled.ne_verifiedFact).mp supported
      (doubtful i claim present unsettled)

end DefaultIntegrityEngine

/-! ### An opinion with a supporting source -/

def preference : Claim where
  statement := "The layered architecture is the nicest one"
  kind := .opinion
  confidence := Confidence.sourceEvidence
  id := ⟨1⟩

def review : EvidenceItem where
  content := "a review that agrees"
  provenance :=
    { source := { sourceId := ⟨2⟩, sourceType := "review", locator := "docs/review.md" }
      capturedAt := 0 }
  observedAt := 0
  polarity := some true

namespace DefaultIntegrityEngine

/-- The opinion is presented as known. -/
theorem opinion_known :
    ¬ HonestlyAssessed [preference]
      (assessResponse (fun _ => Readings.fixed 0) "It is." [preference] [review]) := by
  intro honest
  exact honest.settled preference (mem_known_iff.mpr ⟨0, rfl, rfl⟩) (Or.inl rfl)

end DefaultIntegrityEngine

end Eis.Integrity
