import Eis.Integrity.Engine

/-!
# Unsupported claims

An item that matches a claim either supports or contradicts it.  So when fresh items match
and none of them supports the claim, they all contradict it, and the branch for a
contradiction comes first.
-/

set_option autoImplicit false

namespace Eis.Integrity

structure FreshItem (now : ℚ) (claim : Claim) (evidence : List EvidenceItem)
    (item : EvidenceItem) : Prop where
  listed : item ∈ evidence
  relevant : matchesClaim claim item = true
  fresh : item.isFresh now = true

/-- What the two statuses without support are documented to tell apart. -/
structure TellsApart (now : ℚ) (claim : Claim) (evidence : List EvidenceItem)
    (status : ValidationStatus) : Prop where
  unsupported : status = .unsupported ↔
    (∃ item, FreshItem now claim evidence item) ∧
      ∀ item, FreshItem now claim evidence item → supports claim item = false
  insufficient : status = .insufficientEvidence ↔ ¬ ∃ item, FreshItem now claim evidence item

def NoneOrSupport (now : ℚ) (claim : Claim) (evidence : List EvidenceItem) : Prop :=
  (¬ ∃ item, FreshItem now claim evidence item) ∨
    ∃ item, FreshItem now claim evidence item ∧ supports claim item = true

/-- There is nothing in between, whatever the polarities are. -/
theorem contradicts_eq (claim : Claim) (item : EvidenceItem) :
    contradicts claim item = !supports claim item := by
  unfold contradicts supports
  cases item.polarity <;> rfl

namespace DefaultIntegrityEngine

variable {now : ℚ} {claim : Claim} {evidence : List EvidenceItem}

def freshItems (now : ℚ) (claim : Claim) (evidence : List EvidenceItem) : List EvidenceItem :=
  (evidence.filter (matchesClaim claim)).filter (EvidenceItem.isFresh now)

theorem mem_freshItems_iff {item : EvidenceItem} :
    item ∈ freshItems now claim evidence ↔ FreshItem now claim evidence item := by
  unfold freshItems
  rw [List.mem_filter, List.mem_filter]
  constructor
  · rintro ⟨⟨listed, relevant⟩, fresh⟩
    exact ⟨listed, relevant, fresh⟩
  · intro own
    exact ⟨⟨own.listed, own.relevant⟩, own.fresh⟩

theorem freshItems_eq_nil_iff :
    freshItems now claim evidence = [] ↔ ¬ ∃ item, FreshItem now claim evidence item := by
  simp only [List.eq_nil_iff_forall_not_mem, mem_freshItems_iff, not_exists]

theorem validateClaim_fixed (now : ℚ) (claim : Claim) (evidence : List EvidenceItem) :
    (validateClaim (Readings.fixed now) claim evidence).status =
      (verdict claim (evidence.filter (matchesClaim claim))
        ((evidence.filter (matchesClaim claim)).filter fun item => !item.isFresh now)
        ((freshItems now claim evidence).filter (supports claim))
        ((freshItems now claim evidence).filter (contradicts claim))).status := by
  simp only [validateClaim, freshAt_fixed, staleAt_fixed, freshItems]

theorem insufficient_of_nil (none : freshItems now claim evidence = []) :
    (validateClaim (Readings.fixed now) claim evidence).status = .insufficientEvidence := by
  have aged : ¬ (evidence.filter (matchesClaim claim) ≠ [] ∧
      ((evidence.filter (matchesClaim claim)).filter fun item => !item.isFresh now) = []) := by
    rintro ⟨some, unaged⟩
    obtain ⟨item, member⟩ := List.exists_mem_of_ne_nil _ some
    have stale := List.filter_eq_nil_iff.mp unaged item member
    have fresh := List.filter_eq_nil_iff.mp none item member
    simp only [Bool.not_eq_true', Bool.not_eq_false] at stale
    exact fresh stale
  rw [validateClaim_fixed, none]
  unfold verdict
  rw [if_neg (by simp), if_pos List.filter_nil, if_neg aged]

theorem questionable_of_opposed {item : EvidenceItem} (own : FreshItem now claim evidence item)
    (unsupporting : supports claim item = false) :
    (validateClaim (Readings.fixed now) claim evidence).status = .questionable := by
  have opposed : (freshItems now claim evidence).filter (contradicts claim) ≠ [] := by
    refine List.ne_nil_of_mem (a := item) (List.mem_filter.mpr ⟨mem_freshItems_iff.mpr own, ?_⟩)
    rw [contradicts_eq, unsupporting]
    rfl
  rw [validateClaim_fixed]
  unfold verdict
  rw [if_pos opposed]

theorem supported_of_supporting {item : EvidenceItem} (own : FreshItem now claim evidence item)
    (supporting : supports claim item = true) :
    (validateClaim (Readings.fixed now) claim evidence).status ≠ .unsupported ∧
      (validateClaim (Readings.fixed now) claim evidence).status ≠ .insufficientEvidence := by
  have backed : (freshItems now claim evidence).filter (supports claim) ≠ [] :=
    List.ne_nil_of_mem (List.mem_filter.mpr ⟨mem_freshItems_iff.mpr own, supporting⟩)
  rw [validateClaim_fixed]
  unfold verdict
  rw [if_neg backed]
  split_ifs <;> simp

/-- The status `UNSUPPORTED` is never returned. -/
theorem never_unsupported (now : ℚ) (claim : Claim) (evidence : List EvidenceItem) :
    (validateClaim (Readings.fixed now) claim evidence).status ≠ .unsupported := by
  by_cases none : freshItems now claim evidence = []
  · rw [insufficient_of_nil none]
    exact ValidationStatus.noConfusion
  · obtain ⟨item, member⟩ := List.exists_mem_of_ne_nil _ none
    have own := mem_freshItems_iff.mp member
    cases supporting : supports claim item with
    | true => exact (supported_of_supporting own supporting).1
    | false =>
        rw [questionable_of_opposed own supporting]
        exact ValidationStatus.noConfusion

/-- `INSUFFICIENT_EVIDENCE` is what it is documented to be. -/
theorem insufficient_iff (now : ℚ) (claim : Claim) (evidence : List EvidenceItem) :
    (validateClaim (Readings.fixed now) claim evidence).status = .insufficientEvidence ↔
      ¬ ∃ item, FreshItem now claim evidence item := by
  constructor
  · rintro insufficient ⟨item, own⟩
    cases supporting : supports claim item with
    | true => exact (supported_of_supporting own supporting).2 insufficient
    | false =>
        rw [questionable_of_opposed own supporting] at insufficient
        cases insufficient
  · intro none
    exact insufficient_of_nil (freshItems_eq_nil_iff.mpr none)

/-- For every claim and all evidence: the two statuses tell apart what they should exactly
when no fresh item is relevant or one that is supports the claim. -/
theorem tells_apart_iff (now : ℚ) (claim : Claim) (evidence : List EvidenceItem) :
    TellsApart now claim evidence (validateClaim (Readings.fixed now) claim evidence).status ↔
      NoneOrSupport now claim evidence := by
  constructor
  · intro apart
    by_contra neither
    obtain ⟨some, unsupporting⟩ := not_or.mp neither
    refine never_unsupported now claim evidence (apart.unsupported.mpr ⟨not_not.mp some, ?_⟩)
    intro item own
    exact Bool.eq_false_iff.mpr fun supporting => unsupporting ⟨item, own, supporting⟩
  · intro holds
    refine ⟨iff_of_false (never_unsupported now claim evidence) ?_,
      insufficient_iff now claim evidence⟩
    rintro ⟨some, unsupporting⟩
    rcases holds with none | ⟨item, own, supporting⟩
    · exact none some
    · rw [unsupporting item own] at supporting
      cases supporting

end DefaultIntegrityEngine

/-! ### A claim that its only source denies -/

def pinned : Claim where
  statement := "The project uses Python 3.12"
  kind := .fact
  confidence := Confidence.sourceEvidence
  id := ⟨1⟩

def denial : EvidenceItem where
  content := "deployment configuration uses Python 3.11"
  provenance :=
    { source := { sourceId := ⟨2⟩, sourceType := "document", locator := "deploy/runtime.yml" }
      capturedAt := 0 }
  observedAt := 0
  polarity := some false

namespace DefaultIntegrityEngine

/-- A fresh denial is relevant and does not support the claim, and the claim is `QUESTIONABLE`. -/
theorem denied_claim_questionable :
    FreshItem 0 pinned [denial] denial ∧ supports pinned denial = false ∧
      (validateClaim (Readings.fixed 0) pinned [denial]).status = .questionable ∧
      ¬ TellsApart 0 pinned [denial]
        (validateClaim (Readings.fixed 0) pinned [denial]).status := by
  have own : FreshItem 0 pinned [denial] denial :=
    { listed := List.mem_singleton_self denial, relevant := rfl, fresh := rfl }
  refine ⟨own, rfl, rfl, ?_⟩
  intro apart
  have unsupported : ValidationStatus.questionable = .unsupported := by
    refine apart.unsupported.mpr ⟨⟨denial, own⟩, ?_⟩
    intro item other
    obtain rfl := List.mem_singleton.mp other.listed
    rfl
  exact ValidationStatus.noConfusion unsupported

end DefaultIntegrityEngine

end Eis.Integrity
