import Eis.Foundation.Pairs
import Eis.Integrity.Engine

/-!
# The contradiction detector

The detector compares the items with each other, the engine compares each item with a
claim.  With a clock that stands still they find the same keys disputed.
-/

set_option autoImplicit false

namespace Eis.Integrity

namespace DefaultContradictionDetector

/-- The first test of the loop, as the condition under which an item is not skipped. -/
def leads (now : ℚ) (first : EvidenceItem) : Bool :=
  first.claimKey.isSome && first.polarity.isSome && first.isFresh now

def opposes (now : ℚ) (first second : EvidenceItem) : Bool :=
  decide (second.claimKey = first.claimKey) && second.polarity.isSome &&
    decide (second.polarity ≠ first.polarity) && second.isFresh now

/-- The loops; `readings i j` is the clock when the item at `j` is looked at behind the
one at `i`. -/
def conflicts (readings : ℕ → ℕ → ℚ) (evidence : List EvidenceItem) :
    List ((EvidenceItem × ℕ) × (EvidenceItem × ℕ)) :=
  Pairs.loop (fun first => leads (readings first.2 first.2) first.1)
    (fun first second => opposes (readings first.2 second.2) first.1 second.1) evidence

def findContradictions (readings : ℕ → ℕ → ℚ) (evidence : List EvidenceItem) :
    List (EvidenceItem × EvidenceItem) :=
  (conflicts readings evidence).map fun pair => (pair.1.1, pair.2.1)

structure Opposed (now : ℚ) (first second : EvidenceItem) : Prop where
  keyed : ∃ key, first.claimKey = some key ∧ second.claimKey = some key
  contrary : ∃ polarity, first.polarity = some polarity ∧ second.polarity = some (!polarity)
  firstFresh : first.isFresh now = true
  secondFresh : second.isFresh now = true

def Asserted (now : ℚ) (evidence : List EvidenceItem) (key : String) (polarity : Bool) : Prop :=
  ∃ item ∈ evidence, item.claimKey = some key ∧ item.polarity = some polarity ∧
    item.isFresh now = true

/-- A claim about `key` that expects `polarity`, said or by default. -/
structure ClaimsOf (key : String) (polarity : Bool) (claim : Claim) : Prop where
  keyed : claim.metadata.get? "claim_key" = some (.str key)
  expects : claim.polarity = .bool polarity

/-- What the detector returns, next to what the engine says. -/
structure FindsContradictions (now : ℚ) (evidence : List EvidenceItem)
    (found : List (EvidenceItem × EvidenceItem)) : Prop where
  agrees : ∀ key affirmed denied, ClaimsOf key true affirmed → ClaimsOf key false denied →
    ((∃ pair ∈ found, pair.1.claimKey = some key ∧ pair.2.claimKey = some key) ↔
      (DefaultIntegrityEngine.validateClaim (Readings.fixed now) affirmed
          evidence).contradictingEvidence ≠ [] ∧
        (DefaultIntegrityEngine.validateClaim (Readings.fixed now) denied
          evidence).contradictingEvidence ≠ [])
  onceInOrder : ∃ places : List (ℕ × ℕ), places.Pairwise (Prod.Lex (· < ·) (· < ·)) ∧
    (∀ i j, (i, j) ∈ places ↔ i < j ∧ ∃ first second,
      evidence[i]? = some first ∧ evidence[j]? = some second ∧ Opposed now first second) ∧
    places.map (fun place => (evidence[place.1]?, evidence[place.2]?)) =
      found.map fun pair => (some pair.1, some pair.2)

/-! ## The detector -/

theorem opposed_iff {now : ℚ} {first second : EvidenceItem} :
    Opposed now first second ↔ leads now first = true ∧ opposes now first second = true := by
  unfold leads opposes
  constructor
  · intro opposed
    obtain ⟨key, firstKey, secondKey⟩ := opposed.keyed
    obtain ⟨polarity, firstSays, secondSays⟩ := opposed.contrary
    simp [firstKey, secondKey, firstSays, secondSays, opposed.firstFresh, opposed.secondFresh]
  · intro ⟨leading, opposing⟩
    simp only [Bool.and_eq_true, decide_eq_true_eq] at leading opposing
    obtain ⟨⟨hasKey, speaks⟩, firstFresh⟩ := leading
    obtain ⟨⟨⟨sameKey, answers⟩, differ⟩, secondFresh⟩ := opposing
    obtain ⟨key, firstKey⟩ := Option.isSome_iff_exists.mp hasKey
    obtain ⟨polarity, firstSays⟩ := Option.isSome_iff_exists.mp speaks
    obtain ⟨other, secondSays⟩ := Option.isSome_iff_exists.mp answers
    have contrary : other = !polarity := by
      rw [firstSays, secondSays] at differ
      exact Bool.eq_not.mpr fun same => differ (congrArg some same)
    refine
      { keyed := ⟨key, firstKey, sameKey.trans firstKey⟩
        contrary := ⟨polarity, firstSays, ?_⟩
        firstFresh := firstFresh
        secondFresh := secondFresh }
    rw [secondSays, contrary]

variable {now : ℚ} {evidence : List EvidenceItem}

theorem mem_conflicts_iff {first second : EvidenceItem} {i j : ℕ} :
    ((first, i), (second, j)) ∈ conflicts (fun _ _ => now) evidence ↔
      i < j ∧ evidence[i]? = some first ∧ evidence[j]? = some second ∧
        Opposed now first second := by
  unfold conflicts
  rw [Pairs.mem_loop_iff, opposed_iff]

theorem mem_findContradictions_iff {first second : EvidenceItem} :
    (first, second) ∈ findContradictions (fun _ _ => now) evidence ↔ ∃ i j : ℕ, i < j ∧
      evidence[i]? = some first ∧ evidence[j]? = some second ∧ Opposed now first second := by
  unfold findContradictions
  rw [List.mem_map]
  constructor
  · intro ⟨⟨⟨_, i⟩, ⟨_, j⟩⟩, member, same⟩
    cases same
    exact ⟨i, j, mem_conflicts_iff.mp member⟩
  · intro ⟨i, j, conflict⟩
    exact ⟨((first, i), (second, j)), mem_conflicts_iff.mpr conflict, rfl⟩

theorem found_iff {key : String} :
    (∃ pair ∈ findContradictions (fun _ _ => now) evidence,
        pair.1.claimKey = some key ∧ pair.2.claimKey = some key) ↔
      Asserted now evidence key false ∧ Asserted now evidence key true := by
  constructor
  · intro ⟨⟨first, second⟩, member, firstKey, secondKey⟩
    obtain ⟨i, j, -, present, there, opposed⟩ := mem_findContradictions_iff.mp member
    obtain ⟨polarity, firstSays, secondSays⟩ := opposed.contrary
    have stated : Asserted now evidence key polarity :=
      ⟨first, List.mem_of_getElem? present, firstKey, firstSays, opposed.firstFresh⟩
    have answered : Asserted now evidence key (!polarity) :=
      ⟨second, List.mem_of_getElem? there, secondKey, secondSays, opposed.secondFresh⟩
    cases polarity with
    | false => exact ⟨stated, answered⟩
    | true => exact ⟨answered, stated⟩
  · intro ⟨⟨denier, deniesIn, denierKey, denies, denierFresh⟩,
      ⟨affirmer, affirmsIn, affirmerKey, affirms, affirmerFresh⟩⟩
    obtain ⟨i, denierAt⟩ := List.getElem?_of_mem deniesIn
    obtain ⟨j, affirmerAt⟩ := List.getElem?_of_mem affirmsIn
    -- the earlier of the two comes first in the pair
    obtain before | same | behind := Nat.lt_trichotomy i j
    · have opposed : Opposed now denier affirmer :=
        { keyed := ⟨key, denierKey, affirmerKey⟩
          contrary := ⟨false, denies, affirms⟩
          firstFresh := denierFresh
          secondFresh := affirmerFresh }
      exact ⟨(denier, affirmer), mem_findContradictions_iff.mpr
        ⟨i, j, before, denierAt, affirmerAt, opposed⟩, denierKey, affirmerKey⟩
    · subst same
      rw [denierAt, Option.some.injEq] at affirmerAt
      subst affirmerAt
      rw [denies] at affirms
      cases affirms
    · have opposed : Opposed now affirmer denier :=
        { keyed := ⟨key, affirmerKey, denierKey⟩
          contrary := ⟨true, affirms, denies⟩
          firstFresh := affirmerFresh
          secondFresh := denierFresh }
      exact ⟨(affirmer, denier), mem_findContradictions_iff.mpr
        ⟨j, i, behind, affirmerAt, denierAt, opposed⟩, affirmerKey, denierKey⟩

/-! ## The engine -/

theorem matchesClaim_iff {key : String} {polarity : Bool} {claim : Claim}
    (about : ClaimsOf key polarity claim) (item : EvidenceItem) :
    matchesClaim claim item = true ↔ item.claimKey = some key := by
  simp [matchesClaim, about.keyed]

theorem contradicts_iff {key : String} {polarity : Bool} {claim : Claim}
    (about : ClaimsOf key polarity claim) (item : EvidenceItem) :
    contradicts claim item = true ↔ item.polarity = some (!polarity) := by
  unfold contradicts
  cases item.polarity with
  | none => simp
  | some other => cases other <;> cases polarity <;> simp [about.expects, isPolarity]

theorem contradicted_iff {key : String} {polarity : Bool} {claim : Claim}
    (about : ClaimsOf key polarity claim) :
    (DefaultIntegrityEngine.validateClaim (Readings.fixed now) claim
        evidence).contradictingEvidence ≠ [] ↔ Asserted now evidence key (!polarity) := by
  unfold DefaultIntegrityEngine.validateClaim Asserted
  simp only [freshAt_fixed]
  constructor
  · intro contradicted
    obtain ⟨item, member⟩ := List.exists_mem_of_ne_nil _ contradicted
    obtain ⟨fresh, contrary⟩ := List.mem_filter.mp member
    obtain ⟨matched, fresh⟩ := List.mem_filter.mp fresh
    obtain ⟨present, keyed⟩ := List.mem_filter.mp matched
    exact ⟨item, present, (matchesClaim_iff about item).mp keyed,
      (contradicts_iff about item).mp contrary, fresh⟩
  · intro ⟨item, present, keyed, contrary, fresh⟩
    have matched := List.mem_filter.mpr ⟨present, (matchesClaim_iff about item).mpr keyed⟩
    have recent := List.mem_filter.mpr ⟨matched, fresh⟩
    exact List.ne_nil_of_mem
      (List.mem_filter.mpr ⟨recent, (contradicts_iff about item).mpr contrary⟩)

/-! ## The two together -/

/-- The detector finds the disputes that the engine sees, each pair once and in order. -/
theorem findContradictions_agree (now : ℚ) (evidence : List EvidenceItem) :
    FindsContradictions now evidence (findContradictions (fun _ _ => now) evidence) := by
  refine { agrees := ?agrees, onceInOrder := ?onceInOrder }
  case agrees =>
    intro key affirmed denied affirms denies
    rw [found_iff, contradicted_iff affirms, contradicted_iff denies]
    rfl
  case onceInOrder =>
    refine ⟨(conflicts (fun _ _ => now) evidence).map Pairs.places, Pairs.loop_ordered, ?_, ?_⟩
    · intro i j
      rw [List.mem_map]
      constructor
      · intro ⟨⟨⟨first, _⟩, ⟨second, _⟩⟩, member, same⟩
        cases same
        obtain ⟨before, conflict⟩ := mem_conflicts_iff.mp member
        exact ⟨before, first, second, conflict⟩
      · intro ⟨before, first, second, conflict⟩
        exact ⟨((first, i), (second, j)), mem_conflicts_iff.mpr ⟨before, conflict⟩, rfl⟩
    · unfold conflicts
      rw [Pairs.loop_places]
      unfold findContradictions
      rw [List.map_map]
      rfl

end DefaultContradictionDetector

end Eis.Integrity
