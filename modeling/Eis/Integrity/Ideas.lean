import Eis.Integrity.Engine

/-!
# The evaluation of ideas

An idea is as good as the worst of its criteria.  The statuses are collected in a set, so
neither their order nor their number matters.
-/

set_option autoImplicit false

namespace Eis.Integrity

/-- `assessment.claim.metadata.get(name)`, as a condition -/
def ClaimAssessment.flag (assessment : ClaimAssessment) (name : String) : Bool :=
  ((assessment.claim.metadata.get? name).getD .none).truthy

/-- The cascade over the set of the statuses. -/
def ideaStatus (statuses : List ValidationStatus) : ValidationStatus :=
  if .technicallyRisky ∈ statuses then .technicallyRisky
  else if .questionable ∈ statuses then .questionable
  else if .unsupported ∈ statuses then .unsupported
  else if .insufficientEvidence ∈ statuses ∨ .needsInvestigation ∈ statuses then
    .needsInvestigation
  else .supported

namespace DefaultIntegrityEngine

def evaluateIdea (text : Value → String) (idea objective : String)
    (criteria : List ClaimAssessment) : IdeaEvaluation where
  idea := idea
  objective := objective
  criteria := criteria.map fun item => ⟨item.claim.statement, item⟩
  status := ideaStatus (criteria.map ClaimAssessment.status)
  risks := (criteria.filter fun assessment =>
    assessment.flag "risk" || assessment.flag "technical_risk").map fun assessment =>
      assessment.claim.statement
  unknowns := (criteria.filter fun assessment =>
    decide (assessment.status = .insufficientEvidence ∨
      assessment.status = .needsInvestigation)).map fun assessment => assessment.claim.statement
  dependencies := criteria.filterMap fun assessment =>
    (assessment.claim.metadata.get? "dependency").map text
  nextInvestigations := (criteria.flatMap ClaimAssessment.uncertainty).filterMap
    fun uncertainty => uncertainty.resolution.filter fun resolution => decide (resolution ≠ "")

end DefaultIntegrityEngine

/-! ## Levels -/

/-- From the worst status to the best; missing evidence is one of the things to look into. -/
def ValidationStatus.level : ValidationStatus → ℕ
  | .technicallyRisky => 0
  | .questionable => 1
  | .unsupported => 2
  | .insufficientEvidence => 3
  | .needsInvestigation => 3
  | .supported => 4

theorem level_le (status : ValidationStatus) : status.level ≤ ValidationStatus.supported.level := by
  cases status <;> decide

variable {statuses others : List ValidationStatus}

theorem ideaStatus_congr (same : ∀ status, status ∈ statuses ↔ status ∈ others) :
    ideaStatus statuses = ideaStatus others := by
  unfold ideaStatus
  simp only [same]

theorem ideaStatus_level_le {status : ValidationStatus} (member : status ∈ statuses) :
    (ideaStatus statuses).level ≤ status.level := by
  unfold ideaStatus
  split_ifs with risky questionable unsupported unknown
  · exact Nat.zero_le _
  all_goals cases status <;> simp_all [ValidationStatus.level]

theorem exists_level_of_ne_supported (found : ideaStatus statuses ≠ .supported) :
    ∃ status ∈ statuses, status.level = (ideaStatus statuses).level := by
  unfold ideaStatus at found ⊢
  split_ifs at found ⊢ with risky questionable unsupported unknown
  · exact ⟨_, risky, rfl⟩
  · exact ⟨_, questionable, rfl⟩
  · exact ⟨_, unsupported, rfl⟩
  · rcases unknown with member | member
    · exact ⟨_, member, rfl⟩
    · exact ⟨_, member, rfl⟩
  · exact absurd rfl found

theorem ideaStatus_supported_iff :
    ideaStatus statuses = .supported ↔ ∀ status ∈ statuses, status = .supported := by
  constructor
  · intro supported status member
    have bound := ideaStatus_level_le member
    rw [supported] at bound
    cases status with
    | supported => rfl
    | technicallyRisky | questionable | unsupported | insufficientEvidence
      | needsInvestigation => exact absurd bound (by decide)
  · intro all
    by_contra unsupported
    obtain ⟨status, member, same⟩ := exists_level_of_ne_supported unsupported
    obtain rfl := all status member
    have bound := level_le (ideaStatus statuses)
    cases idea : ideaStatus statuses <;> simp_all [ValidationStatus.level]

theorem ideaStatus_level_mono (more : ∀ status ∈ statuses, status ∈ others) :
    (ideaStatus others).level ≤ (ideaStatus statuses).level := by
  by_cases supported : ideaStatus statuses = .supported
  · rw [supported]
    exact level_le _
  · obtain ⟨status, member, same⟩ := exists_level_of_ne_supported supported
    rw [← same]
    exact ideaStatus_level_le (more status member)

/-! ## Evidence -/

namespace DefaultIntegrityEngine

def statusOf (text : Value → String) (idea objective : String)
    (criteria : List ClaimAssessment) : ValidationStatus :=
  (evaluateIdea text idea objective criteria).status

/-- The status is the same in any order of the criteria, no criterion that is added among
them improves it, and only supported criteria make it `SUPPORTED`. -/
structure WithinEvidence (text : Value → String) (idea objective : String)
    (criteria : List ClaimAssessment) : Prop where
  ordered : ∀ other, other.Perm criteria →
    statusOf text idea objective other = statusOf text idea objective criteria
  monotone : ∀ before after, criteria = before ++ after → ∀ assessment,
    (statusOf text idea objective (before ++ assessment :: after)).level ≤
      (statusOf text idea objective criteria).level
  supported : statusOf text idea objective criteria = .supported →
    criteria ≠ [] ∧ ∀ assessment ∈ criteria, assessment.status = .supported

/-- For every idea: its status stays within the evidence exactly when there is a
criterion. -/
theorem withinEvidence_iff (text : Value → String) (idea objective : String)
    (criteria : List ClaimAssessment) :
    WithinEvidence text idea objective criteria ↔ criteria ≠ [] := by
  constructor
  · rintro within rfl
    exact (within.supported rfl).1 rfl
  · intro some
    refine { ordered := ?ordered, monotone := ?monotone, supported := ?supported }
    case ordered =>
      intro other perm
      exact ideaStatus_congr fun status => (perm.map ClaimAssessment.status).mem_iff
    case monotone =>
      rintro before after rfl assessment
      refine ideaStatus_level_mono ?_
      intro status member
      rw [List.map_append, List.map_cons, List.mem_append, List.mem_cons]
      rw [List.map_append, List.mem_append] at member
      exact member.imp_right .inr
    case supported =>
      intro supported
      refine ⟨some, fun assessment member => ?_⟩
      exact ideaStatus_supported_iff.mp supported _ (List.mem_map_of_mem member)

/-- Nothing was looked at, and the idea is `SUPPORTED`. -/
theorem idea_without_criteria_supported :
    (evaluateIdea (fun _ => "") "Launch the idea" "Serve more users" []).status = .supported ∧
      ¬ WithinEvidence (fun _ => "") "Launch the idea" "Serve more users" [] := by
  refine ⟨rfl, ?_⟩
  intro within
  exact (within.supported rfl).1 rfl

end DefaultIntegrityEngine

end Eis.Integrity
