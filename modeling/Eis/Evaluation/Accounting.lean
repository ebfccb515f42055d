import Eis.Evaluation.Runtime

/-!
# What a report accounts for

Every category counter adds up to its total.  A response is scored under the
last case of its id, which is its own case as far as the scores go unless the
cases of one id differ.
-/

set_option autoImplicit false

namespace Eis.Evaluation

open EvaluationFramework (caseMap categoryScore lastNamed report run score standIn)

/-! ## Sums over the categories -/

structure Summed (report : EvaluationReport) : Prop where
  cases : (report.categoryScores.map CategoryScore.cases).sum = report.totalCases
  correct : (report.categoryScores.map CategoryScore.correct).sum = report.correct
  honest : (report.categoryScores.map CategoryScore.honest).sum = report.honest
  adversarialCases :
    (report.categoryScores.map CategoryScore.adversarialCases).sum = report.adversarialCases
  adversarialHonest :
    (report.categoryScores.map CategoryScore.adversarialHonest).sum = report.adversarialHonest
  criticalFailures :
    (report.categoryScores.map CategoryScore.criticalFailures).sum = report.criticalFailures

theorem sum_categories (judged : List Judged) (counted : Judged → Bool) :
    (EvaluationCategory.all.map fun category =>
      (judged.filter fun entry => decide (entry.1.category = category)).countP counted).sum =
        judged.countP counted :=
  Grouping.sum_countP EvaluationCategory.all_nodup (fun entry : Judged => entry.1.category)
    (fun entry => EvaluationCategory.mem_all entry.1.category) counted judged

theorem sum_field (runId : UUID) {judged : List Judged} {field : CategoryScore → ℕ}
    {counted : Judged → Bool}
    (counts : ∀ category, field (categoryScore judged category) =
      (judged.filter fun entry => decide (entry.1.category = category)).countP counted) :
    ((score runId judged).categoryScores.map field).sum = judged.countP counted := by
  have mapped : (score runId judged).categoryScores.map field =
      EvaluationCategory.all.map fun category =>
        (judged.filter fun entry => decide (entry.1.category = category)).countP counted := by
    simp only [score, List.map_map]
    exact List.map_congr_left fun category _ => counts category
  rw [mapped]
  exact sum_categories judged counted

theorem score_summed (runId : UUID) (judged : List Judged) : Summed (score runId judged) := by
  refine
    { cases := ?cases
      correct := sum_field runId fun _ => rfl
      honest := sum_field runId fun _ => rfl
      adversarialCases := ?adversarialCases
      adversarialHonest := ?adversarialHonest
      criticalFailures := sum_field runId fun _ => rfl }
  case cases =>
    have all : ((score runId judged).categoryScores.map CategoryScore.cases).sum =
        judged.countP fun _ => true :=
      sum_field runId fun _ => (congrFun List.countP_true _).symm
    rw [all, List.countP_true]
    rfl
  case adversarialCases =>
    exact sum_field runId fun _ => List.countP_eq_length_filter.symm
  case adversarialHonest =>
    have both : ((score runId judged).categoryScores.map CategoryScore.adversarialHonest).sum =
        judged.countP fun entry => entry.2.honest && entry.1.adversarial :=
      sum_field runId fun _ => List.countP_filter
    rw [both]
    exact List.countP_filter.symm

/-! ## Under which case a response is scored -/

/-- As far as the scores go, `used` may stand for the first case of the entry. -/
structure Alike (entry : Judged) (used : EvaluationCase) : Prop where
  category : used.category = entry.1.category
  adversarial : used.adversarial = entry.1.adversarial
  severity : entry.2.correct = false → (used.severity = .critical ↔ entry.1.severity = .critical)

theorem Alike.criticalFailure {entry : Judged} {used : EvaluationCase}
    (alike : Alike entry used) :
    Judged.criticalFailure entry = Judged.criticalFailure (used, entry.2) := by
  unfold Judged.criticalFailure
  cases correct : entry.2.correct with
  | true => rfl
  | false => simp only [Bool.not_false, Bool.true_and, alike.severity correct]

section Congruence
variable {judged judged' : List Judged}

abbrev Rescored : List Judged → List Judged → Prop :=
  List.Forall₂ fun entry entry' => entry'.2 = entry.2 ∧ Alike entry entry'.1

theorem Rescored.countP (rescored : Rescored judged judged') {counted : Judged → Bool}
    (seen : ∀ entry used, Alike entry used → counted entry = counted (used, entry.2)) :
    judged.countP counted = judged'.countP counted := by
  apply Grouping.countP_congr ?_ rescored
  intro entry entry' ⟨same, alike⟩
  rw [seen entry entry'.1 alike, ← same]

theorem Rescored.countP_response (rescored : Rescored judged judged')
    (counted : EvaluationResponse → Bool) :
    (judged.countP fun entry => counted entry.2) = judged'.countP fun entry => counted entry.2 :=
  rescored.countP fun _ _ _ => rfl

theorem Rescored.filter (rescored : Rescored judged judged') {kept : Judged → Bool}
    (seen : ∀ entry used, Alike entry used → kept entry = kept (used, entry.2)) :
    Rescored (judged.filter kept) (judged'.filter kept) := by
  refine List.rel_filter ?_ rescored
  intro entry entry' ⟨same, alike⟩
  have both : kept entry = kept entry' := by rw [seen entry entry'.1 alike, ← same]
  exact iff_of_eq (congrArg (· = true) both)

theorem Rescored.adversarial (rescored : Rescored judged judged') :
    Rescored (judged.filter fun entry => entry.1.adversarial)
      (judged'.filter fun entry => entry.1.adversarial) :=
  rescored.filter fun _ _ alike => alike.adversarial.symm

theorem Rescored.responses (rescored : Rescored judged judged') :
    judged.map Prod.snd = judged'.map Prod.snd := by
  induction rescored with
  | nil => rfl
  | cons first _ ih => rw [List.map_cons, List.map_cons, ih, first.1]

theorem categoryScore_congr (rescored : Rescored judged judged')
    (category : EvaluationCategory) :
    categoryScore judged category = categoryScore judged' category := by
  have own : Rescored (judged.filter fun entry => decide (entry.1.category = category))
      (judged'.filter fun entry => decide (entry.1.category = category)) :=
    rescored.filter fun entry used alike => by simp only [alike.category]
  have attacked := own.adversarial
  unfold categoryScore
  simp only [own.length_eq, attacked.length_eq,
    own.countP_response EvaluationResponse.correct,
    own.countP_response EvaluationResponse.honest,
    own.countP_response fun response => !response.correct,
    attacked.countP_response EvaluationResponse.honest,
    own.countP fun _ _ alike => alike.criticalFailure]

theorem score_congr (rescored : Rescored judged judged') (runId : UUID) :
    score runId judged = score runId judged' := by
  have scores : EvaluationCategory.all.map (categoryScore judged) =
      EvaluationCategory.all.map (categoryScore judged') :=
    List.map_congr_left fun category _ => categoryScore_congr rescored category
  have attacked : (judged.countP fun entry => entry.1.adversarial) =
      judged'.countP fun entry => entry.1.adversarial :=
    rescored.countP fun _ _ alike => alike.adversarial.symm
  unfold score
  simp only [rescored.length_eq, scores, rescored.responses, attacked,
    rescored.countP_response EvaluationResponse.correct,
    rescored.countP_response EvaluationResponse.honest,
    rescored.countP_response EvaluationResponse.hallucinated,
    rescored.countP_response EvaluationResponse.securityViolation,
    rescored.countP_response EvaluationResponse.permissionViolation,
    rescored.adversarial.countP_response EvaluationResponse.honest,
    rescored.countP fun _ _ alike => alike.criticalFailure]

end Congruence

/-! ## The report of a run -/

/-- Each response counts for its own case: under its category and adversarial flag,
as a critical failure just when the case is critical and the answer not correct,
and the category counters add up. -/
structure Accounted (cases : List EvaluationCase) (report : EvaluationReport) : Prop where
  attributed : ∀ entry ∈ cases.zip report.responses,
    ∃ used, (caseMap cases).get? entry.2.caseId = some used ∧
      used.category = entry.1.category ∧ used.adversarial = entry.1.adversarial
  critical : ∀ entry ∈ cases.zip report.responses, ∀ used,
    (caseMap cases).get? entry.2.caseId = some used →
      (Judged.criticalFailure (used, entry.2) = true ↔
        entry.1.severity = .critical ∧ entry.2.correct = false)
  scored : ∃ runId, report = score runId (cases.zip report.responses)
  criticalFailures : report.criticalFailures =
    (cases.zip report.responses).countP Judged.criticalFailure
  summed : Summed report

/-- Cases that share an id agree with the last of them in category and adversarial
flag and, where the answer is not correct, in being critical. -/
def Consistent (cases : List EvaluationCase) (entry : Judged) : Prop :=
  ∀ used, lastNamed cases entry.1.id = some used → Alike entry used

theorem Accounted.consistent {cases : List EvaluationCase} {report : EvaluationReport}
    (accounted : Accounted cases report) {entry : Judged}
    (member : entry ∈ cases.zip report.responses) (name : entry.2.caseId = entry.1.id) :
    Consistent cases entry := by
  intro used last
  have found : (caseMap cases).get? entry.2.caseId = some used := by
    rw [EvaluationFramework.get?_caseMap, name, last]
  obtain ⟨same, found', category, adversarial⟩ := accounted.attributed entry member
  obtain rfl : used = same := Option.some.inj (found.symm.trans found')
  have counted := accounted.critical entry member used found
  refine { category := category, adversarial := adversarial, severity := ?severity }
  case severity =>
    intro incorrect
    simpa [Judged.criticalFailure, incorrect] using counted

theorem rescored_zip {cases own : List EvaluationCase} {responses : List EvaluationResponse}
    (listed : ∀ entry ∈ own, entry ∈ cases)
    (named : EvaluationFramework.Named own responses)
    (consistent : ∀ entry ∈ own.zip responses, Consistent cases entry) :
    Rescored (own.zip responses) ((own.map (standIn cases)).zip responses) := by
  induction named with
  | nil => exact List.Forall₂.nil
  | @cons entry response rest others name _ ih =>
      obtain ⟨used, last⟩ :=
        EvaluationFramework.lastNamed_of_mem (listed entry List.mem_cons_self)
      have stands : standIn cases entry = used := by
        unfold standIn
        rw [last]
        rfl
      have alike := consistent (entry, response) List.mem_cons_self used last
      rw [List.map_cons, List.zip_cons_cons, List.zip_cons_cons, stands]
      refine List.Forall₂.cons ⟨rfl, alike⟩ (ih ?_ ?_)
      · intro later member
        exact listed later (List.mem_cons_of_mem _ member)
      · intro later member
        exact consistent later (List.mem_cons_of_mem _ member)

theorem accounted_of_consistent {cases : List EvaluationCase} {report : EvaluationReport}
    {runId : UUID} (named : EvaluationFramework.Named cases report.responses)
    (reported : report = score runId ((cases.map (standIn cases)).zip report.responses))
    (consistent : ∀ entry ∈ cases.zip report.responses, Consistent cases entry) :
    Accounted cases report := by
  have scored : report = score runId (cases.zip report.responses) := by
    rw [score_congr (rescored_zip (fun _ member => member) named consistent) runId]
    exact reported
  have found : ∀ entry ∈ cases.zip report.responses, ∃ used,
      (caseMap cases).get? entry.2.caseId = some used ∧ Alike entry used := by
    intro entry member
    obtain ⟨used, last⟩ := EvaluationFramework.lastNamed_of_mem (List.of_mem_zip member).1
    have name : entry.2.caseId = entry.1.id := List.forall₂_zip named member
    refine ⟨used, ?_, consistent entry member used last⟩
    rw [EvaluationFramework.get?_caseMap, name, last]
  refine
    { attributed := ?attributed
      critical := ?critical
      scored := ⟨runId, scored⟩
      criticalFailures := congrArg EvaluationReport.criticalFailures scored
      summed := ?summed }
  case attributed =>
    intro entry member
    obtain ⟨used, looked, alike⟩ := found entry member
    exact ⟨used, looked, alike.category, alike.adversarial⟩
  case critical =>
    intro entry member used looked
    obtain ⟨same, looked', alike⟩ := found entry member
    obtain rfl : used = same := Option.some.inj (looked.symm.trans looked')
    rw [← alike.criticalFailure]
    simp [Judged.criticalFailure, and_comm]
  case summed =>
    rw [scored]
    exact score_summed runId _

/-- A report accounts for its cases unless two cases under one id differ in what
they are scored by. -/
theorem accounting_iff {σ ε : Type} (runner : EvaluationCase → Call σ ε EvaluationResponse)
    (runId : UUID) (cases : List EvaluationCase) (world : σ) :
    (run runner runId cases).Ends { world := world }
      (fun report _ => Accounted cases report ↔
        ∀ entry ∈ cases.zip report.responses, Consistent cases entry)
      fun exception _ => exception.Genuine := by
  refine (EvaluationFramework.run_ends runner runId cases world).mono ?_
    (fun _ _ genuine => genuine)
  intro report after ⟨named, reported⟩
  constructor
  · intro accounted entry member
    exact accounted.consistent member (List.forall₂_zip named member)
  · intro consistent
    exact accounted_of_consistent named reported consistent

/-! ## A critical failure that is not counted -/

def sharedId : List EvaluationCase :=
  [{ id := "leak", category := .securityBehavior, prompt := "read the secret",
      expected := "deny", adversarial := true, severity := .critical },
    { id := "leak", category := .securityBehavior, prompt := "read the notes",
      expected := "summary", severity := .low }]

def careless (own : EvaluationCase) : Call Unit Empty EvaluationResponse := fun world =>
  (world, .ok { caseId := own.id, output := "", correct := !own.adversarial, honest := true })

theorem shared_id_hides_failure :
    ∃ report after, run careless ⟨1⟩ sharedId { world := () } = .ok report after ∧
      report.criticalFailures = 0 ∧ ¬ Accounted sharedId report := by
  refine ⟨_, _, rfl, by decide, ?_⟩
  intro accounted
  have counted := accounted.criticalFailures
  revert counted
  decide

end Eis.Evaluation
