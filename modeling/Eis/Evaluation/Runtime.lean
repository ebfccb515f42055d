import Eis.Foundation.Answers
import Eis.Foundation.Grouping
import Eis.Foundation.Uuid
import Eis.Evaluation.Models

/-!
# The evaluation framework

`EvaluationFramework.run` asks the runner for each case in turn; `_report` then
finds the case of each response again, through a dictionary under the ids.
-/

set_option autoImplicit false

namespace Eis.Evaluation

abbrev Judged := EvaluationCase × EvaluationResponse

namespace Judged

def criticalFailure (judged : Judged) : Bool :=
  !judged.2.correct && decide (judged.1.severity = .critical)

end Judged

namespace EvaluationFramework

/-- `{case.id: case for case in cases}` -/
def caseMap (cases : List EvaluationCase) : OrderedDict String EvaluationCase :=
  OrderedDict.collect EvaluationCase.id id cases

/-- The lookups `case_map[response.case_id]`. -/
def judge (cases : OrderedDict String EvaluationCase) :
    List EvaluationResponse → Except String (List Judged)
  | [] => .ok []
  | response :: rest =>
      match cases.get? response.caseId with
      | none => .error response.caseId
      | some used => (judge cases rest).map ((used, response) :: ·)

/-- The body of the loop over the categories. -/
def categoryScore (judged : List Judged) (category : EvaluationCategory) : CategoryScore :=
  let categoryCases := judged.filter fun entry => decide (entry.1.category = category)
  let adversarial := categoryCases.filter fun entry => entry.1.adversarial
  { category := category
    cases := categoryCases.length
    correct := categoryCases.countP fun entry => entry.2.correct
    honest := categoryCases.countP fun entry => entry.2.honest
    adversarialCases := adversarial.length
    adversarialHonest := adversarial.countP fun entry => entry.2.honest
    failures := categoryCases.countP fun entry => !entry.2.correct
    criticalFailures := categoryCases.countP Judged.criticalFailure }

def score (runId : UUID) (judged : List Judged) : EvaluationReport where
  runId := runId.str
  totalCases := judged.length
  correct := judged.countP fun entry => entry.2.correct
  honest := judged.countP fun entry => entry.2.honest
  adversarialCases := judged.countP fun entry => entry.1.adversarial
  adversarialHonest := (judged.filter fun entry => entry.1.adversarial).countP fun entry =>
    entry.2.honest
  hallucinations := judged.countP fun entry => entry.2.hallucinated
  securityViolations := judged.countP fun entry => entry.2.securityViolation
  permissionViolations := judged.countP fun entry => entry.2.permissionViolation
  criticalFailures := judged.countP Judged.criticalFailure
  categoryScores := EvaluationCategory.all.map (categoryScore judged)
  responses := judged.map Prod.snd

/-- `_report`; the error is the key that is missing. -/
def report (runId : UUID) (responses : List EvaluationResponse) (cases : List EvaluationCase) :
    Except String EvaluationReport :=
  (judge (caseMap cases) responses).map (score runId)

section Run
variable {σ ε : Type}

def respond (runner : EvaluationCase → Call σ ε EvaluationResponse) (own : EvaluationCase) :
    Program (Asked σ EvaluationResponse) (AskError ε) EvaluationResponse :=
  Program.ask EvaluationResponse.caseId (runner own) own.id

def run (runner : EvaluationCase → Call σ ε EvaluationResponse) (runId : UUID)
    (cases : List EvaluationCase) :
    Program (Asked σ EvaluationResponse) (AskError ε) EvaluationReport := do
  let responses ← cases.mapM (respond runner)
  match report runId responses cases with
  | .ok report => pure report
  | .error name => throw (.missing name)

def errorMessage (repr : String → String) (str : ε → String) : AskError ε → String :=
  AskError.message "runner" repr str

end Run

/-! ## The cases that are found again -/

def lastNamed (cases : List EvaluationCase) (id : String) : Option EvaluationCase :=
  cases.reverse.find? fun own => decide (own.id = id)

theorem get?_caseMap (cases : List EvaluationCase) (id : String) :
    (caseMap cases).get? id = lastNamed cases id := by
  unfold caseMap lastNamed
  rw [OrderedDict.get?_collect, Option.map_id]
  rfl

theorem lastNamed_of_mem {cases : List EvaluationCase} {own : EvaluationCase}
    (member : own ∈ cases) : ∃ used, lastNamed cases own.id = some used := by
  unfold lastNamed
  apply Option.isSome_iff_exists.mp
  rw [List.find?_isSome]
  exact ⟨own, List.mem_reverse.mpr member, decide_eq_true rfl⟩

/-- The case that stands for `own` when its response is scored. -/
def standIn (cases : List EvaluationCase) (own : EvaluationCase) : EvaluationCase :=
  (lastNamed cases own.id).getD own

theorem judge_eq {cases own : List EvaluationCase} {responses : List EvaluationResponse}
    (listed : ∀ entry ∈ own, entry ∈ cases)
    (named : List.Forall₂ (fun entry response => response.caseId = entry.id) own responses) :
    judge (caseMap cases) responses =
      .ok ((own.map (standIn cases)).zip responses) := by
  induction named with
  | nil => rfl
  | @cons entry response rest others name _ ih =>
      obtain ⟨used, found⟩ := lastNamed_of_mem (listed entry List.mem_cons_self)
      have looked : (caseMap cases).get? response.caseId = some used := by
        rw [get?_caseMap, name, found]
      have stands : standIn cases entry = used := by
        unfold standIn
        rw [found]
        rfl
      have tail := ih fun later member => listed later (List.mem_cons_of_mem _ member)
      simp only [judge, looked, tail, stands, Except.map, List.map_cons, List.zip_cons_cons]

def Named (cases : List EvaluationCase) (responses : List EvaluationResponse) : Prop :=
  List.Forall₂ (fun own response => response.caseId = own.id) cases responses

theorem report_eq (runId : UUID) {cases : List EvaluationCase}
    {responses : List EvaluationResponse} (named : Named cases responses) :
    report runId responses cases =
      .ok (score runId ((cases.map (standIn cases)).zip responses)) := by
  unfold report
  rw [judge_eq (fun _ member => member) named]
  rfl

theorem score_responses (runId : UUID) {cases : List EvaluationCase}
    {responses : List EvaluationResponse} (named : Named cases responses) :
    (score runId ((cases.map (standIn cases)).zip responses)).responses = responses := by
  apply List.map_snd_zip
  rw [List.length_map]
  exact named.length_eq.ge

section Ends
variable {σ ε : Type} (runner : EvaluationCase → Call σ ε EvaluationResponse)

theorem respond_ends {behind : List EvaluationCase} {responses : List EvaluationResponse}
    (named : Named behind responses) (own : EvaluationCase)
    (asked : Asked σ EvaluationResponse) :
    (respond runner own).Ends asked
      (fun response _ => Named (behind ++ [own]) (responses ++ [response]))
      fun exception _ => exception.Genuine := by
  refine (Program.ends_ask _ _ _ asked).mono ?_ (fun _ _ genuine => genuine)
  intro response _ ⟨name, _⟩
  exact List.rel_append named (List.Forall₂.cons name List.Forall₂.nil)

theorem run_ends (runId : UUID) (cases : List EvaluationCase) (world : σ) :
    (run runner runId cases).Ends { world := world }
      (fun report _ => Named cases report.responses ∧
        report = score runId ((cases.map (standIn cases)).zip report.responses))
      fun exception _ => exception.Genuine := by
  have loop : Program.Ends (cases.mapM (respond runner)) { world := world }
      (fun responses _ => Named cases responses) fun exception _ => exception.Genuine :=
    Program.ends_mapM (fun behind responses _ => Named behind responses)
      (fun _ own _ asked named => respond_ends runner named own asked) cases List.Forall₂.nil
  unfold run
  rw [Program.ends_bind]
  refine loop.mono ?_ (fun _ _ genuine => genuine)
  intro responses after named
  rw [report_eq runId named, Program.ends_pure, score_responses runId named]
  exact ⟨named, rfl⟩

end Ends

end EvaluationFramework

end Eis.Evaluation
