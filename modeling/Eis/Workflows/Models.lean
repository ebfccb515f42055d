import Mathlib.Data.Rat.Defs
import Eis.Foundation.Table
import Eis.Foundation.Text
import Eis.Foundation.Uuid

/-!
# Workflow models

The frozen dataclasses of a durable workflow, the phases in the order of their
declaration, and the store as a table of states keyed by `str(request.id)`: a
row reads back as the state that was saved.
-/

set_option autoImplicit false

namespace Eis.Workflows

inductive WorkflowPhase where
  | understand | retrieveKnowledge | inspectProduct | evaluateIdea | identifyRisks
  | createPlan | architectureReview | approval | implement | test | debug | correct
  | securityReview | requirementVerification | document | finalReport
deriving DecidableEq

namespace WorkflowPhase

/-- `tuple(WorkflowPhase)` -/
def phases : List WorkflowPhase :=
  [understand, retrieveKnowledge, inspectProduct, evaluateIdea, identifyRisks, createPlan,
    architectureReview, approval, implement, test, debug, correct, securityReview,
    requirementVerification, document, finalReport]

def value : WorkflowPhase → String
  | understand => "understand"
  | retrieveKnowledge => "retrieve_knowledge"
  | inspectProduct => "inspect_product"
  | evaluateIdea => "evaluate_idea"
  | identifyRisks => "identify_risks"
  | createPlan => "create_plan"
  | architectureReview => "architecture_review"
  | approval => "approval"
  | implement => "implement"
  | test => "test"
  | debug => "debug"
  | correct => "correct"
  | securityReview => "security_review"
  | requirementVerification => "requirement_verification"
  | document => "document"
  | finalReport => "final_report"

theorem phases_nodup : phases.Nodup := by decide

end WorkflowPhase

inductive WorkflowStatus where
  | pending | running | waitingApproval | escalated | completed | failed
deriving DecidableEq

/-- A value that `json` reads and writes, as `input` and `data` hold them. -/
inductive Json where
  | null
  | bool (value : Bool)
  | number (value : ℚ)
  | string (value : String)
  | array (items : List Json)
  | object (entries : List (String × Json))

/-- `__post_init__` refuses a blank objective or repository. -/
structure WorkflowRequest where
  objective : String
  repository : String
  input : Json := .null
  id : UUID
  objectiveGiven : Text.strip objective ≠ ""
  repositoryGiven : Text.strip repository ≠ ""

structure WorkflowEvent where
  phase : WorkflowPhase
  status : String
  detail : String := ""
  evidence : List String := []
  failures : List String := []
  corrections : List String := []
  risks : List String := []
  uncertainty : List String := []
  id : UUID
deriving DecidableEq

structure WorkflowApproval where
  phase : WorkflowPhase
  resource : String
  reason : String
  approvalRequestId : UUID
deriving DecidableEq

structure WorkflowReport where
  request : WorkflowRequest
  status : WorkflowStatus
  events : List WorkflowEvent := []
  completedWork : List String := []
  evidence : List String := []
  tests : List String := []
  failures : List String := []
  corrections : List String := []
  remainingRisks : List String := []
  remainingUncertainty : List String := []
  humanDecisions : List String := []
  escalationReason : Option String := none

structure WorkflowState where
  request : WorkflowRequest
  status : WorkflowStatus := .pending
  phaseIndex : ℕ := 0
  events : List WorkflowEvent := []
  approval : Option WorkflowApproval := none
  data : List (String × Json) := []
  escalationReason : Option String := none

namespace WorkflowState

/-- `str(state.request.id)`, under which the state is stored. -/
def key (state : WorkflowState) : String := state.request.id.str

def phase (state : WorkflowState) : Option WorkflowPhase :=
  WorkflowPhase.phases[state.phaseIndex]?

theorem phase_eq_none_iff (state : WorkflowState) :
    state.phase = none ↔ WorkflowPhase.phases.length ≤ state.phaseIndex := by
  simp [phase]

theorem lt_of_phase {state : WorkflowState} {phase : WorkflowPhase}
    (current : state.phase = some phase) :
    state.phaseIndex < WorkflowPhase.phases.length :=
  (List.getElem?_eq_some_iff.mp current).1

end WorkflowState

/-! ## The store -/

abbrev WorkflowStore := Table WorkflowState.key

namespace WorkflowStore

def save (store : WorkflowStore) (state : WorkflowState) : WorkflowStore :=
  store.upsert state

def load (store : WorkflowStore) (workflowId : String) : Option WorkflowState :=
  store.find workflowId

theorem load_save (store : WorkflowStore) (state : WorkflowState) (k : String) :
    (store.save state).load k = if state.key = k then some state else store.load k := by
  unfold load save
  split
  · rename_i same
    rw [← same]
    exact store.find_upsert_self state
  · rename_i other
    exact store.find_upsert_of_ne state other

theorem load_key {store : WorkflowStore} {k : String} {state : WorkflowState}
    (found : store.load k = some state) : state.key = k :=
  store.find_key found

end WorkflowStore

end Eis.Workflows
