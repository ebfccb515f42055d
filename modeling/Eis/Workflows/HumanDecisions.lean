import Eis.Workflows.PhaseOrder

/-!
# Human decisions in reports

A report takes the human decisions out of the log of events, by phase and status.
`resume` writes such an event for an approval that it accepts; an operation of the
phase APPROVAL writes one as well when it says `"completed"`.
-/

set_option autoImplicit false

namespace Eis.Workflows

open Eis.Security Transition

variable {ι γ τ : Type}

/-- The reason of the approval, or the default text when it has none. -/
def decisionText (approval : Approval) : String :=
  match approval.reason with
  | some reason => if reason = "" then "workflow implementation approved" else reason
  | none => "workflow implementation approved"

namespace WorkflowState

def decisionsIn (events : List WorkflowEvent) : List String :=
  (events.filter fun event => event.phase = .approval && event.status = "completed").map
    WorkflowEvent.detail

theorem report_humanDecisions (state : WorkflowState) :
    state.report.humanDecisions = decisionsIn state.events := rfl

theorem decisionsIn_append (events others : List WorkflowEvent) :
    decisionsIn (events ++ others) = decisionsIn events ++ decisionsIn others := by
  simp [decisionsIn]

theorem decisionsIn_snoc_of_ne (events : List WorkflowEvent) {event : WorkflowEvent}
    (undecided : event.status ≠ "completed") :
    decisionsIn (events ++ [event]) = decisionsIn events := by
  simp [decisionsIn, undecided]

theorem decisionsIn_resumed (state : WorkflowState) (approval : Approval) (answerId : UUID) :
    decisionsIn (state.resumed approval answerId).events =
      decisionsIn state.events ++ [decisionText approval] :=
  decisionsIn_append state.events _

end WorkflowState

open WorkflowState

namespace World

def decisions (k : String) (world : World ι γ τ) : List String :=
  ((world.store.load k).map fun row => row.report.humanDecisions).getD []

def acceptedBy (k : String) (world : World ι γ τ) (approval : Option Approval) :
    Option Approval :=
  match world.store.load k, approval with
  | some state, some presented =>
      if state.status = .waitingApproval ∧ presented.status = .approved ∧
          state.approval.map WorkflowApproval.approvalRequestId = some presented.requestId then
        some presented
      else none
  | _, _ => none

/-- The approval of the workflow that is accepted in a step. -/
def accepted (k : String) (world : World ι γ τ) : WorldEvent ι γ τ → Option Approval
  | .call _ _ (.resume workflowId approval) _ =>
      if workflowId = k then world.acceptedBy k approval else none
  | _ => none

/-- What operations of the workflow write into its log in a step. -/
def operationEvents (k : String) (world : World ι γ τ) : WorldEvent ι γ τ → List WorkflowEvent
  | .settle task (.returned event) _ =>
      match (world.tasks task).frameOn k with
      | some _ => [event]
      | none => []
  | _ => []

/-- An operation of the workflow labels its event with the phase that it was asked to
execute. -/
def NamesPhase (k : String) (world : World ι γ τ) : WorldEvent ι γ τ → Prop
  | .settle task (.returned event) _ =>
      ∀ frame ∈ (world.tasks task).frameOn k, event.phase = frame.phase
  | _ => True

/-- No operation that was called for the phase APPROVAL says that it is completed. -/
def LeavesApproval (k : String) (world : World ι γ τ) : WorldEvent ι γ τ → Prop
  | .settle task (.returned event) _ =>
      ∀ frame ∈ (world.tasks task).frameOn k, frame.phase = .approval →
        event.status ≠ "completed"
  | _ => True

theorem decisions_congr {k : String} {world next : World ι γ τ}
    (same : next.view k = world.view k) : next.decisions k = world.decisions k := by
  have stored : next.store.load k = world.store.load k := congrArg Lifecycle.row same
  simp only [decisions, stored]

theorem decisions_of_load {k : String} {world : World ι γ τ} {row : WorkflowState}
    (stored : world.store.load k = some row) : world.decisions k = decisionsIn row.events := by
  simp [decisions, stored, report_humanDecisions]

theorem decisions_save (world : World ι γ τ) (state : WorkflowState) :
    (world.save state).decisions state.key = decisionsIn state.events :=
  decisions_of_load (world.store.find_upsert_self state)

section Step
variable [DecidableEq ι] [DecidableEq γ] [DecidableEq τ]
variable {config : ι → EngineeringWorkflow γ} {k : String} {world next : World ι γ τ}

/-! ## What a step adds to the decisions -/

theorem LoopEnds.decisions {ended : World ι γ τ} {i : ι} {task : τ} {call : Call}
    {current : WorkflowState} (ends : LoopEnds config world i task call current ended)
    (stored : world.store.load current.key = some current) :
    ended.decisions current.key = decisionsIn current.events := by
  cases ends with
  | completed exhausted => exact decisions_save world current.completed
  | waiting phase request gateway approvalRequestId eventId result atPhase gated uncached =>
      refine (decisions_save (world.setGateway (config i).security gateway)
        (current.waiting phase request approvalRequestId eventId)).trans ?_
      apply decisionsIn_snoc_of_ne
      exact (by decide : "waiting" ≠ "completed")
  | refused phase approval unlocked gateway message eventId atPhase ready =>
      refine (decisions_save (unlocked.setGateway (config i).security gateway)
        (current.failed phase message eventId)).trans ?_
      apply decisionsIn_snoc_of_ne
      exact (by decide : "failed" ≠ "completed")
  | executing phase approval unlocked gateway atPhase ready =>
      exact (decisions_congr (ready.view_eq config current.key)).trans (decisions_of_load stored)

variable (config) in
theorem begin_decisions (world : World ι γ τ) (i : ι) (task : τ) (call : Call)
    (state : WorkflowState) (draw : Draw) :
    (world.begin config i task call state draw).decisions state.key =
      decisionsIn state.events := by
  have ends := loop_ends config (world.save state.running) i task call state.running draw
  exact ends.decisions (world.store.find_upsert_self state.running)

theorem run_decisions (i : ι) (task : τ) (draw : Draw) :
    (world.run config i task k draw).decisions k = world.decisions k := by
  rcases world.run_cases config i task k draw with ⟨result, answered⟩ | ⟨state, found, _, begun⟩
  · rw [answered]
    rfl
  · have keyed := WorkflowStore.load_key found
    have after := begin_decisions config world i task (.run k) state draw
    rw [keyed] at after
    rw [begun, after, decisions_of_load found]

theorem resume_accepts (i : ι) (task : τ) (approval : Option Approval) (draw : Draw) :
    (world.acceptedBy k approval = none ∧
        ∃ result, world.resume config i task k approval draw = world.answer task k result) ∨
      ∃ state presented, world.acceptedBy k approval = some presented ∧
        world.store.load k = some state ∧
        world.resume config i task k approval draw =
          ((world.setCache i k (some presented)).save
            (state.resumed presented draw.answerId)).begin config i task
              (.resume k approval) (state.resumed presented draw.answerId) draw := by
  unfold resume acceptedBy
  cases found : world.store.load k with
  | none => exact Or.inl ⟨rfl, _, rfl⟩
  | some state =>
      by_cases waits : state.status = .waitingApproval
      · cases approval with
        | none =>
            refine Or.inl ⟨rfl, .error (.permission "approved workflow checkpoint is required"), ?_⟩
            simp [waits]
        | some presented =>
            by_cases approved : presented.status = .approved
            · by_cases matched : state.approval.map WorkflowApproval.approvalRequestId =
                some presented.requestId
              · refine Or.inr ⟨state, presented, ?_, rfl, ?_⟩
                · simp [waits, approved, matched]
                · simp [waits, approved, matched]
              · refine Or.inl ⟨?_, .error (.permission
                  "approval does not match workflow checkpoint"), ?_⟩
                · simp [matched]
                · simp [waits, approved, matched]
            · refine Or.inl ⟨?_, .error (.permission
                "approved workflow checkpoint is required"), ?_⟩
              · simp [approved]
              · simp [waits, approved]
      · refine Or.inl ⟨?_, .ok state.report, ?_⟩
        · cases approval with
          | none => rfl
          | some presented => simp [waits]
        · simp [waits]

theorem resume_decisions (i : ι) (task : τ) (approval : Option Approval) (draw : Draw) :
    (world.resume config i task k approval draw).decisions k =
      world.decisions k ++ (world.acceptedBy k approval).toList.map decisionText := by
  rcases world.resume_accepts i task approval draw with
    ⟨unaccepted, result, answered⟩ | ⟨state, presented, accepts, found, begun⟩
  · rw [answered, unaccepted]
    exact (List.append_nil _).symm
  · have keyed : (state.resumed presented draw.answerId).key = k :=
      (WorkflowStore.load_key found : state.key = k)
    have after := begin_decisions config
      ((world.setCache i k (some presented)).save (state.resumed presented draw.answerId)) i task
      (.resume k approval) (state.resumed presented draw.answerId) draw
    rw [keyed, decisionsIn_resumed] at after
    rw [begun, after, accepts, decisions_of_load found]
    rfl

variable (config) in
theorem settle_decisions (world : World ι γ τ) (task : τ) {frame : Frame ι} (outcome : Outcome)
    (draw : Draw) (copied : ∃ row, world.store.load frame.current.key = some row ∧
      row.events = frame.current.events) :
    (world.settle config task frame outcome draw).decisions frame.current.key =
      decisionsIn (frame.current.events ++ match outcome with
        | .returned event => [event]
        | _ => []) := by
  obtain ⟨row, stored, same⟩ := copied
  have before : world.decisions frame.current.key = decisionsIn frame.current.events := by
    rw [decisions_of_load stored, same]
  cases outcome with
  | returned event =>
      obtain ⟨gateway, behind⟩ := settle_returned config world task frame event draw
      have ends := loop_ends config ((world.setGateway (config frame.runner).security
        gateway).save (frame.current.advance event)) frame.runner task frame.call
        (frame.current.advance event) draw
      rw [behind]
      exact ends.decisions (Table.find_upsert_self _ (frame.current.advance event))
  | escalated message =>
      obtain ⟨gateway, behind⟩ := settle_escalated config world task frame message draw
      rw [behind, List.append_nil]
      exact before
  | raised message =>
      obtain ⟨gateway, behind⟩ := settle_raised config world task frame message draw
      rw [behind, List.append_nil]
      refine (decisions_save (world.setGateway (config frame.runner).security gateway)
        (frame.current.failed frame.phase message draw.eventId)).trans ?_
      apply decisionsIn_snoc_of_ne
      exact (by decide : "failed" ≠ "completed")
  | cancelled =>
      rw [List.append_nil]
      exact before

omit [DecidableEq ι] [DecidableEq γ] [DecidableEq τ] in
theorem escalate_decisions (reason : String) (draw : Draw) :
    (world.escalate k reason draw).decisions k = world.decisions k := by
  unfold escalate
  cases found : world.store.load k with
  | none => rfl
  | some state =>
      have keyed : (state.escalated reason draw.eventId).key = k :=
        (WorkflowStore.load_key found : state.key = k)
      have saved := decisions_save world (state.escalated reason draw.eventId)
      rw [keyed] at saved
      refine saved.trans ?_
      rw [decisions_of_load found]
      apply decisionsIn_snoc_of_ne
      exact (by decide : "escalated" ≠ "completed")

omit [DecidableEq ι] [DecidableEq γ] [DecidableEq τ] in
theorem label_other_quiet {event : WorldEvent ι γ τ} (other : world.label k event = .other) :
    world.accepted k event = none ∧ world.operationEvents k event = [] := by
  cases event with
  | start request => exact ⟨rfl, rfl⟩
  | escalate workflowId reason draw => exact ⟨rfl, rfl⟩
  | environment g gateway => exact ⟨rfl, rfl⟩
  | call task i call draw =>
      cases call with
      | run workflowId => exact ⟨rfl, rfl⟩
      | resume workflowId approval =>
          have elsewhere : workflowId ≠ k := by
            intro own
            simp [label, Call.workflowId, own] at other
          exact ⟨if_neg elsewhere, rfl⟩
  | settle task outcome draw =>
      have elsewhere : (world.tasks task).frameOn k = none := by
        cases found : (world.tasks task).frameOn k with
        | none => rfl
        | some frame => simp [label, found] at other
      refine ⟨rfl, ?_⟩
      cases outcome <;> simp [operationEvents, elsewhere]

/-- A step in the life of a workflow whose calls do not overlap adds the approval
that it accepts, and what the events of its operations say. -/
theorem decisions_step {event : WorldEvent ι γ τ} (growing : (world.view k).Growing)
    (apart : world.CallsApart k event) (fired : worldStep config world event next) :
    next.decisions k = world.decisions k ++ (world.accepted k event).toList.map decisionText ++
      decisionsIn (world.operationEvents k event) := by
  have labelled := label_labelled k world event
  have quiet : world.label k event = .other → world.accepted k event = none ∧
      world.operationEvents k event = [] := label_other_quiet
  have lived := step_lifecycle config k fired
  generalize world.label k event = own at labelled lived quiet
  cases labelled with
  | created request named =>
      obtain rfl := Option.some.inj fired
      have absent : world.store.load k = none := apart named
      have created : (world.start request).decisions k = [] := by
        rw [← named]
        exact decisions_save world { request := request }
      have before : world.decisions k = [] := by simp [decisions, absent]
      rw [created, before]
      rfl
  | called task i call draw named =>
      obtain ⟨free, rfl⟩ := worldStep_call.mp fired
      cases call with
      | run workflowId =>
          obtain rfl : workflowId = k := named
          refine (run_decisions i task draw).trans ?_
          simp [accepted, operationEvents, decisionsIn]
      | resume workflowId approval =>
          obtain rfl : workflowId = k := named
          refine (resume_decisions i task approval draw).trans ?_
          simp [accepted, operationEvents, decisionsIn]
  | settled task outcome draw frame suspended named =>
      subst named
      have found := frameOn_eq_some_iff.mpr ⟨suspended, rfl⟩
      obtain ⟨held, frameExact, rfl⟩ := worldStep_settle.mp fired
      obtain rfl : frame = held := by
        rw [suspended] at frameExact
        exact Task.suspended.inj frameExact
      have copied := growing.held task frame found
      have settled := settle_decisions config
        (world.emit (.settled task frame.phase frame.current outcome)) task outcome
        draw copied
      obtain ⟨row, stored, events⟩ := copied
      have before : world.decisions frame.current.key = decisionsIn frame.current.events := by
        rw [decisions_of_load stored, events]
      rw [settled, decisionsIn_append, before]
      cases outcome <;> simp [accepted, operationEvents, found, decisionsIn]
  | escalated reason draw =>
      obtain rfl := Option.some.inj fired
      refine (escalate_decisions reason draw).trans ?_
      simp [accepted, operationEvents, decisionsIn]
  | other event =>
      obtain ⟨unaccepted, unwritten⟩ := quiet rfl
      generalize before : world.view k = life at lived
      generalize after : next.view k = later at lived
      cases lived with
      | other =>
          rw [unaccepted, unwritten, decisions_congr (after.trans before.symm)]
          simp [decisionsIn]

omit [DecidableEq ι] [DecidableEq γ] [DecidableEq τ] in
/-- With labelled events, operations add nothing to the decisions just when those of
the phase APPROVAL do not say that they are completed. -/
theorem leavesApproval_iff {event : WorldEvent ι γ τ} (named : world.NamesPhase k event) :
    world.LeavesApproval k event ↔
      decisionsIn (world.operationEvents k event) = [] := by
  cases event with
  | settle task outcome draw =>
      cases outcome with
      | returned written =>
          cases found : (world.tasks task).frameOn k with
          | none => simp [LeavesApproval, World.operationEvents, found, decisionsIn]
          | some frame =>
              have phase : written.phase = frame.phase := named frame found
              simp [LeavesApproval, World.operationEvents, found, decisionsIn, phase]
      | escalated message => simp [LeavesApproval, World.operationEvents, decisionsIn]
      | raised message => simp [LeavesApproval, World.operationEvents, decisionsIn]
      | cancelled => simp [LeavesApproval, World.operationEvents, decisionsIn]
  | start request => simp [LeavesApproval, World.operationEvents, decisionsIn]
  | call task i call draw => simp [LeavesApproval, World.operationEvents, decisionsIn]
  | escalate workflowId reason draw =>
      simp [LeavesApproval, World.operationEvents, decisionsIn]
  | environment g gateway => simp [LeavesApproval, World.operationEvents, decisionsIn]

/-! ## Reports that are returned -/

def ReportsRow (world : World ι γ τ) : Prop :=
  ∀ workflowId report, world.effects.getLast? = some (.answered workflowId (.ok report)) →
    ∃ row, world.store.load report.request.id.str = some row ∧ row.report = report

omit [DecidableEq ι] [DecidableEq γ] [DecidableEq τ] in
theorem reportsRow_emit {effect : Effect τ}
    (silent : ∀ workflowId report, effect ≠ .answered workflowId (.ok report)) :
    (world.emit effect).ReportsRow := by
  intro workflowId report last
  have same : some effect = some (.answered workflowId (.ok report)) :=
    (List.getLast?_concat (l := world.effects)).symm.trans last
  exact absurd (Option.some.inj same) (silent workflowId report)

omit [DecidableEq ι] [DecidableEq γ] [DecidableEq τ] in
theorem reportsRow_save (state : WorkflowState) : (world.save state).ReportsRow := by
  have emitted : (({ world with store := world.store.save state } : World ι γ τ).emit
      (.saved state)).ReportsRow := by
    apply reportsRow_emit
    intro other report same
    cases same
  exact emitted

omit [DecidableEq ι] [DecidableEq γ] [DecidableEq τ] in
theorem reportsRow_report {row : WorkflowState} (workflowId : String)
    (stored : world.store.load row.key = some row) :
    (world.emit (.answered workflowId (.ok row.report))).ReportsRow := by
  intro other report last
  have same : some (Effect.answered (τ := τ) workflowId (.ok row.report)) =
      some (.answered other (.ok report)) := List.getLast?_concat.symm.trans last
  cases same
  exact ⟨row, stored, rfl⟩

omit [DecidableEq ι] [DecidableEq γ] in
theorem reportsRow_error (task : τ) (workflowId : String) (error : WorkflowError) :
    (world.answer task workflowId (.error error)).ReportsRow := by
  apply reportsRow_emit
  intro other report same
  cases same

omit [DecidableEq ι] [DecidableEq γ] in
theorem fail_reportsRow (task : τ) (call : Call) (current : WorkflowState)
    (phase : WorkflowPhase) (message : String) (eventId : UUID) :
    (world.fail task call current phase message eventId).ReportsRow :=
  reportsRow_report call.workflowId
    (Table.find_upsert_self world.store (current.failed phase message eventId))

omit [DecidableEq ι] in
theorem execute_reportsRow (i : ι) (task : τ) (call : Call) (current : WorkflowState)
    (phase : WorkflowPhase) (approval : Option Approval) (draw : Draw) :
    (world.execute config i task call current phase approval draw).ReportsRow := by
  unfold execute
  split
  · exact fail_reportsRow task call current phase _ draw.eventId
  · apply reportsRow_emit
    intro other report same
    cases same

theorem loop_reportsRow (i : ι) (task : τ) (call : Call) (current : WorkflowState)
    (draw : Draw) : (world.loop config i task call current draw).ReportsRow := by
  unfold loop
  split
  · exact reportsRow_report call.workflowId
      (Table.find_upsert_self world.store current.completed)
  rename_i phase atPhase
  split
  · exact execute_reportsRow i task call current phase _ draw
  rename_i checked unapproved
  split
  · split
    · exact reportsRow_error task call.workflowId _
    · rename_i waiting found
      refine reportsRow_report call.workflowId ?_
      rw [WorkflowStore.load_key found]
      exact found
  · exact execute_reportsRow i task call current phase none draw

omit [DecidableEq ι] [DecidableEq γ] in
theorem answer_reportsRow (task : τ) {workflowId : String} {state : WorkflowState}
    (found : world.store.load workflowId = some state) :
    (world.answer task workflowId (.ok state.report)).ReportsRow := by
  have keyed := WorkflowStore.load_key found
  refine reportsRow_report workflowId ?_
  rw [keyed]
  exact found

theorem run_reportsRow (i : ι) (task : τ) (workflowId : String) (draw : Draw) :
    (world.run config i task workflowId draw).ReportsRow := by
  unfold run
  split
  · exact reportsRow_error task workflowId _
  rename_i state found
  split
  · exact answer_reportsRow task found
  · exact loop_reportsRow i task _ state.running draw

theorem resume_reportsRow (i : ι) (task : τ) (workflowId : String) (approval : Option Approval)
    (draw : Draw) : (world.resume config i task workflowId approval draw).ReportsRow := by
  unfold resume
  split
  · exact reportsRow_error task workflowId _
  rename_i state found
  split
  · exact answer_reportsRow task found
  split
  · exact reportsRow_error task workflowId _
  rename_i presented
  split
  · exact reportsRow_error task workflowId _
  split
  · exact reportsRow_error task workflowId _
  · exact loop_reportsRow i task _ (state.resumed presented draw.answerId).running draw

theorem settle_reportsRow (task : τ) (frame : Frame ι) (outcome : Outcome) (draw : Draw) :
    (world.settle config task frame outcome draw).ReportsRow := by
  cases outcome with
  | returned event =>
      obtain ⟨gateway, behind⟩ := settle_returned config world task frame event draw
      rw [behind]
      exact loop_reportsRow frame.runner task frame.call (frame.current.advance event) draw
  | escalated message =>
      obtain ⟨gateway, behind⟩ := settle_escalated config world task frame message draw
      rw [behind]
      exact reportsRow_error task frame.call.workflowId _
  | raised message =>
      obtain ⟨gateway, behind⟩ := settle_raised config world task frame message draw
      rw [behind]
      exact fail_reportsRow task frame.call frame.current frame.phase message draw.eventId
  | cancelled => exact reportsRow_error task frame.call.workflowId _

theorem reportsRow_step {event : WorldEvent ι γ τ} (before : world.ReportsRow)
    (fired : worldStep config world event next) : next.ReportsRow := by
  cases event with
  | start request =>
      obtain rfl := Option.some.inj fired
      exact reportsRow_save _
  | call task i call draw =>
      obtain ⟨free, rfl⟩ := worldStep_call.mp fired
      cases call with
      | run workflowId => exact run_reportsRow i task workflowId draw
      | resume workflowId approval => exact resume_reportsRow i task workflowId approval draw
  | settle task outcome draw =>
      obtain ⟨frame, suspended, rfl⟩ := worldStep_settle.mp fired
      exact settle_reportsRow task frame outcome draw
  | escalate workflowId reason draw =>
      obtain rfl := Option.some.inj fired
      unfold escalate
      split
      · apply reportsRow_emit
        intro other report same
        cases same
      · exact reportsRow_report workflowId (Table.find_upsert_self world.store _)
  | environment g gateway =>
      obtain rfl := Option.some.inj fired
      exact before

end Step
end World

/-! ## Runs -/

/-- The world with the approvals of one workflow that were accepted so far. -/
structure Ledger (ι γ τ : Type) where
  world : World ι γ τ
  accepted : List Approval := []

namespace Ledger

/-- What the reports of the workflow say is what humans decided. -/
structure HonestReports (k : String) (ledger : Ledger ι γ τ) : Prop where
  stored : ∀ row, ledger.world.store.load k = some row →
    row.report.humanDecisions = ledger.accepted.map decisionText
  returned : ∀ workflowId report,
    ledger.world.effects.getLast? = some (.answered workflowId (.ok report)) →
      report.request.id.str = k → report.humanDecisions = ledger.accepted.map decisionText

section Step
variable [DecidableEq ι] [DecidableEq γ] [DecidableEq τ]
variable (config : ι → EngineeringWorkflow γ) (k : String)

def step (ledger : Ledger ι γ τ) (event : WorldEvent ι γ τ) (next : Ledger ι γ τ) : Prop :=
  worldStep config ledger.world event next.world ∧
    next.accepted = ledger.accepted ++ (ledger.world.accepted k event).toList

/-- The workflow is created once, its calls follow each other, and its operations
label their events. -/
def InSequence : Ledger ι γ τ → WorldEvent ι γ τ → Ledger ι γ τ → Prop :=
  Guarded (fun ledger event => ledger.world.Sequential k event)
    (Guarded (fun ledger event => ledger.world.NamesPhase k event) (step config k))

theorem run_ledger {world next : World ι γ τ} {events : List (WorldEvent ι γ τ)}
    (run : Run (worldStep config) world events next) :
    ∃ accepted, Run (step config k) { world := world } events
      { world := next, accepted := accepted } := by
  induction run with
  | nil => exact ⟨[], Run.nil⟩
  | snoc _ last ih =>
      obtain ⟨accepted, before⟩ := ih
      exact ⟨_, before.snoc ⟨last, rfl⟩⟩

variable {config} {k} {ledger next : Ledger ι γ τ} {event : WorldEvent ι γ τ}
variable {gateways : γ → SecurityGateway} {events : List (WorldEvent ι γ τ)}

structure Agrees (k : String) (ledger : Ledger ι γ τ) : Prop where
  inStep : (ledger.world.view k).InStep
  growing : (ledger.world.view k).Growing
  reports : ledger.world.ReportsRow
  decisions : ledger.world.decisions k = ledger.accepted.map decisionText

omit [DecidableEq ι] [DecidableEq γ] [DecidableEq τ] in
theorem agrees_init (gateways : γ → SecurityGateway) (k : String) :
    Agrees k ({ world := World.init gateways } : Ledger ι γ τ) := by
  refine
    { inStep := ?inStep
      growing := ?growing
      reports := ?reports
      decisions := rfl }
  case inStep =>
    rw [World.view_init]
    constructor <;> simp [Lifecycle.index]
  case growing =>
    rw [World.view_init]
    constructor <;> simp
  case reports =>
    intro workflowId report last
    cases last

omit [DecidableEq ι] [DecidableEq γ] [DecidableEq τ] in
theorem Agrees.honest (agrees : Agrees k ledger) : HonestReports k ledger := by
  have stored : ∀ row, ledger.world.store.load k = some row →
      row.report.humanDecisions = ledger.accepted.map decisionText := by
    intro row found
    exact (World.decisions_of_load found).symm.trans agrees.decisions
  refine ⟨stored, ?_⟩
  intro workflowId report last own
  obtain ⟨row, found, rfl⟩ := agrees.reports workflowId report last
  rw [own] at found
  exact stored row found

theorem Agrees.step (agrees : Agrees k ledger) (leaves : ledger.world.LeavesApproval k event)
    (fired : InSequence config k ledger event next) : Agrees k next := by
  obtain ⟨sequential, named, stepped, grown⟩ := fired
  have lived := World.step_lifecycle config k stepped
  refine
    { inStep := agrees.inStep.step (World.callsApart_label sequential.1) lived
      growing := agrees.growing.step agrees.inStep (World.sequential_label sequential) lived
      reports := World.reportsRow_step agrees.reports stepped
      decisions := ?decisions }
  case decisions =>
    rw [World.decisions_step agrees.growing sequential.1 stepped, agrees.decisions,
      (World.leavesApproval_iff named).mp leaves, List.append_nil, grown, List.map_append]

theorem agrees_run (run : Run (Guarded (fun ledger event => ledger.world.LeavesApproval k event)
    (InSequence config k)) { world := World.init gateways } events ledger) : Agrees k ledger := by
  refine run.invariant (motive := Agrees k) (agrees_init gateways k) ?_
  intro before event after agrees fired
  exact agrees.step fired.1 fired.2

theorem leavesApproval_of_honest (agrees : Agrees k ledger)
    (fired : InSequence config k ledger event next) (honest : HonestReports k next) :
    ledger.world.LeavesApproval k event := by
  obtain ⟨sequential, named, stepped, grown⟩ := fired
  have decided := World.decisions_step agrees.growing sequential.1 stepped
  rw [agrees.decisions, ← List.map_append, ← grown] at decided
  rw [World.leavesApproval_iff named]
  cases found : next.world.store.load k with
  | none =>
      have nothing : next.world.decisions k = [] := by simp [World.decisions, found]
      rw [nothing] at decided
      exact (List.append_eq_nil_iff.mp decided.symm).2
  | some row =>
      have same := honest.stored row found
      rw [report_humanDecisions, ← World.decisions_of_load found, decided] at same
      exact List.append_right_eq_self.mp same

/-- In the runs in which the calls on a workflow follow each other, its reports are
honest all the way just when no operation for the phase APPROVAL says that it is
completed. -/
theorem human_decisions_iff (config : ι → EngineeringWorkflow γ)
    (gateways : γ → SecurityGateway) (k : String) {events : List (WorldEvent ι γ τ)}
    {ledger : Ledger ι γ τ} :
    Run (fun before event after => InSequence config k before event after ∧
        HonestReports k after) { world := World.init gateways } events ledger ↔
      Run (Guarded (fun ledger event => ledger.world.LeavesApproval k event)
        (InSequence config k)) { world := World.init gateways } events ledger := by
  constructor
  · intro run
    induction run with
    | nil => exact Run.nil
    | snoc _ last ih =>
        exact ih.snoc ⟨leavesApproval_of_honest (agrees_run ih) last.1 last.2, last.1⟩
  · intro run
    induction run with
    | nil => exact Run.nil
    | snoc past last ih =>
        exact ih.snoc ⟨last.2, (agrees_run (past.snoc last)).honest⟩

/-! ### An operation for the phase APPROVAL -/

instance (k : String) (world : World ι γ τ) (event : WorldEvent ι γ τ) :
    Decidable (world.NamesPhase k event) :=
  match event with
  | .settle task (.returned written) _ =>
      inferInstanceAs (Decidable
        (∀ frame ∈ (world.tasks task).frameOn k, written.phase = frame.phase))
  | .settle _ (.escalated _) _ => isTrue trivial
  | .settle _ (.raised _) _ => isTrue trivial
  | .settle _ .cancelled _ => isTrue trivial
  | .start _ => isTrue trivial
  | .call _ _ _ _ => isTrue trivial
  | .escalate _ _ _ => isTrue trivial
  | .environment _ _ => isTrue trivial

def performed (phase : WorkflowPhase) : WorldEvent Unit Unit ℕ :=
  .settle 0 (.returned
    { phase := phase
      status := "completed"
      detail := "completed " ++ phase.value
      id := ⟨7⟩ }) World.sampleDraw

def untilCheckpoint : List (WorldEvent Unit Unit ℕ) :=
  (WorkflowPhase.phases.take 8).map performed

/-- The workflow waits for a human, who has decided nothing yet. -/
theorem completed_approval_is_reported :
    ∃ (events : List (WorldEvent Unit Unit ℕ)) (ledger : Ledger Unit Unit ℕ),
      Run (InSequence (fun _ => World.engineering) World.feature.id.str)
        { world := World.init fun _ => World.engineers } events ledger ∧
      ledger.accepted = [] ∧
      (∃ row, ledger.world.store.load World.feature.id.str = some row ∧
        row.status = .waitingApproval ∧
        row.report.humanDecisions = ["completed approval"]) ∧
      ¬ HonestReports World.feature.id.str ledger := by
  have reached : ((untilCheckpoint.foldlM (fun (world : World Unit Unit ℕ) event =>
      if World.NamesPhase World.feature.id.str world event then
        world.next (fun _ => World.engineering) event
      else none) World.underway).bind fun world =>
        (world.store.load World.feature.id.str).map fun row =>
          (row.status, row.report.humanDecisions)) =
      some (.waitingApproval, ["completed approval"]) := by decide +kernel
  obtain ⟨world, folded, reported⟩ := Option.bind_eq_some_iff.mp reached
  obtain ⟨row, found, shown⟩ := Option.map_eq_some_iff.mp reported
  obtain ⟨waits, decided⟩ := Prod.mk.inj shown
  have idle : World.createdWorld.Idle World.feature.id.str := fun _ _ suspended => nomatch suspended
  have created : InSequence (fun _ => World.engineering) World.feature.id.str
      { world := World.init fun _ => World.engineers } (.start World.feature)
      { world := World.createdWorld } :=
    ⟨⟨fun _ => rfl, (fun _ _ same => nomatch same)⟩, trivial, rfl, rfl⟩
  have called : InSequence (fun _ => World.engineering) World.feature.id.str
      { world := World.createdWorld }
      (.call 0 () (.run World.feature.id.str) World.sampleDraw) { world := World.underway } :=
    ⟨⟨fun _ => idle, (fun _ _ same => nomatch same)⟩, trivial, rfl, rfl⟩
  have apart : ∀ event ∈ untilCheckpoint, ∀ world : World Unit Unit ℕ,
      World.Sequential World.feature.id.str world event ∧
        World.accepted World.feature.id.str world event = none := by
    intro event member world
    obtain ⟨phase, _, rfl⟩ := List.mem_map.mp member
    exact ⟨⟨trivial, fun _ _ same => nomatch same⟩, rfl⟩
  have rest : Run (InSequence (fun _ => World.engineering) World.feature.id.str)
      { world := World.underway } untilCheckpoint { world := world } := by
    refine ((Run.of_guarded_foldlM folded).guarded apart).map
      (fun world => ({ world := world } : Ledger Unit Unit ℕ)) ?_
    intro before event after ⟨⟨sequential, unaccepted⟩, named, fired⟩
    exact ⟨sequential, named, fired, by rw [unaccepted]; rfl⟩
  refine ⟨_, _, ((Run.single created).snoc called).append rest, rfl, ⟨row, found, waits, decided⟩,
    ?_⟩
  intro honest
  have same := honest.stored row found
  rw [decided] at same
  cases same

end Step
end Ledger

end Eis.Workflows
