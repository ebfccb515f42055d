import Eis.Security.Gateway
import Eis.Workflows.Models

/-!
# The workflow runtime

`EngineeringWorkflow` cut at its single await, the call of
`operations.execute`: a step starts a call and follows it to the await, or
settles the awaited operation and follows the call to the next await, or is a
call without an await.  Any number of instances share one store, and any number
of calls may be suspended.  The world keeps a log of what the store, the
operations and the callers get to see.
-/

set_option autoImplicit false

namespace Eis.Workflows

open Eis.Security

variable {ι γ τ : Type}

/-- The constructor arguments of an instance; `security` names its gateway. -/
structure EngineeringWorkflow (γ : Type) where
  security : γ
  principal : Principal
  approvalPhases : List WorkflowPhase := [.implement]

/-- What the clocks and `uuid4` answer during a step. -/
structure Draw where
  completion : Reading
  preparation : Reading
  approvalRequestId : UUID
  answerId : UUID
  eventId : UUID

/-- How `operations.execute` ends; a cancellation is no `Exception`. -/
inductive Outcome where
  | returned (event : WorkflowEvent)
  | escalated (message : String)
  | raised (message : String)
  | cancelled

inductive Call where
  | run (workflowId : String)
  | resume (workflowId : String) (approval : Option Approval)

def Call.workflowId : Call → String
  | .run workflowId => workflowId
  | .resume workflowId _ => workflowId

/-- What a call raises: the `KeyError`, the two `PermissionError`s, the
`RuntimeError`, and what passes through it from the operation. -/
inductive WorkflowError where
  | notFound (workflowId : String)
  | permission (message : String)
  | notPersisted (message : String)
  | escalation (message : String)
  | cancelled
deriving DecidableEq

/-! ## The states that the runtime builds -/

namespace WorkflowState

/-- The copy that `_run` works on. -/
def running (state : WorkflowState) : WorkflowState :=
  { request := state.request
    status := .running
    phaseIndex := state.phaseIndex
    events := state.events
    approval := state.approval
    data := state.data }

def resumed (state : WorkflowState) (approval : Approval) (answerId : UUID) : WorkflowState :=
  { request := state.request
    status := .running
    phaseIndex := state.phaseIndex
    events := state.events ++
      [{ phase := .approval
         status := "completed"
         detail := match approval.reason with
           | some reason => if reason = "" then "workflow implementation approved" else reason
           | none => "workflow implementation approved"
         id := answerId }]
    approval := state.approval
    data := state.data }

def escalated (state : WorkflowState) (reason : String) (eventId : UUID) : WorkflowState :=
  { request := state.request
    status := .escalated
    phaseIndex := state.phaseIndex
    events := state.events ++
      [{ phase := .approval
         status := "escalated"
         detail := reason
         risks := [reason]
         uncertainty := ["human intervention required"]
         id := eventId }]
    approval := state.approval
    data := state.data
    escalationReason := some reason }

def failed (state : WorkflowState) (phase : WorkflowPhase) (message : String)
    (eventId : UUID) : WorkflowState :=
  { request := state.request
    status := .failed
    phaseIndex := state.phaseIndex
    events := state.events ++
      [{ phase := phase
         status := "failed"
         detail := message
         failures := [message]
         id := eventId }]
    approval := state.approval
    data := state.data }

def completed (state : WorkflowState) : WorkflowState :=
  { request := state.request
    status := .completed
    phaseIndex := state.phaseIndex
    events := state.events
    data := state.data }

def waiting (state : WorkflowState) (phase : WorkflowPhase) (request : ApprovalRequest)
    (approvalRequestId eventId : UUID) : WorkflowState :=
  { request := state.request
    status := .waitingApproval
    phaseIndex := state.phaseIndex
    events := state.events ++
      [{ phase := .approval
         status := "waiting"
         detail := request.reason
         id := eventId }]
    approval := some
      { phase := phase
        resource := state.request.repository
        reason := request.reason
        approvalRequestId := approvalRequestId }
    data := state.data }

def advance (state : WorkflowState) (event : WorkflowEvent) : WorkflowState :=
  { request := state.request
    status := .running
    phaseIndex := state.phaseIndex + 1
    events := state.events ++ [event]
    data := state.data }

def report (state : WorkflowState) : WorkflowReport :=
  { request := state.request
    status := state.status
    events := state.events
    completedWork := (state.events.filter fun event =>
      event.status = "completed" && event.detail ≠ "").map WorkflowEvent.detail
    evidence := state.events.flatMap WorkflowEvent.evidence
    tests := (state.events.filter fun event =>
      event.phase = .test && event.detail ≠ "").map WorkflowEvent.detail
    failures := state.events.flatMap WorkflowEvent.failures
    corrections := state.events.flatMap WorkflowEvent.corrections
    remainingRisks := state.events.flatMap WorkflowEvent.risks
    remainingUncertainty := state.events.flatMap WorkflowEvent.uncertainty
    humanDecisions := (state.events.filter fun event =>
      event.phase = .approval && event.status = "completed").map WorkflowEvent.detail
    escalationReason := state.escalationReason }

end WorkflowState

namespace EngineeringWorkflow

/-- The action that `_execute` puts to the gateway. -/
def action (workflow : EngineeringWorkflow γ) (state : WorkflowState) (phase : WorkflowPhase) :
    ActionRequest :=
  { actor := workflow.principal
    action := if phase = .implement then "write" else "read"
    resource := state.request.repository
    riskLevel := if phase = .implement then .high else .medium
    target := some state.key
    taskId := some state.request.id }

/-- The request that `_checkpoint` puts to the approval gate. -/
def approvalRequest (workflow : EngineeringWorkflow γ) (state : WorkflowState)
    (phase : WorkflowPhase) (id : UUID) : ApprovalRequest :=
  { action := "workflow." ++ phase.value
    resource := state.request.repository
    actor := workflow.principal.id
    reason := "Human approval required before " ++ phase.value
    riskLevel := .high
    taskId := some state.request.id
    id := id }

end EngineeringWorkflow

/-! ## The world -/

/-- The local variables of a call across its await. -/
structure Frame (ι : Type) where
  runner : ι
  call : Call
  current : WorkflowState
  phase : WorkflowPhase

/-- A call is made once, by one task. -/
inductive Task (ι : Type) where
  | fresh
  | suspended (frame : Frame ι)
  | done

inductive Effect (τ : Type) where
  | saved (state : WorkflowState)
  | executing (task : τ) (call : Call) (phase : WorkflowPhase) (state : WorkflowState)
  | settled (task : τ) (phase : WorkflowPhase) (state : WorkflowState) (outcome : Outcome)
  | answered (workflowId : String) (result : Except WorkflowError WorkflowReport)

structure World (ι γ τ : Type) where
  store : WorkflowStore
  gateways : γ → SecurityGateway
  approvalCache : ι → String → Option Approval
  tasks : τ → Task ι
  effects : List (Effect τ)

namespace World

def init (gateways : γ → SecurityGateway) : World ι γ τ :=
  { store := Table.empty
    gateways := gateways
    approvalCache := fun _ _ => none
    tasks := fun _ => .fresh
    effects := [] }

def emit (world : World ι γ τ) (effect : Effect τ) : World ι γ τ :=
  { world with effects := world.effects ++ [effect] }

def save (world : World ι γ τ) (state : WorkflowState) : World ι γ τ :=
  { world with
    store := world.store.save state
    effects := world.effects ++ [.saved state] }

section Updates
variable [DecidableEq ι] [DecidableEq γ] [DecidableEq τ]

def setGateway (world : World ι γ τ) (g : γ) (gateway : SecurityGateway) : World ι γ τ :=
  { world with gateways := Function.update world.gateways g gateway }

def setCache (world : World ι γ τ) (i : ι) (workflowId : String) (cached : Option Approval) :
    World ι γ τ :=
  { world with
    approvalCache := Function.update world.approvalCache i
      (Function.update (world.approvalCache i) workflowId cached) }

def setTask (world : World ι γ τ) (task : τ) (state : Task ι) : World ι γ τ :=
  { world with tasks := Function.update world.tasks task state }

def answer (world : World ι γ τ) (task : τ) (workflowId : String)
    (result : Except WorkflowError WorkflowReport) : World ι γ τ :=
  (world.setTask task .done).emit (.answered workflowId result)

/-! ## The loop of `_run` -/

variable (config : ι → EngineeringWorkflow γ)

def checkpoint (world : World ι γ τ) (i : ι) (state : WorkflowState) (phase : WorkflowPhase)
    (draw : Draw) : World ι γ τ × Option Approval :=
  if phase ∉ (config i).approvalPhases then (world, none)
  else
    match world.approvalCache i state.key with
    | some cached => (world.setCache i state.key none, some cached)
    | none =>
        match (world.gateways (config i).security).approvalGate.request
          ((config i).approvalRequest state phase draw.approvalRequestId) with
        | (gate, approval) =>
            ((world.setGateway (config i).security
                { world.gateways (config i).security with approvalGate := gate }).save
              (state.waiting phase
                ((config i).approvalRequest state phase draw.approvalRequestId)
                approval.requestId draw.eventId), none)

/-- The `except Exception` of the loop. -/
def fail (world : World ι γ τ) (task : τ) (call : Call) (current : WorkflowState)
    (phase : WorkflowPhase) (message : String) (eventId : UUID) : World ι γ τ :=
  (world.save (current.failed phase message eventId)).answer task call.workflowId
    (.ok (current.failed phase message eventId).report)

/-- `_execute` up to the await of the operation. -/
def execute (world : World ι γ τ) (i : ι) (task : τ) (call : Call) (current : WorkflowState)
    (phase : WorkflowPhase) (approval : Option Approval) (draw : Draw) : World ι γ τ :=
  match (world.gateways (config i).security).prepare ((config i).action current phase) approval
    draw.preparation with
  | (gateway, .error error) =>
      (world.setGateway (config i).security gateway).fail task call current phase error.message
        draw.eventId
  | (gateway, .ok _) =>
      ((world.setGateway (config i).security gateway).setTask task
        (.suspended ⟨i, call, current, phase⟩)).emit (.executing task call phase current)

/-- From the head of the loop to the next await or to the end of the call. -/
def loop (world : World ι γ τ) (i : ι) (task : τ) (call : Call) (current : WorkflowState)
    (draw : Draw) : World ι γ τ :=
  match current.phase with
  | none =>
      (world.save current.completed).answer task call.workflowId (.ok current.completed.report)
  | some phase =>
      match world.checkpoint config i current phase draw with
      | (world, some approval) =>
          world.execute config i task call current phase (some approval) draw
      | (world, none) =>
          if phase ∈ (config i).approvalPhases then
            match world.store.load current.key with
            | none => world.answer task call.workflowId
                (.error (.notPersisted "workflow checkpoint was not persisted"))
            | some waiting => world.answer task call.workflowId (.ok waiting.report)
          else world.execute config i task call current phase none draw

/-- `_run` up to the first await. -/
def begin (world : World ι γ τ) (i : ι) (task : τ) (call : Call) (state : WorkflowState)
    (draw : Draw) : World ι γ τ :=
  (world.save state.running).loop config i task call state.running draw

/-! ## The calls -/

def start (world : World ι γ τ) (request : WorkflowRequest) : World ι γ τ :=
  world.save { request := request }

def run (world : World ι γ τ) (i : ι) (task : τ) (workflowId : String) (draw : Draw) :
    World ι γ τ :=
  match world.store.load workflowId with
  | none => world.answer task workflowId (.error (.notFound workflowId))
  | some state =>
      if state.status ∈ [.waitingApproval, .completed, .failed, .escalated] then
        world.answer task workflowId (.ok state.report)
      else world.begin config i task (.run workflowId) state draw

def resume (world : World ι γ τ) (i : ι) (task : τ) (workflowId : String)
    (approval : Option Approval) (draw : Draw) : World ι γ τ :=
  match world.store.load workflowId with
  | none => world.answer task workflowId (.error (.notFound workflowId))
  | some state =>
      if state.status ≠ .waitingApproval then
        world.answer task workflowId (.ok state.report)
      else
        match approval with
        | none => world.answer task workflowId
            (.error (.permission "approved workflow checkpoint is required"))
        | some presented =>
            if presented.status ≠ .approved then
              world.answer task workflowId
                (.error (.permission "approved workflow checkpoint is required"))
            else if state.approval.map WorkflowApproval.approvalRequestId ≠
                some presented.requestId then
              world.answer task workflowId
                (.error (.permission "approval does not match workflow checkpoint"))
            else
              ((world.setCache i workflowId (some presented)).save
                (state.resumed presented draw.answerId)).begin config i task
                  (.resume workflowId approval) (state.resumed presented draw.answerId) draw

def invoke (world : World ι γ τ) (i : ι) (task : τ) (call : Call) (draw : Draw) :
    World ι γ τ :=
  match call with
  | .run workflowId => world.run config i task workflowId draw
  | .resume workflowId approval => world.resume config i task workflowId approval draw

def escalate (world : World ι γ τ) (workflowId reason : String) (draw : Draw) : World ι γ τ :=
  match world.store.load workflowId with
  | none => world.emit (.answered workflowId (.error (.notFound workflowId)))
  | some state =>
      (world.save (state.escalated reason draw.eventId)).emit
        (.answered workflowId (.ok (state.escalated reason draw.eventId).report))

/-- `security.complete` behind the await. -/
def completeAction (world : World ι γ τ) (frame : Frame ι) (result : String)
    (failure : Option String) (draw : Draw) : World ι γ τ × Except SecurityError Unit :=
  match (world.gateways (config frame.runner).security).complete
    ((config frame.runner).action frame.current frame.phase) result failure 0 0
      draw.completion with
  | (gateway, completed) => (world.setGateway (config frame.runner).security gateway, completed)

/-- The rest of the call behind the await. -/
def settle (world : World ι γ τ) (task : τ) (frame : Frame ι) (outcome : Outcome)
    (draw : Draw) : World ι γ τ :=
  match outcome with
  | .returned event =>
      match world.completeAction config frame "success" none draw with
      | (world, .error error) =>
          world.fail task frame.call frame.current frame.phase error.message draw.eventId
      | (world, .ok ()) =>
          (world.save (frame.current.advance event)).loop config frame.runner task frame.call
            (frame.current.advance event) draw
  | .escalated message =>
      match world.completeAction config frame "failure" (some message) draw with
      | (world, .error error) =>
          world.fail task frame.call frame.current frame.phase error.message draw.eventId
      | (world, .ok ()) =>
          world.answer task frame.call.workflowId (.error (.escalation message))
  | .raised message =>
      match world.completeAction config frame "failure" (some message) draw with
      | (world, .error error) =>
          world.fail task frame.call frame.current frame.phase error.message draw.eventId
      | (world, .ok ()) =>
          world.fail task frame.call frame.current frame.phase message draw.eventId
  | .cancelled => world.answer task frame.call.workflowId (.error .cancelled)

end Updates
end World

/-! ## The machine -/

/-- `environment` is whatever else happens on a gateway: answers of the
approval gate, other actions, a new configuration. -/
inductive WorldEvent (ι γ τ : Type) where
  | start (request : WorkflowRequest)
  | call (task : τ) (i : ι) (call : Call) (draw : Draw)
  | settle (task : τ) (outcome : Outcome) (draw : Draw)
  | escalate (workflowId reason : String) (draw : Draw)
  | environment (g : γ) (gateway : SecurityGateway)

section Machine
variable [DecidableEq ι] [DecidableEq γ] [DecidableEq τ]
variable (config : ι → EngineeringWorkflow γ)

def World.next (world : World ι γ τ) : WorldEvent ι γ τ → Option (World ι γ τ)
  | .start request => some (world.start request)
  | .call task i call draw =>
      match world.tasks task with
      | .fresh => some (world.invoke config i task call draw)
      | _ => none
  | .settle task outcome draw =>
      match world.tasks task with
      | .suspended frame => some
          ((world.emit (.settled task frame.phase frame.current outcome)).settle config task
            frame outcome draw)
      | _ => none
  | .escalate workflowId reason draw => some (world.escalate workflowId reason draw)
  | .environment g gateway => some (world.setGateway g gateway)

def worldStep (world : World ι γ τ) (event : WorldEvent ι γ τ) (next : World ι γ τ) : Prop :=
  world.next config event = some next

variable {config}

theorem worldStep_call {world next : World ι γ τ} {task : τ} {i : ι} {call : Call} {draw : Draw} :
    worldStep config world (.call task i call draw) next ↔ world.tasks task = .fresh ∧
      next = world.invoke config i task call draw := by
  unfold worldStep World.next
  cases state : world.tasks task <;> simp [state, eq_comm]

theorem worldStep_settle {world next : World ι γ τ} {task : τ} {outcome : Outcome}
    {draw : Draw} :
    worldStep config world (.settle task outcome draw) next ↔
      ∃ frame, world.tasks task = .suspended frame ∧
        next = (world.emit (.settled task frame.phase frame.current outcome)).settle config task
          frame outcome draw := by
  unfold worldStep World.next
  cases state : world.tasks task <;> simp [state, eq_comm]

end Machine

end Eis.Workflows
