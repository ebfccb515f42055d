import Eis.Workflows.Lifecycle

/-!
# The world refines the life of each of its workflows

`World.view k` is what the world holds and has seen of the workflow with key
`k`.  A step of the world is a step in the life of the workflow it is about and
leaves every other workflow alone.
-/

set_option autoImplicit false

namespace Eis.Workflows

open Eis.Security Transition

variable {ι γ τ : Type}

def Effect.savedState (k : String) : Effect τ → Option WorkflowState
  | .saved state => if state.key = k then some state else none
  | _ => none

def Effect.completion (k : String) : Effect τ → Option (τ × WorkflowPhase)
  | .settled task phase state (.returned _) => if state.key = k then some (task, phase) else none
  | _ => none

def Effect.execution (k : String) : Effect τ → Option (τ × WorkflowPhase)
  | .executing task _ phase state => if state.key = k then some (task, phase) else none
  | _ => none

def Task.frameOn (k : String) : Task ι → Option (Frame ι)
  | .suspended frame => if frame.current.key = k then some frame else none
  | _ => none

namespace World

def view (k : String) (world : World ι γ τ) : Lifecycle ι τ where
  row := world.store.load k
  copies := fun task => (world.tasks task).frameOn k
  saves := world.effects.filterMap (Effect.savedState k)
  completions := world.effects.filterMap (Effect.completion k)
  starts := world.effects.filterMap (Effect.execution k)

/-! ## The view of a single update -/

theorem filterMap_snoc {α β : Type} (f : α → Option β) (items : List α) (item : α) :
    (items ++ [item]).filterMap f = items.filterMap f ++ (f item).toList := by
  rw [List.filterMap_append]
  cases found : f item <;> simp [found]

/-- An effect shows as far as it is part of the history of the workflow. -/
theorem view_emit_eq (k : String) (world : World ι γ τ) (effect : Effect τ) :
    (world.emit effect).view k =
      { world.view k with
        saves := (world.view k).saves ++ (effect.savedState k).toList
        completions := (world.view k).completions ++ (effect.completion k).toList
        starts := (world.view k).starts ++ (effect.execution k).toList } := by
  unfold view emit
  simp only [filterMap_snoc]

theorem view_save (k : String) (world : World ι γ τ) (state : WorkflowState) :
    (world.save state).view k = if state.key = k then
      { world.view k with
        row := some state
        saves := (world.view k).saves ++ [state] }
      else world.view k := by
  have stored : (world.save state).view k =
      { (world.emit (.saved state)).view k with row := (world.store.save state).load k } := rfl
  rw [stored, view_emit_eq, WorkflowStore.load_save]
  by_cases own : state.key = k <;>
    simp [own, view, Effect.savedState, Effect.completion, Effect.execution]

theorem view_executing (k : String) (world : World ι γ τ) (task : τ) (call : Call)
    (phase : WorkflowPhase) (state : WorkflowState) :
    (world.emit (.executing task call phase state)).view k = if state.key = k then
      { world.view k with starts := (world.view k).starts ++ [(task, phase)] }
      else world.view k := by
  rw [view_emit_eq]
  by_cases own : state.key = k <;>
    simp [own, Effect.savedState, Effect.completion, Effect.execution]

theorem view_returned (world : World ι γ τ) (task : τ) (phase : WorkflowPhase)
    (state : WorkflowState) (event : WorkflowEvent) :
    (world.emit (.settled task phase state (.returned event))).view state.key =
      { world.view state.key with
        completions := (world.view state.key).completions ++ [(task, phase)] } := by
  rw [view_emit_eq]
  simp [Effect.savedState, Effect.completion, Effect.execution]

theorem view_emit (k : String) (world : World ι γ τ) {effect : Effect τ}
    (unsaved : effect.savedState k = none) (uncompleted : effect.completion k = none)
    (unstarted : effect.execution k = none) : (world.emit effect).view k = world.view k := by
  rw [view_emit_eq, unsaved, uncompleted, unstarted]
  simp

@[simp] theorem view_answered (k : String) (world : World ι γ τ) (workflowId : String)
    (result : Except WorkflowError WorkflowReport) :
    (world.emit (.answered workflowId result)).view k = world.view k :=
  view_emit k world rfl rfl rfl

section Updates
variable [DecidableEq ι] [DecidableEq γ] [DecidableEq τ]

omit [DecidableEq ι] [DecidableEq τ] in
@[simp] theorem view_setGateway (k : String) (world : World ι γ τ) (g : γ)
    (gateway : SecurityGateway) : (world.setGateway g gateway).view k = world.view k := rfl

omit [DecidableEq γ] [DecidableEq τ] in
@[simp] theorem view_setCache (k : String) (world : World ι γ τ) (i : ι) (workflowId : String)
    (cached : Option Approval) :
    (world.setCache i workflowId cached).view k = world.view k := rfl

omit [DecidableEq ι] [DecidableEq γ] in
@[simp] theorem view_setTask (k : String) (world : World ι γ τ) (task : τ) (state : Task ι) :
    (world.setTask task state).view k =
      { world.view k with
        copies := Function.update (world.view k).copies task (state.frameOn k) } := by
  ext1
  case copies =>
    funext other
    by_cases same : other = task
    · subst same
      simp [view, setTask]
    · simp [view, setTask, same]
  all_goals rfl

omit [DecidableEq ι] [DecidableEq γ] in
@[simp] theorem view_answer (k : String) (world : World ι γ τ) (task : τ) (workflowId : String)
    (result : Except WorkflowError WorkflowReport) :
    (world.answer task workflowId result).view k =
      { world.view k with copies := Function.update (world.view k).copies task none } := by
  simp [answer, Task.frameOn]

/-! ## What the loop does -/

variable (config : ι → EngineeringWorkflow γ)

/-- The phase needs no approval, or the cached one is taken out for it. -/
def Unlocked (world : World ι γ τ) (i : ι) (current : WorkflowState) (phase : WorkflowPhase)
    (approval : Option Approval) (unlocked : World ι γ τ) : Prop :=
  (phase ∉ (config i).approvalPhases ∧ approval = none ∧ unlocked = world) ∨
    (phase ∈ (config i).approvalPhases ∧ approval = world.approvalCache i current.key ∧
      approval ≠ none ∧ unlocked = world.setCache i current.key none)

/-- The loop completes the workflow, stops at a checkpoint, fails at the
gateway or calls the operation of the phase. -/
inductive LoopEnds (world : World ι γ τ) (i : ι) (task : τ) (call : Call)
    (current : WorkflowState) : World ι γ τ → Prop where
  | completed (exhausted : current.phase = none) :
      LoopEnds world i task call current ((world.save current.completed).answer task
        call.workflowId (.ok current.completed.report))
  | waiting (phase : WorkflowPhase) (request : ApprovalRequest) (gateway : SecurityGateway)
      (approvalRequestId eventId : UUID) (result : Except WorkflowError WorkflowReport)
      (atPhase : current.phase = some phase) (gated : phase ∈ (config i).approvalPhases)
      (uncached : world.approvalCache i current.key = none) :
      LoopEnds world i task call current
        (((world.setGateway (config i).security gateway).save
          (current.waiting phase request approvalRequestId eventId)).answer task
            call.workflowId result)
  | refused (phase : WorkflowPhase) (approval : Option Approval) (unlocked : World ι γ τ)
      (gateway : SecurityGateway) (message : String) (eventId : UUID)
      (atPhase : current.phase = some phase)
      (ready : Unlocked config world i current phase approval unlocked) :
      LoopEnds world i task call current
        ((unlocked.setGateway (config i).security gateway).fail task call current phase message
          eventId)
  | executing (phase : WorkflowPhase) (approval : Option Approval) (unlocked : World ι γ τ)
      (gateway : SecurityGateway) (atPhase : current.phase = some phase)
      (ready : Unlocked config world i current phase approval unlocked) :
      LoopEnds world i task call current
        (((unlocked.setGateway (config i).security gateway).setTask task
          (.suspended ⟨i, call, current, phase⟩)).emit (.executing task call phase current))

theorem execute_ends {world unlocked : World ι γ τ} {i : ι} {task : τ} {call : Call}
    {current : WorkflowState} {phase : WorkflowPhase} {approval : Option Approval} (draw : Draw)
    (atPhase : current.phase = some phase)
    (ready : Unlocked config world i current phase approval unlocked) :
    LoopEnds config world i task call current
      (unlocked.execute config i task call current phase approval draw) := by
  unfold execute
  split
  · exact .refused phase approval unlocked _ _ _ atPhase ready
  · exact .executing phase approval unlocked _ atPhase ready

theorem loop_ends (world : World ι γ τ) (i : ι) (task : τ) (call : Call)
    (current : WorkflowState) (draw : Draw) :
    LoopEnds config world i task call current
      (world.loop config i task call current draw) := by
  unfold loop
  split
  · rename_i exhausted
    exact .completed exhausted
  rename_i phase atPhase
  by_cases gated : phase ∈ (config i).approvalPhases
  · cases cached : world.approvalCache i current.key with
    | some approval =>
        simp only [checkpoint, gated, not_true_eq_false, if_false, cached]
        exact execute_ends config draw atPhase
          (Or.inr ⟨gated, cached.symm, Option.some_ne_none _, rfl⟩)
    | none =>
        simp only [checkpoint, gated, not_true_eq_false, if_false, cached, if_true]
        split
        · exact .waiting phase _ _ _ _ _ atPhase gated cached
        · exact .waiting phase _ _ _ _ _ atPhase gated cached
  · simp only [checkpoint, gated, not_false_eq_true, if_true, if_false]
    exact execute_ends config draw atPhase (Or.inl ⟨gated, rfl, rfl⟩)

/-! ## What the end of the loop looks like -/

omit [DecidableEq γ] [DecidableEq τ] in
theorem Unlocked.view_eq {world unlocked : World ι γ τ} {i : ι} {current : WorkflowState}
    {phase : WorkflowPhase} {approval : Option Approval}
    (ready : Unlocked config world i current phase approval unlocked) (k : String) :
    unlocked.view k = world.view k := by
  rcases ready with ⟨_, _, rfl⟩ | ⟨_, _, _, rfl⟩
  · rfl
  · exact view_setCache k world i current.key none

variable {config}
variable {world ended : World ι γ τ} {i : ι} {task : τ} {call : Call} {current : WorkflowState}

theorem LoopEnds.view_own (ends : LoopEnds config world i task call current ended)
    (stored : (world.view current.key).row = some current) :
    ∃ written copy last, Writes current written copy ∧
      (current :: written).getLast? = some last ∧
      ended.view current.key =
        { row := some last
          copies := Function.update (world.view current.key).copies task copy
          saves := (world.view current.key).saves ++ written
          completions := (world.view current.key).completions
          starts := (world.view current.key).starts ++ startedBy task copy } := by
  cases ends with
  | completed exhausted =>
      refine ⟨[current.completed], none, current.completed,
        .finish rfl List.prefix_rfl fun _ => exhausted, rfl, ?_⟩
      rw [view_answer, view_save, if_pos (show current.completed.key = current.key from rfl)]
      simp [startedBy]
  | waiting phase request gateway approvalRequestId eventId result atPhase gated uncached =>
      refine ⟨[current.waiting phase request approvalRequestId eventId], none,
        current.waiting phase request approvalRequestId eventId,
        .finish rfl (List.prefix_append _ _) (fun status => nomatch status), rfl, ?_⟩
      rw [view_answer, view_save, if_pos (show (current.waiting phase request approvalRequestId
        eventId).key = current.key from rfl), view_setGateway]
      simp [startedBy]
  | refused phase approval unlocked gateway message eventId atPhase ready =>
      refine ⟨[current.failed phase message eventId], none, current.failed phase message eventId,
        .finish rfl (List.prefix_append _ _) (fun status => nomatch status), rfl, ?_⟩
      rw [fail, view_answer, view_save, if_pos (show (current.failed phase message eventId).key =
        current.key from rfl), view_setGateway, ready.view_eq]
      simp [startedBy]
  | executing phase approval unlocked gateway atPhase ready =>
      refine ⟨[], some ⟨i, call, current, phase⟩, current, .suspend rfl atPhase, rfl, ?_⟩
      rw [view_executing, if_pos rfl, view_setTask, view_setGateway, ready.view_eq]
      simp [startedBy, Task.frameOn, stored]

theorem LoopEnds.view_other (ends : LoopEnds config world i task call current ended)
    {k : String} (other : current.key ≠ k) :
    ended.view k = { world.view k with
      copies := Function.update (world.view k).copies task none } := by
  cases ends with
  | completed exhausted =>
      rw [view_answer, view_save, if_neg (show ¬ current.completed.key = k from other)]
  | waiting phase request gateway approvalRequestId eventId result atPhase gated uncached =>
      rw [view_answer, view_save, if_neg (show ¬ (current.waiting phase request
        approvalRequestId eventId).key = k from other), view_setGateway]
  | refused phase approval unlocked gateway message eventId atPhase ready =>
      rw [fail, view_answer, view_save, if_neg (show ¬ (current.failed phase message
        eventId).key = k from other), view_setGateway, ready.view_eq]
  | executing phase approval unlocked gateway atPhase ready =>
      rw [view_executing, if_neg other, view_setTask, view_setGateway, ready.view_eq]
      simp [Task.frameOn, other]

theorem begin_view_own (config : ι → EngineeringWorkflow γ) (world : World ι γ τ) (i : ι)
    (task : τ) (call : Call) (state : WorkflowState) (draw : Draw) :
    ∃ written copy last, Writes state written copy ∧ written.getLast? = some last ∧
      (world.begin config i task call state draw).view state.key =
        { row := some last
          copies := Function.update (world.view state.key).copies task copy
          saves := (world.view state.key).saves ++ written
          completions := (world.view state.key).completions
          starts := (world.view state.key).starts ++ startedBy task copy } := by
  have saved := view_save state.running.key world state.running
  rw [if_pos rfl] at saved
  have ends := loop_ends config (world.save state.running) i task call state.running draw
  obtain ⟨written, copy, last, writes, lastExact, after⟩ := ends.view_own (by rw [saved])
  refine ⟨state.running :: written, copy, last,
    .cons rfl List.prefix_rfl (fun status => nomatch status) writes, lastExact, ?_⟩
  refine after.trans ?_
  rw [saved]
  simp [show state.running.key = state.key from rfl]

theorem begin_view_other (config : ι → EngineeringWorkflow γ) (world : World ι γ τ) (i : ι)
    (task : τ) (call : Call) (state : WorkflowState) (draw : Draw) {k : String}
    (other : state.key ≠ k) :
    (world.begin config i task call state draw).view k = { world.view k with
      copies := Function.update (world.view k).copies task none } := by
  have ends := loop_ends config (world.save state.running) i task call state.running draw
  refine (ends.view_other other).trans ?_
  rw [view_save, if_neg (show ¬ state.running.key = k from other)]

/-! ## The calls -/

theorem run_cases (config : ι → EngineeringWorkflow γ) (world : World ι γ τ) (i : ι) (task : τ)
    (workflowId : String) (draw : Draw) :
    (∃ result, world.run config i task workflowId draw = world.answer task workflowId result) ∨
      ∃ state, world.store.load workflowId = some state ∧
        (state.status = .pending ∨ state.status = .running) ∧
        world.run config i task workflowId draw =
          world.begin config i task (.run workflowId) state draw := by
  unfold run
  split
  · exact Or.inl ⟨_, rfl⟩
  rename_i state found
  split
  · exact Or.inl ⟨_, rfl⟩
  · rename_i goesOn
    refine Or.inr ⟨state, found, ?_, rfl⟩
    cases status : state.status <;> simp_all

theorem resume_cases (config : ι → EngineeringWorkflow γ) (world : World ι γ τ) (i : ι)
    (task : τ) (workflowId : String) (approval : Option Approval) (draw : Draw) :
    (∃ result, world.resume config i task workflowId approval draw =
        world.answer task workflowId result) ∨
      ∃ state presented, world.store.load workflowId = some state ∧
        state.status = .waitingApproval ∧ approval = some presented ∧
        presented.status = .approved ∧
        state.approval.map WorkflowApproval.approvalRequestId = some presented.requestId ∧
        world.resume config i task workflowId approval draw =
          ((world.setCache i workflowId (some presented)).save
            (state.resumed presented draw.answerId)).begin config i task
              (.resume workflowId approval) (state.resumed presented draw.answerId) draw := by
  unfold resume
  split
  · exact Or.inl ⟨_, rfl⟩
  rename_i state found
  split
  · exact Or.inl ⟨_, rfl⟩
  rename_i waits
  split
  · exact Or.inl ⟨_, rfl⟩
  rename_i presented
  split
  · exact Or.inl ⟨_, rfl⟩
  rename_i approved
  split
  · exact Or.inl ⟨_, rfl⟩
  · rename_i matched
    exact Or.inr ⟨state, presented, found, not_not.mp waits, rfl, not_not.mp approved,
      not_not.mp matched, rfl⟩

/-! ## The step -/

def label (k : String) (world : World ι γ τ) : WorldEvent ι γ τ → LifecycleEvent τ
  | .start request => if request.id.str = k then .created else .other
  | .call task _ call _ => if call.workflowId = k then .called task else .other
  | .settle task outcome _ =>
      match (world.tasks task).frameOn k with
      | some _ => .settled task outcome
      | none => .other
  | .escalate workflowId _ _ => if workflowId = k then .escalated else .other
  | .environment _ _ => .other

inductive Labelled (k : String) (world : World ι γ τ) :
    WorldEvent ι γ τ → LifecycleEvent τ → Prop where
  | created (request : WorkflowRequest) (own : request.id.str = k) :
      Labelled k world (.start request) .created
  | called (task : τ) (i : ι) (call : Call) (draw : Draw) (own : call.workflowId = k) :
      Labelled k world (.call task i call draw) (.called task)
  | settled (task : τ) (outcome : Outcome) (draw : Draw) (frame : Frame ι)
      (suspended : world.tasks task = .suspended frame) (own : frame.current.key = k) :
      Labelled k world (.settle task outcome draw) (.settled task outcome)
  | escalated (reason : String) (draw : Draw) :
      Labelled k world (.escalate k reason draw) .escalated
  | other (event : WorldEvent ι γ τ) : Labelled k world event .other

omit [DecidableEq ι] [DecidableEq γ] [DecidableEq τ] in
theorem frameOn_eq_some_iff {k : String} {task : Task ι} {frame : Frame ι} :
    task.frameOn k = some frame ↔ task = .suspended frame ∧ frame.current.key = k := by
  cases task with
  | fresh => simp [Task.frameOn]
  | done => simp [Task.frameOn]
  | suspended other =>
      by_cases own : other.current.key = k
      · simp only [Task.frameOn, own, if_true, Option.some.injEq, Task.suspended.injEq]
        constructor
        · intro same
          exact ⟨same, same ▸ own⟩
        · intro same
          exact same.1
      · simp only [Task.frameOn, own, if_false, reduceCtorEq, Task.suspended.injEq, false_iff]
        intro ⟨same, key⟩
        exact own (same ▸ key)

omit [DecidableEq ι] [DecidableEq γ] [DecidableEq τ] in
theorem label_labelled (k : String) (world : World ι γ τ) (event : WorldEvent ι γ τ) :
    Labelled k world event (world.label k event) := by
  cases event with
  | start request =>
      simp only [label]
      split
      · exact .created request ‹_›
      · exact .other _
  | call task i call draw =>
      simp only [label]
      split
      · exact .called task i call draw ‹_›
      · exact .other _
  | settle task outcome draw =>
      simp only [label]
      cases found : (world.tasks task).frameOn k with
      | none => exact .other _
      | some frame =>
          obtain ⟨suspended, own⟩ := frameOn_eq_some_iff.mp found
          exact .settled task outcome draw frame suspended own
  | escalate workflowId reason draw =>
      simp only [label]
      split
      · rename_i own
        subst own
        exact .escalated reason draw
      · exact .other _
  | environment g gateway => exact .other _

omit [DecidableEq ι] [DecidableEq γ] [DecidableEq τ] in
theorem label_eq_escalated {k : String} {world : World ι γ τ} {event : WorldEvent ι γ τ}
    (labelled : world.label k event = .escalated) :
    ∃ reason draw, event = .escalate k reason draw := by
  have own := label_labelled k world event
  rw [labelled] at own
  cases own with
  | escalated reason draw => exact ⟨reason, draw, rfl⟩

omit [DecidableEq ι] [DecidableEq γ] in
theorem start_lifecycle (k : String) (world : World ι γ τ) (request : WorkflowRequest) :
    LifecycleStep (world.view k) (if request.id.str = k then .created else .other)
      ((world.start request).view k) := by
  rw [start, view_save]
  by_cases own : request.id.str = k
  · rw [if_pos own, if_pos (show WorkflowState.key { request := request } = k from own)]
    exact .created _ _ rfl fun status => nomatch status
  · rw [if_neg own, if_neg (show ¬ WorkflowState.key { request := request } = k from own)]
    exact .other _

omit [DecidableEq ι] [DecidableEq γ] in
theorem escalate_lifecycle (k : String) (world : World ι γ τ) (workflowId reason : String)
    (draw : Draw) :
    LifecycleStep (world.view k) (if workflowId = k then .escalated else .other)
      ((world.escalate workflowId reason draw).view k) := by
  unfold escalate
  cases found : world.store.load workflowId with
  | none =>
      rw [view_answered]
      by_cases own : workflowId = k
      · subst own
        rw [if_pos rfl]
        exact .notEscalated _ found
      · rw [if_neg own]
        exact .other _
  | some state =>
      have keyed := WorkflowStore.load_key found
      rw [view_answered, view_save]
      by_cases own : workflowId = k
      · subst own
        rw [if_pos rfl, if_pos (show (state.escalated reason draw.eventId).key = workflowId
          from keyed)]
        exact .escalated _ state _ found rfl rfl (List.prefix_append _ _)
      · rw [if_neg own, if_neg (show ¬ (state.escalated reason draw.eventId).key = k from
          fun same => own (keyed.symm.trans same))]
        exact .other _

omit [DecidableEq ι] [DecidableEq γ] in
theorem answer_lifecycle (k : String) (world : World ι γ τ) (task : τ) (workflowId : String)
    (result : Except WorkflowError WorkflowReport) (free : world.tasks task = .fresh) :
    LifecycleStep (world.view k) (if workflowId = k then .called task else .other)
      ((world.answer task workflowId result).view k) := by
  have idle : (world.view k).copies task = none := by simp [view, free, Task.frameOn]
  have unchanged : (world.answer task workflowId result).view k = world.view k := by
    rw [view_answer, ← idle, Function.update_eq_self]
  rw [unchanged]
  by_cases own : workflowId = k
  · rw [if_pos own]
    exact .reported _ task idle
  · rw [if_neg own]
    exact .other _

theorem begin_lifecycle_other (config : ι → EngineeringWorkflow γ) (k : String)
    (world saved : World ι γ τ) (i : ι) (task : τ) (call : Call) (state : WorkflowState)
    (draw : Draw) (free : world.tasks task = .fresh) (same : saved.view k = world.view k)
    (other : state.key ≠ k) :
    LifecycleStep (world.view k) .other ((saved.begin config i task call state draw).view k) := by
  have idle : (world.view k).copies task = none := by simp [view, free, Task.frameOn]
  rw [begin_view_other config saved i task call state draw other, same, ← idle,
    Function.update_eq_self]
  exact .other _

theorem run_lifecycle (config : ι → EngineeringWorkflow γ) (k : String) (world : World ι γ τ)
    (i : ι) (task : τ) (workflowId : String) (draw : Draw) (free : world.tasks task = .fresh) :
    LifecycleStep (world.view k) (if workflowId = k then .called task else .other)
      ((world.run config i task workflowId draw).view k) := by
  rcases world.run_cases config i task workflowId draw with
    ⟨result, answered⟩ | ⟨state, found, resumable, begun⟩
  · rw [answered]
    exact answer_lifecycle k world task workflowId result free
  have keyed := WorkflowStore.load_key found
  rw [begun]
  by_cases own : workflowId = k
  · subst own
    obtain ⟨written, copy, last, writes, lastExact, after⟩ :=
      begin_view_own config world i task (.run workflowId) state draw
    rw [keyed] at after
    rw [if_pos rfl, after]
    exact .called _ task state last written copy (by simp [view, free, Task.frameOn]) found
      (resumable.imp id Or.inl) lastExact writes
  · rw [if_neg own]
    exact begin_lifecycle_other config k world world i task _ state draw free rfl
      fun same => own (keyed.symm.trans same)

theorem resume_lifecycle (config : ι → EngineeringWorkflow γ) (k : String) (world : World ι γ τ)
    (i : ι) (task : τ) (workflowId : String) (approval : Option Approval) (draw : Draw)
    (free : world.tasks task = .fresh) :
    LifecycleStep (world.view k) (if workflowId = k then .called task else .other)
      ((world.resume config i task workflowId approval draw).view k) := by
  rcases world.resume_cases config i task workflowId approval draw with
    ⟨result, answered⟩ | ⟨state, presented, found, waits, _, _, _, begun⟩
  · rw [answered]
    exact answer_lifecycle k world task workflowId result free
  have stored := WorkflowStore.load_key found
  have keyed : (state.resumed presented draw.answerId).key = workflowId := stored
  rw [begun]
  by_cases own : workflowId = k
  · subst own
    obtain ⟨written, copy, last, writes, lastExact, after⟩ := begin_view_own config
      ((world.setCache i workflowId (some presented)).save
        (state.resumed presented draw.answerId)) i task (.resume workflowId approval)
      (state.resumed presented draw.answerId) draw
    rw [keyed] at after
    rw [if_pos rfl, after, view_save, if_pos keyed, view_setCache, List.append_assoc]
    refine .called _ task state last (state.resumed presented draw.answerId :: written) copy
      (by simp [view, free, Task.frameOn]) found (Or.inr (Or.inr waits)) ?_
      (.cons rfl (List.prefix_append _ _) (fun status => nomatch status) writes)
    simp [List.getLast?_cons, lastExact]
  · have elsewhere : (state.resumed presented draw.answerId).key ≠ k :=
      fun same => own (keyed.symm.trans same)
    rw [if_neg own]
    refine begin_lifecycle_other config k world _ i task _ _ draw free ?_ elsewhere
    rw [view_save, if_neg elsewhere, view_setCache]

omit [DecidableEq ι] [DecidableEq τ] in
theorem completeAction_ok (config : ι → EngineeringWorkflow γ) (world : World ι γ τ)
    (frame : Frame ι) (result : String) (failure : Option String) (draw : Draw) :
    ∃ gateway, world.completeAction config frame result failure draw =
      (world.setGateway (config frame.runner).security gateway, .ok ()) := by
  have accepted := (SecurityGateway.complete_isOk_iff
    (world.gateways (config frame.runner).security)
    ((config frame.runner).action frame.current frame.phase) result failure 0 0
    draw.completion).mpr ⟨le_rfl, le_rfl⟩
  unfold completeAction
  exact ⟨_, by rw [← accepted]⟩

/-! What `settle` does for each outcome: the gateway records it first, and then the call goes
on, raises or fails. -/

section Settle
variable (config : ι → EngineeringWorkflow γ) (world : World ι γ τ) (task : τ) (frame : Frame ι)

theorem settle_returned (event : WorkflowEvent) (draw : Draw) :
    ∃ gateway, world.settle config task frame (.returned event) draw =
      ((world.setGateway (config frame.runner).security gateway).save
        (frame.current.advance event)).loop config frame.runner task frame.call
          (frame.current.advance event) draw := by
  obtain ⟨gateway, completed⟩ := world.completeAction_ok config frame "success" none draw
  refine ⟨gateway, ?_⟩
  simp only [settle, completed]

theorem settle_escalated (message : String) (draw : Draw) :
    ∃ gateway, world.settle config task frame (.escalated message) draw =
      (world.setGateway (config frame.runner).security gateway).answer task
        frame.call.workflowId (.error (.escalation message)) := by
  obtain ⟨gateway, completed⟩ :=
    world.completeAction_ok config frame "failure" (some message) draw
  refine ⟨gateway, ?_⟩
  simp only [settle, completed]

theorem settle_raised (message : String) (draw : Draw) :
    ∃ gateway, world.settle config task frame (.raised message) draw =
      (world.setGateway (config frame.runner).security gateway).fail task frame.call
        frame.current frame.phase message draw.eventId := by
  obtain ⟨gateway, completed⟩ :=
    world.completeAction_ok config frame "failure" (some message) draw
  refine ⟨gateway, ?_⟩
  simp only [settle, completed]

end Settle

theorem settle_view_other (config : ι → EngineeringWorkflow γ) (world : World ι γ τ) (task : τ)
    (frame : Frame ι) (outcome : Outcome) (draw : Draw) {k : String}
    (other : frame.current.key ≠ k) :
    (world.settle config task frame outcome draw).view k = { world.view k with
      copies := Function.update (world.view k).copies task none } := by
  cases outcome with
  | returned event =>
      obtain ⟨gateway, behind⟩ := settle_returned config world task frame event draw
      have ends := loop_ends config
        ((world.setGateway (config frame.runner).security gateway).save
          (frame.current.advance event)) frame.runner task frame.call
        (frame.current.advance event) draw
      rw [behind]
      refine (ends.view_other other).trans ?_
      rw [view_save, if_neg (show ¬ (frame.current.advance event).key = k from other),
        view_setGateway]
  | escalated message =>
      obtain ⟨gateway, behind⟩ := settle_escalated config world task frame message draw
      rw [behind, view_answer, view_setGateway]
  | raised message =>
      obtain ⟨gateway, behind⟩ := settle_raised config world task frame message draw
      rw [behind, fail, view_answer]
      rw [view_save, if_neg (show ¬ (frame.current.failed frame.phase message draw.eventId).key = k
        from other), view_setGateway]
  | cancelled => simp only [settle, view_answer]

theorem settle_lifecycle (config : ι → EngineeringWorkflow γ) (world : World ι γ τ) (task : τ)
    (frame : Frame ι) (outcome : Outcome) (draw : Draw)
    (suspended : world.tasks task = .suspended frame) :
    LifecycleStep (world.view frame.current.key) (.settled task outcome)
      (((world.emit (.settled task frame.phase frame.current outcome)).settle config task frame
        outcome draw).view frame.current.key) := by
  have copied : (world.view frame.current.key).copies task = some frame := by
    simp [view, suspended, Task.frameOn]
  cases outcome with
  | returned event =>
      obtain ⟨gateway, behind⟩ := settle_returned config
        (world.emit (.settled task frame.phase frame.current (.returned event)))
        task frame event draw
      have ends := loop_ends config
        (((world.emit (.settled task frame.phase frame.current (.returned event))).setGateway
          (config frame.runner).security gateway).save (frame.current.advance event))
        frame.runner task frame.call (frame.current.advance event) draw
      have saved := view_save frame.current.key
        ((world.emit (.settled task frame.phase frame.current (.returned event))).setGateway
          (config frame.runner).security gateway) (frame.current.advance event)
      rw [if_pos (show (frame.current.advance event).key = frame.current.key from rfl),
        view_setGateway, view_returned] at saved
      obtain ⟨written, copy, last, writes, lastExact, after⟩ := ends.view_own (by
        rw [show (frame.current.advance event).key = frame.current.key from rfl, saved])
      rw [show (frame.current.advance event).key = frame.current.key from rfl, saved] at after
      rw [behind]
      rw [after, List.append_assoc]
      exact .returned _ task event frame last written copy copied lastExact writes
  | escalated message =>
      obtain ⟨gateway, behind⟩ := settle_escalated config
        (world.emit (.settled task frame.phase frame.current (.escalated message)))
        task frame message draw
      rw [behind, view_answer, view_setGateway]
      rw [view_emit _ _ rfl rfl rfl]
      exact .stopped _ task _ frame copied (Or.inl ⟨message, rfl⟩)
  | raised message =>
      obtain ⟨gateway, behind⟩ := settle_raised config
        (world.emit (.settled task frame.phase frame.current (.raised message)))
        task frame message draw
      rw [behind, fail, view_answer]
      rw [view_save, if_pos (show (frame.current.failed frame.phase message draw.eventId).key =
        frame.current.key from rfl), view_setGateway,
        view_emit _ _ rfl rfl rfl]
      exact .raised _ task message frame _ copied rfl rfl (List.prefix_append _ _)
  | cancelled =>
      simp only [settle, view_answer]
      rw [view_emit _ _ rfl rfl rfl]
      exact .stopped _ task _ frame copied (Or.inr rfl)

/-- The world refines the life of every workflow. -/
theorem step_lifecycle (config : ι → EngineeringWorkflow γ) (k : String)
    {world next : World ι γ τ} {event : WorldEvent ι γ τ}
    (fired : worldStep config world event next) :
    LifecycleStep (world.view k) (world.label k event) (next.view k) := by
  cases event with
  | start request =>
      obtain rfl := Option.some.inj fired
      exact start_lifecycle k world request
  | call task i call draw =>
      obtain ⟨free, rfl⟩ := worldStep_call.mp fired
      cases call with
      | run workflowId => exact run_lifecycle config k world i task workflowId draw free
      | resume workflowId approval =>
          exact resume_lifecycle config k world i task workflowId approval draw free
  | settle task outcome draw =>
      obtain ⟨frame, suspended, rfl⟩ := worldStep_settle.mp fired
      by_cases own : frame.current.key = k
      · subst own
        have labelled : world.label frame.current.key (.settle task outcome draw) =
            .settled task outcome := by simp [label, suspended, Task.frameOn]
        rw [labelled]
        exact settle_lifecycle config world task frame outcome draw suspended
      · have labelled : world.label k (.settle task outcome draw) = .other := by
          simp [label, suspended, Task.frameOn, own]
        have idle : (world.view k).copies task = none := by
          simp [view, suspended, Task.frameOn, own]
        have emitted : (world.emit (.settled task frame.phase frame.current outcome)).view k =
            world.view k := by
          apply view_emit k world rfl _ rfl
          cases outcome <;> simp [Effect.completion, own]
        rw [labelled, settle_view_other config _ task frame outcome draw own, emitted, ← idle,
          Function.update_eq_self]
        exact .other _
  | escalate workflowId reason draw =>
      obtain rfl := Option.some.inj fired
      exact escalate_lifecycle k world workflowId reason draw
  | environment g gateway =>
      obtain rfl := Option.some.inj fired
      exact .other _

end Updates
end World
end Eis.Workflows
