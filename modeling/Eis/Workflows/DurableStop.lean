import Eis.Workflows.Checkpoints
import Eis.Workflows.Escalation

/-!
# Escalations that operations raise

`escalate` persists what a human decides.  A `WorkflowEscalation` that an operation
raises passes through the loop, and the row stays as the loop has written it: the
next run calls the operation again wherever some instance may run the phase.
-/

set_option autoImplicit false

namespace Eis.Workflows

open Eis.Security Transition

variable {ι γ τ : Type}

instance Task.decidableFresh (task : Task ι) : Decidable (task = .fresh) :=
  match task with
  | .fresh => isTrue rfl
  | .suspended _ => isFalse nofun
  | .done => isFalse nofun

namespace EngineeringWorkflow

/-- Some gateway lets the operation of the phase through with this approval. -/
def Passable (workflow : EngineeringWorkflow γ) (phase : WorkflowPhase)
    (approval : Option Approval) : Prop :=
  if phase = .implement then Approved approval
  else workflow.principal.authenticated = true

theorem action_highRisk_iff (workflow : EngineeringWorkflow γ) (state : WorkflowState)
    (phase : WorkflowPhase) :
    (workflow.action state phase).HighRisk ↔ phase = .implement := by
  unfold ActionRequest.HighRisk action
  by_cases implements : phase = .implement
  · simp [implements]
  · simp [implements, highRiskActions]

theorem passable_of_cleared {workflow : EngineeringWorkflow γ} {state : WorkflowState}
    {phase : WorkflowPhase} {approval : Option Approval} {gateway : SecurityGateway}
    (cleared : gateway.Cleared (workflow.action state phase) approval) :
    workflow.Passable phase approval := by
  unfold SecurityGateway.Cleared at cleared
  unfold Passable
  by_cases implements : phase = .implement
  · rw [if_pos ((workflow.action_highRisk_iff state phase).mpr implements)] at cleared
    rw [if_pos implements]
    exact cleared
  · rw [if_neg (mt (workflow.action_highRisk_iff state phase).mp implements)] at cleared
    rw [if_neg implements]
    exact ((RoleAuthorizer.authorizeWith_allowed_iff fnmatch gateway.authorizer _).mp
      cleared).authenticated

def permissive : SecurityGateway where
  authorizer :=
    { roles := fun roleName => some
        { name := roleName
          permissions :=
            [{ action := "read", resource := "*" }, { action := "write", resource := "*" }] }
      principals := fun principal => some { id := principal, roles := ["operator"] } }

theorem permissive_withinLimits (workflow : EngineeringWorkflow γ) (state : WorkflowState)
    (phase : WorkflowPhase) (reading : Reading) :
    permissive.WithinLimits (workflow.action state phase) reading := by
  have rate : ¬ permissive.governance.limits.maxActionsPerWindow ≤
      ((permissive.governance.prune reading.monotonic).actions.length : ℤ) :=
    (by decide : ¬ (60 : ℤ) ≤ 0)
  have cost : ¬ ((0 : ℚ) < 0 ∨ (100 : ℚ) < 0 + 0) := by decide +kernel
  have seconds : ¬ ((0 : ℚ) < 0 ∨ (600 : ℚ) < 0 + 0) := by decide +kernel
  unfold SecurityGateway.WithinLimits GovernanceGuard.check
  rw [if_neg rate]
  exact (if_neg cost).trans (if_neg seconds)

theorem permissive_prepares {workflow : EngineeringWorkflow γ} {phase : WorkflowPhase}
    {approval : Option Approval} (passable : workflow.Passable phase approval)
    (state : WorkflowState) (reading : Reading) :
    ∃ decision, (permissive.prepare (workflow.action state phase) approval reading).2 =
      .ok decision := by
  apply (SecurityGateway.prepare_isOk_iff _ _ _ _).mpr
  constructor
  · unfold Passable at passable
    unfold SecurityGateway.Cleared
    by_cases implements : phase = .implement
    · rw [if_pos implements] at passable
      rw [if_pos ((workflow.action_highRisk_iff state phase).mpr implements)]
      exact passable
    · rw [if_neg implements] at passable
      rw [if_neg (mt (workflow.action_highRisk_iff state phase).mp implements)]
      refine (RoleAuthorizer.authorizeWith_allowed_iff fnmatch permissive.authorizer _).mpr
        { authenticated := passable
          rolesKnown := ?rolesKnown
          granted := ?granted
          unrestricted := ?unrestricted }
      case rolesKnown =>
        intro roleName claimed
        exact ⟨_, rfl⟩
      case granted =>
        refine ⟨{ action := "read", resource := "*" }, ?_, Or.inr ⟨"operator", ?_, _, rfl, ?_⟩⟩
        · simp [RoleAuthorizer.grants, action, ActionRequest.authorizationRequest, implements,
            fnmatch_star]
        · exact List.mem_singleton_self _
        · exact List.mem_cons_self
      case unrestricted =>
        intro restriction listed
        cases listed
  · exact permissive_withinLimits workflow state phase reading

end EngineeringWorkflow

namespace World

/-- No human acts on the workflow, and no operation of it that is in flight ends. -/
def Unattended (k : String) (world : World ι γ τ) : WorldEvent ι γ τ → Prop
  | .start request => request.id.str ≠ k
  | .call _ _ (.run _) _ => True
  | .call _ _ (.resume workflowId approval) _ => workflowId = k → approval = none
  | .settle task _ _ => (world.tasks task).frameOn k = none
  | .escalate _ _ _ => True
  | .environment _ _ => True

section Ready
variable (config : ι → EngineeringWorkflow γ)

/-- The instance reaches the operation of the state's phase through some gateway,
with the approval that it has cached where the phase needs one. -/
def Ready (world : World ι γ τ) (i : ι) (current : WorkflowState) : Prop :=
  ∃ phase, current.phase = some phase ∧
    if phase ∈ (config i).approvalPhases then
      ∃ approval, world.approvalCache i current.key = some approval ∧
        (config i).Passable phase (some approval)
    else (config i).Passable phase none

/-- A run of the instance goes on with the stored row and is ready for its phase. -/
def Runnable (world : World ι γ τ) (i : ι) (k : String) : Prop :=
  ∃ row, world.store.load k = some row ∧ (row.status = .pending ∨ row.status = .running) ∧
    world.Ready config i row

end Ready

section Step
variable [DecidableEq ι] [DecidableEq γ] [DecidableEq τ]
variable {config : ι → EngineeringWorkflow γ} {k : String} {world next : World ι γ τ}

variable (config) in
/-- However the world goes on without a human, no call executes an operation of the
workflow. -/
def DurablyStopped (world : World ι γ τ) (k : String) : Prop :=
  ∀ events later, Run (Guarded (Unattended k) (worldStep config)) world events later →
    later.startedOperations k = world.startedOperations k

omit [DecidableEq ι] [DecidableEq γ] [DecidableEq τ] in
theorem Runnable.congr {i : ι} (store : next.store.load k = world.store.load k)
    (cache : ∀ j, next.approvalCache j k = world.approvalCache j k)
    (runnable : Runnable config next i k) : Runnable config world i k := by
  obtain ⟨row, stored, goesOn, phase, atPhase, passes⟩ := runnable
  rw [store] at stored
  have keyed := WorkflowStore.load_key stored
  rw [keyed, cache i] at passes
  refine ⟨row, stored, goesOn, phase, atPhase, ?_⟩
  rw [keyed]
  exact passes

/-! ## The loop calls an operation only when it is ready -/

omit [DecidableEq ι] in
theorem execute_passable {i : ι} {task : τ} {call : Call} {current : WorkflowState}
    {phase : WorkflowPhase} {approval : Option Approval} {draw : Draw} {frame : Frame ι}
    (suspended : (world.execute config i task call current phase approval draw).tasks task =
      .suspended frame) : (config i).Passable phase approval := by
  unfold execute at suspended
  split at suspended
  · simp [fail, answer, emit, setTask] at suspended
  · rename_i gateway decision prepared
    have passed := (SecurityGateway.prepare_isOk_iff _ _ _ _).mp
      ⟨decision, congrArg Prod.snd prepared⟩
    exact EngineeringWorkflow.passable_of_cleared passed.1

theorem loop_ready {i : ι} {task : τ} {call : Call} {current : WorkflowState} {draw : Draw}
    {frame : Frame ι}
    (suspended : (world.loop config i task call current draw).tasks task = .suspended frame) :
    world.Ready config i current := by
  unfold loop at suspended
  split at suspended
  · simp [answer, emit, setTask] at suspended
  rename_i phase atPhase
  refine ⟨phase, atPhase, ?_⟩
  by_cases gated : phase ∈ (config i).approvalPhases
  · rw [if_pos gated]
    cases cached : world.approvalCache i current.key with
    | some approval =>
        simp only [checkpoint, gated, not_true_eq_false, if_false, cached] at suspended
        exact ⟨approval, rfl, execute_passable suspended⟩
    | none =>
        simp only [checkpoint, gated, not_true_eq_false, if_false, cached, if_true] at suspended
        split at suspended
        · simp [answer, emit, setTask] at suspended
        · simp [answer, emit, setTask] at suspended
  · rw [if_neg gated]
    simp only [checkpoint, gated, not_false_eq_true, if_true, if_false] at suspended
    exact execute_passable suspended

/-! ## What other workflows leave alone -/

omit [DecidableEq γ] [DecidableEq τ] in
theorem setCache_other (world : World ι γ τ) {i : ι} {workflowId : String}
    (other : workflowId ≠ k) (cached : Option Approval) (j : ι) :
    (world.setCache i workflowId cached).approvalCache j k = world.approvalCache j k := by
  by_cases runner : j = i
  · subst runner
    simp [setCache, other.symm]
  · simp [setCache, runner]

omit [DecidableEq ι] [DecidableEq γ] [DecidableEq τ] in
theorem save_approvalCache (world : World ι γ τ) (state : WorkflowState) :
    (world.save state).approvalCache = world.approvalCache := rfl

theorem LoopEnds.cache_other {ended : World ι γ τ} {i : ι} {task : τ} {call : Call}
    {current : WorkflowState} (ends : LoopEnds config world i task call current ended)
    (other : current.key ≠ k) (j : ι) : ended.approvalCache j k = world.approvalCache j k := by
  have unlock : ∀ {phase approval unlocked},
      Unlocked config world i current phase approval unlocked →
        unlocked.approvalCache j k = world.approvalCache j k := by
    rintro phase approval unlocked (⟨_, _, rfl⟩ | ⟨_, _, _, rfl⟩)
    · rfl
    · exact setCache_other world other none j
  cases ends with
  | completed exhausted => rfl
  | waiting phase request gateway approvalRequestId eventId result atPhase gated uncached => rfl
  | refused phase approval unlocked gateway message eventId atPhase ready =>
      have kept := unlock ready
      exact kept
  | executing phase approval unlocked gateway atPhase ready =>
      have kept := unlock ready
      exact kept

theorem settle_cache_other (world : World ι γ τ) {task : τ} (frame : Frame ι)
    {outcome : Outcome} {draw : Draw} (other : frame.current.key ≠ k) (j : ι) :
    (world.settle config task frame outcome draw).approvalCache j k =
      world.approvalCache j k := by
  cases outcome with
  | returned event =>
      obtain ⟨gateway, behind⟩ := settle_returned config world task frame event draw
      rw [behind]
      have ends := loop_ends config ((world.setGateway (config frame.runner).security
        gateway).save (frame.current.advance event)) frame.runner task frame.call
        (frame.current.advance event) draw
      have kept := ends.cache_other other j
      exact kept
  | escalated message =>
      obtain ⟨gateway, behind⟩ := settle_escalated config world task frame message draw
      rw [behind]
      rfl
  | raised message =>
      obtain ⟨gateway, behind⟩ := settle_raised config world task frame message draw
      rw [behind]
      rfl
  | cancelled => rfl

theorem begin_cache_other (world : World ι γ τ) {i : ι} {task : τ} {call : Call}
    {state : WorkflowState} {draw : Draw} (other : state.key ≠ k) (j : ι) :
    (world.begin config i task call state draw).approvalCache j k = world.approvalCache j k :=
  (loop_ends config (world.save state.running) i task call state.running draw).cache_other
    other j

theorem run_cache_other (world : World ι γ τ) (i : ι) (task : τ) {workflowId : String}
    (other : workflowId ≠ k) (draw : Draw) (j : ι) :
    (world.run config i task workflowId draw).approvalCache j k = world.approvalCache j k := by
  rcases world.run_cases config i task workflowId draw with
    ⟨result, answered⟩ | ⟨state, found, _, begun⟩
  · rw [answered]
    rfl
  · rw [begun]
    exact begin_cache_other world (WorkflowStore.load_key found ▸ other) j

theorem resume_cache_other (world : World ι γ τ) (i : ι) (task : τ) {workflowId : String}
    (other : workflowId ≠ k) (approval : Option Approval) (draw : Draw) (j : ι) :
    (world.resume config i task workflowId approval draw).approvalCache j k =
      world.approvalCache j k := by
  rcases world.resume_cases config i task workflowId approval draw with
    ⟨result, answered⟩ | ⟨state, presented, found, _, _, _, _, begun⟩
  · rw [answered]
    rfl
  · have keyed : (state.resumed presented draw.answerId).key = workflowId :=
      (WorkflowStore.load_key found : state.key = workflowId)
    rw [begun, begin_cache_other _ (keyed ▸ other), save_approvalCache]
    exact setCache_other world other (some presented) j

theorem cache_step {event : WorldEvent ι γ τ} (other : world.label k event = .other)
    (fired : worldStep config world event next) (j : ι) :
    next.approvalCache j k = world.approvalCache j k := by
  cases event with
  | start request =>
      obtain rfl := Option.some.inj fired
      rfl
  | call task i call draw =>
      obtain ⟨free, rfl⟩ := worldStep_call.mp fired
      have elsewhere : call.workflowId ≠ k := by
        intro own
        simp [label, own] at other
      cases call with
      | run workflowId => exact run_cache_other world i task elsewhere draw j
      | resume workflowId approval =>
          exact resume_cache_other world i task elsewhere approval draw j
  | settle task outcome draw =>
      obtain ⟨frame, suspended, rfl⟩ := worldStep_settle.mp fired
      have elsewhere : frame.current.key ≠ k := by
        intro own
        simp [label, suspended, Task.frameOn, own] at other
      rw [settle_cache_other _ frame elsewhere]
      rfl
  | escalate workflowId reason draw =>
      obtain rfl := Option.some.inj fired
      unfold escalate
      split <;> rfl
  | environment g gateway =>
      obtain rfl := Option.some.inj fired
      rfl

/-! ## A workflow that no instance may run -/

def Resting (world : World ι γ τ) (k : String) : Prop :=
  ∃ row, world.store.load k = some row ∧ row.status ≠ .pending ∧ row.status ≠ .running

omit [DecidableEq ι] [DecidableEq γ] [DecidableEq τ] in
theorem Resting.not_runnable (resting : world.Resting k) (i : ι) :
    ¬ Runnable config world i k := by
  obtain ⟨row, stored, notPending, notRunning⟩ := resting
  intro ⟨other, found, goesOn, _⟩
  obtain rfl := Option.some.inj (stored.symm.trans found)
  exact goesOn.elim notPending notRunning

theorem loop_rests {i : ι} {current : WorkflowState} (task : τ) (call : Call) (draw : Draw)
    (unready : ¬ world.Ready config i current) :
    (world.loop config i task call current draw).Resting current.key ∧
      (world.loop config i task call current draw).startedOperations current.key =
        world.startedOperations current.key := by
  have unsuspended : ∀ frame,
      (world.loop config i task call current draw).tasks task ≠ .suspended frame := by
    intro frame suspended
    exact unready (loop_ready suspended)
  have ends := loop_ends config world i task call current draw
  generalize world.loop config i task call current draw = ended at unsuspended ends ⊢
  have rests : ∀ (before : World ι γ τ) (state : WorkflowState) result,
      before.view current.key = world.view current.key → state.key = current.key →
      state.status ≠ .pending → state.status ≠ .running →
      ((before.save state).answer task call.workflowId result).Resting current.key ∧
        ((before.save state).answer task call.workflowId result).startedOperations current.key =
          world.startedOperations current.key := by
    intro before state result same keyed notPending notRunning
    have written : ((before.save state).answer task call.workflowId result).view current.key =
        { before.view current.key with
          row := some state
          copies := Function.update (before.view current.key).copies task none
          saves := (before.view current.key).saves ++ [state] } := by
      rw [view_answer, view_save, if_pos keyed]
    exact ⟨⟨state, congrArg Lifecycle.row written, notPending, notRunning⟩,
      (congrArg Lifecycle.starts written).trans (congrArg Lifecycle.starts same)⟩
  cases ends with
  | completed exhausted => exact rests world _ _ rfl rfl nofun nofun
  | waiting phase request gateway approvalRequestId eventId result atPhase gated uncached =>
      exact rests _ _ _ (view_setGateway _ _ _ _) rfl nofun nofun
  | refused phase approval unlocked gateway message eventId atPhase ready =>
      refine rests _ _ _ ?_ rfl nofun nofun
      rw [view_setGateway, ready.view_eq]
  | executing phase approval unlocked gateway atPhase ready =>
      exact absurd (by simp [emit, setTask]) (unsuspended ⟨i, call, current, phase⟩)

theorem run_stalled {i : ι} {task : τ} {draw : Draw} (stalled : ∀ j, ¬ Runnable config world j k) :
    (∀ j, ¬ Runnable config (world.run config i task k draw) j k) ∧
      (world.run config i task k draw).startedOperations k = world.startedOperations k := by
  rcases world.run_cases config i task k draw with
    ⟨result, answered⟩ | ⟨state, found, goesOn, begun⟩
  · rw [answered]
    refine ⟨?_, congrArg Lifecycle.starts (view_answer k world task k result)⟩
    intro j runnable
    exact stalled j (runnable.congr rfl fun _ => rfl)
  · have keyed := WorkflowStore.load_key found
    have unready : ¬ (world.save state.running).Ready config i state.running := by
      intro ready
      exact stalled i ⟨state, found, goesOn, ready⟩
    have rested := loop_rests task (.run k) draw unready
    rw [show state.running.key = k from keyed] at rested
    rw [begun]
    refine ⟨rested.1.not_runnable, rested.2.trans ?_⟩
    have saved := view_save k world state.running
    rw [if_pos (show state.running.key = k from keyed)] at saved
    exact congrArg Lifecycle.starts saved

/-- As long as no human acts, a workflow that no instance may run stays so, and none
of its operations is called. -/
theorem stalled_step {event : WorldEvent ι γ τ} (stalled : ∀ i, ¬ Runnable config world i k)
    (unattended : world.Unattended k event) (fired : worldStep config world event next) :
    (∀ i, ¬ Runnable config next i k) ∧
      next.startedOperations k = world.startedOperations k := by
  have labelled := label_labelled k world event
  have lived := step_lifecycle config k fired
  have cached := fun other => cache_step (k := k) other fired
  generalize world.label k event = own at labelled lived cached
  cases labelled with
  | created request named => exact absurd named unattended
  | settled task outcome draw frame suspended named =>
      have idle : (world.tasks task).frameOn k = none := unattended
      rw [frameOn_eq_some_iff.mpr ⟨suspended, named⟩] at idle
      cases idle
  | called task i call draw named =>
      obtain ⟨free, rfl⟩ := worldStep_call.mp fired
      cases call with
      | run workflowId =>
          obtain rfl : workflowId = k := named
          exact run_stalled stalled
      | resume workflowId approval =>
          obtain rfl : workflowId = k := named
          obtain rfl : approval = none := unattended rfl
          rcases world.resume_cases config i task workflowId none draw with
            ⟨result, answered⟩ | ⟨state, presented, _, _, given, _⟩
          · have same : world.invoke config i task (.resume workflowId none) draw =
                world.answer task workflowId result := answered
            rw [same]
            refine ⟨?_, congrArg Lifecycle.starts (view_answer workflowId world task _ result)⟩
            intro j runnable
            exact stalled j (runnable.congr rfl fun _ => rfl)
          · cases given
  | escalated reason draw =>
      generalize before : world.view k = life at lived
      generalize after : next.view k = later at lived
      cases lived with
      | escalated row state stored status index grows =>
          refine ⟨Resting.not_runnable ⟨state, congrArg Lifecycle.row after, ?_, ?_⟩,
            (congrArg Lifecycle.starts after).trans (congrArg Lifecycle.starts before).symm⟩
          · simp [status]
          · simp [status]
      | notEscalated absent =>
          have missing : next.store.load k = none :=
            (congrArg Lifecycle.row after).trans absent
          refine ⟨?_, (congrArg Lifecycle.starts after).trans
            (congrArg Lifecycle.starts before).symm⟩
          intro j ⟨row, stored, _⟩
          rw [missing] at stored
          cases stored
  | other event =>
      generalize before : world.view k = life at lived
      generalize after : next.view k = later at lived
      cases lived with
      | other =>
          have same : next.view k = world.view k := after.trans before.symm
          refine ⟨?_, congrArg Lifecycle.starts same⟩
          intro j runnable
          exact stalled j (runnable.congr (congrArg Lifecycle.row same) (cached rfl))

theorem durablyStopped_of_stalled (stalled : ∀ i, ¬ Runnable config world i k) :
    DurablyStopped config world k := by
  intro events later run
  have kept : (∀ i, ¬ Runnable config later i k) ∧
      later.startedOperations k = world.startedOperations k := by
    refine run.invariant (motive := fun now => (∀ i, ¬ Runnable config now i k) ∧
      now.startedOperations k = world.startedOperations k) ⟨stalled, rfl⟩ ?_
    intro before event after ⟨still, starts⟩ ⟨unattended, fired⟩
    obtain ⟨stalls, same⟩ := stalled_step still unattended fired
    exact ⟨stalls, same.trans starts⟩
  exact kept.2

/-! ## A workflow that some instance may run -/

omit [DecidableEq ι] in
theorem execute_permitted {unlocked : World ι γ τ} {i : ι}
    (granted : unlocked.gateways (config i).security = EngineeringWorkflow.permissive)
    (task : τ) (call : Call) (current : WorkflowState) {phase : WorkflowPhase}
    {approval : Option Approval} (passable : (config i).Passable phase approval) (draw : Draw) :
    ∃ gateway, unlocked.execute config i task call current phase approval draw =
      ((unlocked.setGateway (config i).security gateway).setTask task
        (.suspended ⟨i, call, current, phase⟩)).emit (.executing task call phase current) := by
  obtain ⟨decision, prepared⟩ :=
    EngineeringWorkflow.permissive_prepares passable current draw.preparation
  unfold execute
  rw [granted]
  split
  · rename_i gateway error refused
    rw [refused] at prepared
    cases prepared
  · exact ⟨_, rfl⟩

theorem loop_permitted {i : ι}
    (granted : world.gateways (config i).security = EngineeringWorkflow.permissive) (task : τ)
    (call : Call) {current : WorkflowState} (ready : world.Ready config i current) (draw : Draw) :
    ∃ phase, (world.loop config i task call current draw).startedOperations current.key =
      world.startedOperations current.key ++ [(task, phase)] := by
  obtain ⟨phase, atPhase, passes⟩ := ready
  refine ⟨phase, ?_⟩
  have executed : ∀ (unlocked : World ι γ τ) approval,
      unlocked.gateways (config i).security = EngineeringWorkflow.permissive →
      unlocked.view current.key = world.view current.key →
      (config i).Passable phase approval →
      (unlocked.execute config i task call current phase approval draw).startedOperations
        current.key = world.startedOperations current.key ++ [(task, phase)] := by
    intro unlocked approval allowed same passable
    obtain ⟨gateway, called⟩ := execute_permitted allowed task call current passable draw
    have started := view_executing current.key
      ((unlocked.setGateway (config i).security gateway).setTask task
        (.suspended ⟨i, call, current, phase⟩)) task call phase current
    rw [if_pos rfl, view_setTask, view_setGateway, same] at started
    rw [called]
    exact congrArg Lifecycle.starts started
  unfold loop
  rw [atPhase]
  by_cases gated : phase ∈ (config i).approvalPhases
  · rw [if_pos gated] at passes
    obtain ⟨approval, cached, passable⟩ := passes
    simp only [checkpoint, gated, not_true_eq_false, if_false, cached]
    exact executed _ (some approval) granted (view_setCache _ world i current.key none) passable
  · rw [if_neg gated] at passes
    simp only [checkpoint, gated, not_false_eq_true, if_true, if_false]
    exact executed world none granted rfl passes

theorem not_durablyStopped {i : ι} (runnable : Runnable config world i k) {task : τ}
    (free : world.tasks task = .fresh) (draw : Draw) : ¬ DurablyStopped config world k := by
  obtain ⟨row, stored, goesOn, ready⟩ := runnable
  have keyed := WorkflowStore.load_key stored
  intro stopped
  let opened : World ι γ τ :=
    world.setGateway (config i).security EngineeringWorkflow.permissive
  have granted : (opened.save row.running).gateways (config i).security =
      EngineeringWorkflow.permissive := Function.update_self _ _ _
  have readyStill : (opened.save row.running).Ready config i row.running := ready
  obtain ⟨phase, started⟩ := loop_permitted granted task (.run k) readyStill draw
  rw [show row.running.key = k from keyed] at started
  have begun : opened.run config i task k draw =
      (opened.save row.running).loop config i task (.run k) row.running draw := by
    have found : opened.store.load k = some row := stored
    unfold run
    rw [found]
    rcases goesOn with status | status <;> simp [status, begin]
  have fired : Run (Guarded (Unattended k) (worldStep config)) world
      [.environment (config i).security EngineeringWorkflow.permissive] opened :=
    Run.single ⟨trivial, rfl⟩
  have called : Guarded (Unattended k) (worldStep config) opened (.call task i (.run k) draw)
      (opened.run config i task k draw) := ⟨trivial, worldStep_call.mpr ⟨free, rfl⟩⟩
  have same := stopped _ _ (fired.snoc called)
  have saved : (opened.save row.running).startedOperations k = world.startedOperations k := by
    have written := view_save k opened row.running
    rw [if_pos (show row.running.key = k from keyed)] at written
    exact congrArg Lifecycle.starts written
  rw [begun, started, saved] at same
  simpa using congrArg List.length same

/-! ## The escalation of an operation -/

theorem escalated_settle {task : τ} {message : String} {draw : Draw}
    (escalated : worldStep config world (.settle task (.escalated message) draw) next) :
    next.store = world.store ∧ next.approvalCache = world.approvalCache ∧
      next.tasks = Function.update world.tasks task .done := by
  obtain ⟨same, held, rfl⟩ := worldStep_settle.mp escalated
  obtain ⟨gateway, behind⟩ := settle_escalated config
    (world.emit (.settled task same.phase same.current (.escalated message))) task same message draw
  rw [behind]
  exact ⟨rfl, rfl, rfl⟩

/-- When an operation raises `WorkflowEscalation` and a further call can be made, the
workflow has stopped durably just when no instance may run it. -/
theorem durable_stop_iff (config : ι → EngineeringWorkflow γ) {world next : World ι γ τ}
    {task : τ} {frame : Frame ι} {message : String} {draw : Draw}
    (suspended : world.tasks task = .suspended frame)
    (escalated : worldStep config world (.settle task (.escalated message) draw) next)
    (further : ∃ later, world.tasks later = .fresh) :
    DurablyStopped config next frame.current.key ↔
      ∀ i, ¬ Runnable config world i frame.current.key := by
  obtain ⟨store, cache, tasks⟩ := escalated_settle escalated
  constructor
  · intro stopped i runnable
    obtain ⟨later, unused⟩ := further
    have apart : later ≠ task := by
      rintro rfl
      rw [suspended] at unused
      cases unused
    have free : next.tasks later = .fresh := by
      rw [tasks, Function.update_of_ne apart, unused]
    have still : Runnable config next i frame.current.key :=
      runnable.congr (by rw [store]) (by simp [cache])
    exact not_durablyStopped still free draw stopped
  · intro stalled
    apply durablyStopped_of_stalled
    intro i runnable
    exact stalled i (runnable.congr (by rw [store]) (by simp [cache]))

/-! ### A phase that needs an approval, and one that does not -/

def goAhead : Approval where
  requestId := sampleDraw.approvalRequestId
  status := .approved
  approver := some "human"

def approvedWorld : World Unit Unit ℕ :=
  (createdWorld.invoke (fun _ => cautious) () 0 (.run feature.id.str) sampleDraw).invoke
    (fun _ => cautious) () 1 (.resume feature.id.str (some goAhead)) sampleDraw

/-- The approval is spent, so that no run gets past the checkpoint again. -/
theorem durable_stop_iff_approved :
    ∃ next, worldStep (fun _ => cautious) approvedWorld
        (.settle 1 (.escalated "out of scope") sampleDraw) next ∧
      DurablyStopped (fun _ => cautious) next feature.id.str := by
  -- one evaluation of the world serves all that is read off it
  obtain ⟨suspended, settled, spent, atFirst, free⟩ :
      (approvedWorld.tasks 1).frameOn feature.id.str ≠ none ∧
        (approvedWorld.next (fun _ => cautious)
          (.settle 1 (.escalated "out of scope") sampleDraw)).isSome = true ∧
        approvedWorld.approvalCache () feature.id.str = none ∧
        (approvedWorld.store.load feature.id.str).map WorkflowState.phase =
          some (some .understand) ∧
        approvedWorld.tasks 2 = .fresh := by decide +kernel
  obtain ⟨frame, found⟩ := Option.ne_none_iff_exists'.mp suspended
  obtain ⟨held, own⟩ := frameOn_eq_some_iff.mp found
  obtain ⟨next, fired⟩ := Option.isSome_iff_exists.mp settled
  have stalled : ∀ i, ¬ Runnable (fun _ => cautious) approvedWorld i feature.id.str := by
    intro i ⟨row, stored, _, phase, atPhase, passes⟩
    rw [stored, Option.map_some, atPhase] at atFirst
    obtain rfl : phase = .understand := Option.some.inj (Option.some.inj atFirst)
    obtain ⟨approval, cached, _⟩ := (if_pos (List.mem_singleton_self _)).mp passes
    rw [WorkflowStore.load_key stored] at cached
    exact nomatch spent.symm.trans cached
  refine ⟨next, fired, ?_⟩
  rw [← own] at stalled ⊢
  exact (durable_stop_iff (fun _ => cautious) held fired ⟨2, free⟩).mpr stalled

/-- A human is demanded in the first phase; the next run executes it again. -/
theorem escalated_phase_runs_again :
    ∃ next later, Run (worldStep fun _ => engineering) (World.init fun _ => engineers)
        [.start feature, .call 0 () (.run feature.id.str) sampleDraw,
          .settle 0 (.escalated "a human must decide") sampleDraw] next ∧
      worldStep (fun _ => engineering) next (.call 1 () (.run feature.id.str) sampleDraw)
        later ∧
      later.startedOperations feature.id.str = [(0, .understand), (1, .understand)] ∧
      ¬ DurablyStopped (fun _ => engineering) next feature.id.str := by
  have created : Run (worldStep fun _ => engineering) (World.init fun _ => engineers)
      [.start feature] createdWorld := Run.single rfl
  have called : Run (worldStep fun _ => engineering) (World.init fun _ => engineers)
      [.start feature, .call 0 () (.run feature.id.str) sampleDraw] underway := created.snoc rfl
  have settled : ((underway.next (fun _ => engineering)
      (.settle 0 (.escalated "a human must decide") sampleDraw)).bind fun next =>
        (next.next (fun _ => engineering) (.call 1 () (.run feature.id.str) sampleDraw)).map
          fun later => (later.startedOperations feature.id.str,
            next.startedOperations feature.id.str)) =
      some ([(0, .understand), (1, .understand)], [(0, .understand)]) := by decide +kernel
  obtain ⟨next, escalated, again⟩ := Option.bind_eq_some_iff.mp settled
  obtain ⟨later, fired, started⟩ := Option.map_eq_some_iff.mp again
  obtain ⟨twice, once⟩ := Prod.mk.inj started
  refine ⟨next, later, called.snoc escalated, fired, twice, ?_⟩
  intro stopped
  have unattended : Unattended feature.id.str next
      (.call 1 () (.run feature.id.str) sampleDraw) := trivial
  have same := stopped _ _ (Run.single ⟨unattended, fired⟩)
  rw [twice, once] at same
  cases same

end Step
end World

end Eis.Workflows
