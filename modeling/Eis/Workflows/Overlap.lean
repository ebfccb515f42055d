import Eis.Workflows.PhaseOrder

/-!
# Calls that overlap

Nothing locks a workflow: `run` goes on from a row that is already running, and
every write replaces the row.  What survives any interleaving is the order
within a single call; what needs the calls on a workflow to keep apart is that
a phase completes at most once and the stored index never moves backwards.
-/

set_option autoImplicit false

namespace Eis.Workflows.World

open Eis.Security Transition

variable {ι γ τ : Type}

/-! ## A single call -/

section Calls
variable [DecidableEq τ]

def completionBy (task : τ) : Effect τ → Option WorkflowPhase
  | .settled other phase _ (.returned _) => if other = task then some phase else none
  | _ => none

def completedBy (task : τ) (world : World ι γ τ) : List WorkflowPhase :=
  world.effects.filterMap (completionBy task)

def Completed (task : τ) (world : World ι γ τ) (stop : ℕ) : Prop :=
  ∃ first ≤ stop, world.completedBy task = (WorkflowPhase.phases.take stop).drop first

/-- A call completes consecutive phases up to the one its copy is at. -/
def CallOrder (task : τ) (world : World ι γ τ) : Prop :=
  match world.tasks task with
  | .fresh => world.completedBy task = []
  | .suspended frame => frame.current.phase = some frame.phase ∧
      world.Completed task frame.current.phaseIndex
  | .done => ∃ stop, world.Completed task stop

theorem CallOrder.of_current {world : World ι γ τ} {task : τ} {current : WorkflowState}
    (completed : world.Completed task current.phaseIndex)
    (state : world.tasks task = .done ∨ ∃ i call phase, current.phase = some phase ∧
      world.tasks task = .suspended ⟨i, call, current, phase⟩) : CallOrder task world := by
  unfold CallOrder
  rcases state with ended | ⟨i, call, phase, atPhase, suspended⟩
  · rw [ended]
    exact ⟨current.phaseIndex, completed⟩
  · rw [suspended]
    exact ⟨atPhase, completed⟩

theorem completed_start (world : World ι γ τ) {task : τ} (none : world.completedBy task = [])
    (stop : ℕ) : world.Completed task stop := by
  refine ⟨stop, le_rfl, ?_⟩
  rw [none, List.drop_eq_nil_of_le (List.length_take_le _ _)]

theorem completed_next {world next : World ι γ τ} {task : τ} {frame : Frame ι}
    (atPhase : frame.current.phase = some frame.phase)
    (completed : world.Completed task frame.current.phaseIndex)
    (returned : next.completedBy task = world.completedBy task ++ [frame.phase]) :
    next.Completed task (frame.current.phaseIndex + 1) := by
  obtain ⟨first, bound, phases⟩ := completed
  have inside := WorkflowState.lt_of_phase atPhase
  have entry : WorkflowPhase.phases[frame.current.phaseIndex]? = some frame.phase := atPhase
  refine ⟨first, by omega, ?_⟩
  rw [returned, phases, List.take_add_one, entry, List.drop_append_of_le_length]
  · rfl
  · rw [List.length_take]
    omega

theorem completedBy_nodup {world : World ι γ τ} {task : τ} (order : CallOrder task world) :
    (world.completedBy task).Nodup := by
  have sliced : ∀ stop, world.Completed task stop → (world.completedBy task).Nodup := by
    rintro stop ⟨first, _, phases⟩
    rw [phases]
    exact WorkflowPhase.phases_nodup.sublist
      ((List.drop_sublist _ _).trans (List.take_sublist _ _))
  unfold CallOrder at order
  cases state : world.tasks task with
  | fresh =>
      rw [state] at order
      simp [order]
  | suspended frame =>
      rw [state] at order
      exact sliced _ order.2
  | done =>
      rw [state] at order
      obtain ⟨stop, completed⟩ := order
      exact sliced stop completed

theorem completedBy_emit (task : τ) (world : World ι γ τ) (effect : Effect τ) :
    (world.emit effect).completedBy task =
      world.completedBy task ++ (completionBy task effect).toList := by
  unfold completedBy emit
  rw [List.filterMap_append]
  cases found : completionBy task effect <;> simp [found]

@[simp] theorem completedBy_save (task : τ) (world : World ι γ τ) (state : WorkflowState) :
    (world.save state).completedBy task = world.completedBy task := by
  simp [completedBy, save, completionBy]

@[simp] theorem completedBy_answered (task : τ) (world : World ι γ τ) (workflowId : String)
    (result : Except WorkflowError WorkflowReport) :
    (world.emit (.answered workflowId result)).completedBy task = world.completedBy task := by
  simp [completedBy_emit, completionBy]

@[simp] theorem completedBy_executing (task other : τ) (world : World ι γ τ) (call : Call)
    (phase : WorkflowPhase) (state : WorkflowState) :
    (world.emit (.executing other call phase state)).completedBy task =
      world.completedBy task := by
  simp [completedBy_emit, completionBy]

@[simp] theorem completedBy_setTask (task other : τ) (world : World ι γ τ)
    (state : Task ι) :
    (world.setTask other state).completedBy task = world.completedBy task := rfl

@[simp] theorem completedBy_setGateway [DecidableEq γ] (task : τ) (world : World ι γ τ) (g : γ)
    (gateway : SecurityGateway) :
    (world.setGateway g gateway).completedBy task = world.completedBy task := rfl

theorem CallOrder.congr {world next : World ι γ τ} {task : τ} (order : CallOrder task world)
    (state : next.tasks task = world.tasks task)
    (completed : next.completedBy task = world.completedBy task) : CallOrder task next := by
  unfold CallOrder Completed at order ⊢
  rw [state, completed]
  exact order

end Calls

/-! ## One step -/

section Step
variable [DecidableEq ι] [DecidableEq γ] [DecidableEq τ]
variable {config : ι → EngineeringWorkflow γ}

omit [DecidableEq γ] in
theorem Unlocked.calls {world unlocked : World ι γ τ} {i : ι} {current : WorkflowState}
    {phase : WorkflowPhase} {approval : Option Approval}
    (ready : Unlocked config world i current phase approval unlocked) :
    (∀ task, unlocked.completedBy task = world.completedBy task) ∧
      unlocked.tasks = world.tasks := by
  rcases ready with ⟨_, _, rfl⟩ | ⟨_, _, _, rfl⟩ <;> exact ⟨fun _ => rfl, rfl⟩

theorem LoopEnds.calls {world ended : World ι γ τ} {i : ι} {task : τ} {call : Call}
    {current : WorkflowState} (ends : LoopEnds config world i task call current ended) :
    (∀ other, ended.completedBy other = world.completedBy other) ∧
      (∀ other, other ≠ task → ended.tasks other = world.tasks other) ∧
      (ended.tasks task = .done ∨ ∃ i call phase, current.phase = some phase ∧
        ended.tasks task = .suspended ⟨i, call, current, phase⟩) := by
  cases ends with
  | completed exhausted =>
      refine ⟨fun other => ?_, fun other different => ?_, Or.inl ?_⟩
      · simp [answer]
      · simp [answer, emit, setTask, save, different]
      · simp [answer, emit, setTask]
  | waiting phase request gateway approvalRequestId eventId result atPhase gated uncached =>
      refine ⟨fun other => ?_, fun other different => ?_, Or.inl ?_⟩
      · simp [answer]
      · simp [answer, emit, setTask, save, setGateway, different]
      · simp [answer, emit, setTask]
  | refused phase approval unlocked gateway message eventId atPhase ready =>
      obtain ⟨completed, tasks⟩ := ready.calls
      refine ⟨fun other => ?_, fun other different => ?_, Or.inl ?_⟩
      · simp [fail, answer, completed]
      · simp [fail, answer, emit, setTask, save, setGateway, different, tasks]
      · simp [fail, answer, emit, setTask]
  | executing phase approval unlocked gateway atPhase ready =>
      obtain ⟨completed, tasks⟩ := ready.calls
      refine ⟨fun other => ?_, fun other different => ?_, Or.inr ⟨i, call, phase, atPhase, ?_⟩⟩
      · simp [completed]
      · simp [emit, setTask, setGateway, different, tasks]
      · simp [emit, setTask]

theorem LoopEnds.callOrder {world ended : World ι γ τ} {i : ι} {task : τ} {call : Call}
    {current : WorkflowState} (ends : LoopEnds config world i task call current ended)
    (ordered : ∀ other, other ≠ task → CallOrder other world)
    (completed : world.Completed task current.phaseIndex) (other : τ) :
    CallOrder other ended := by
  obtain ⟨same, unmoved, state⟩ := ends.calls
  by_cases own : other = task
  · subst own
    refine CallOrder.of_current ?_ state
    obtain ⟨first, bound, phases⟩ := completed
    exact ⟨first, bound, (same other).trans phases⟩
  · exact (ordered other own).congr (unmoved other own) (same other)

omit [DecidableEq ι] [DecidableEq γ] in
theorem CallOrder.answer {world : World ι γ τ} {task : τ}
    (ordered : ∀ other, other ≠ task → CallOrder other world) (stop : ℕ)
    (completed : world.Completed task stop) (workflowId : String)
    (result : Except WorkflowError WorkflowReport) (other : τ) :
    CallOrder other (world.answer task workflowId result) := by
  have same : ∀ other, (world.answer task workflowId result).completedBy other =
      world.completedBy other := by
    intro other
    simp [World.answer]
  by_cases own : other = task
  · subst own
    obtain ⟨first, bound, phases⟩ := completed
    have ended : (world.answer other workflowId result).tasks other = .done := by
      simp [World.answer, emit, setTask]
    unfold CallOrder
    rw [ended]
    exact ⟨stop, first, bound, (same other).trans phases⟩
  · refine (ordered other own).congr ?_ (same other)
    simp [World.answer, emit, setTask, own]

theorem invoke_callOrder {world : World ι γ τ} {task : τ}
    (ordered : ∀ other, CallOrder other world) (free : world.tasks task = .fresh) (i : ι)
    (call : Call) (draw : Draw) (other : τ) :
    CallOrder other (world.invoke config i task call draw) := by
  have none : world.completedBy task = [] := by
    simpa [CallOrder, free] using ordered task
  have begun : ∀ (saved : World ι γ τ) (call : Call) (state : WorkflowState),
      saved.tasks = world.tasks → (∀ other, saved.completedBy other = world.completedBy other) →
        CallOrder other (saved.begin config i task call state draw) := by
    intro saved call state tasks completed
    refine (loop_ends config (saved.save state.running) i task call state.running draw).callOrder
      ?_ (completed_start _ ?_ _) other
    · intro other _
      exact (ordered other).congr (congrFun tasks other) (by simp [completed])
    · simp [completed, none]
  cases call with
  | run workflowId =>
      rcases world.run_cases config i task workflowId draw with
        ⟨result, answered⟩ | ⟨state, _, _, goesOn⟩
      · simp only [invoke, answered]
        exact CallOrder.answer (fun other _ => ordered other) _ (completed_start world none 0)
          workflowId result other
      · simp only [invoke, goesOn]
        exact begun world _ state rfl fun _ => rfl
  | resume workflowId approval =>
      rcases world.resume_cases config i task workflowId approval draw with
        ⟨result, answered⟩ | ⟨state, presented, _, _, _, _, _, goesOn⟩
      · simp only [invoke, answered]
        exact CallOrder.answer (fun other _ => ordered other) _ (completed_start world none 0)
          workflowId result other
      · simp only [invoke, goesOn]
        refine begun _ _ _ rfl ?_
        intro other
        rw [completedBy_save]
        rfl

theorem settle_callOrder {world : World ι γ τ} {task : τ} {frame : Frame ι}
    (ordered : ∀ other, CallOrder other world) (suspended : world.tasks task = .suspended frame)
    (outcome : Outcome) (draw : Draw) (other : τ) :
    CallOrder other ((world.emit (.settled task frame.phase frame.current outcome)).settle config
      task frame outcome draw) := by
  have own : frame.current.phase = some frame.phase ∧
      world.Completed task frame.current.phaseIndex := by
    simpa [CallOrder, suspended] using ordered task
  have others : ∀ other, other ≠ task → CallOrder other
      (world.emit (.settled task frame.phase frame.current outcome)) := by
    intro other different
    refine (ordered other).congr rfl ?_
    rw [completedBy_emit]
    cases outcome <;> simp [completionBy, different.symm]
  have unreturned : completionBy task (.settled task frame.phase frame.current outcome) = none →
      (world.emit (.settled task frame.phase frame.current outcome)).Completed task
        frame.current.phaseIndex := by
    intro none
    obtain ⟨first, bound, phases⟩ := own.2
    exact ⟨first, bound, by rw [completedBy_emit, none, ← phases]; simp⟩
  cases outcome with
  | returned event =>
      obtain ⟨gateway, behind⟩ := settle_returned config
        (world.emit (.settled task frame.phase frame.current (.returned event)))
        task frame event draw
      rw [behind]
      refine (loop_ends config _ frame.runner task frame.call (frame.current.advance event)
        draw).callOrder ?_ ?_ other
      · intro other different
        exact (others other different).congr rfl (by simp)
      · refine completed_next own.1 own.2 ?_
        rw [completedBy_save, completedBy_setGateway, completedBy_emit]
        simp [completionBy]
  | escalated message =>
      obtain ⟨gateway, behind⟩ := settle_escalated config
        (world.emit (.settled task frame.phase frame.current (.escalated message)))
        task frame message draw
      rw [behind]
      exact CallOrder.answer (fun other different => (others other different).congr rfl rfl)
        _ (unreturned rfl) _ _ other
  | raised message =>
      obtain ⟨gateway, behind⟩ := settle_raised config
        (world.emit (.settled task frame.phase frame.current (.raised message)))
        task frame message draw
      rw [behind, fail]
      refine CallOrder.answer ?_ frame.current.phaseIndex ?_ _ _ other
      · exact fun other different => (others other different).congr rfl (by simp)
      · obtain ⟨first, bound, phases⟩ := unreturned rfl
        exact ⟨first, bound, by simpa using phases⟩
  | cancelled =>
      simp only [settle]
      exact CallOrder.answer others _ (unreturned rfl) _ _ other

theorem callOrder_step {world next : World ι γ τ} {event : WorldEvent ι γ τ}
    (ordered : ∀ task, CallOrder task world) (fired : worldStep config world event next)
    (task : τ) : CallOrder task next := by
  cases event with
  | start request =>
      obtain rfl := Option.some.inj fired
      exact (ordered task).congr rfl (by simp [start])
  | call caller i call draw =>
      obtain ⟨free, rfl⟩ := worldStep_call.mp fired
      exact invoke_callOrder ordered free i call draw task
  | settle settled outcome draw =>
      obtain ⟨frame, suspended, rfl⟩ := worldStep_settle.mp fired
      exact settle_callOrder ordered suspended outcome draw task
  | escalate workflowId reason draw =>
      obtain rfl := Option.some.inj fired
      unfold escalate
      split
      · exact (ordered task).congr rfl (by simp)
      · exact (ordered task).congr rfl (by simp)
  | environment g gateway =>
      obtain rfl := Option.some.inj fired
      exact (ordered task).congr rfl rfl

theorem callOrder_run {gateways : γ → SecurityGateway} {events : List (WorldEvent ι γ τ)}
    {world : World ι γ τ}
    (run : Run (worldStep config) (World.init gateways) events world) (task : τ) :
    CallOrder task world := by
  refine run.invariant (motive := fun world => ∀ task, CallOrder task world) ?_ ?_ task
  · exact fun _ => rfl
  · intro before event after ordered fired
    exact callOrder_step ordered fired

end Step

/-! ## All calls on a workflow -/

/-- No phase is completed twice, and the persisted index never moves back. -/
structure PhaseOnce (k : String) (world : World ι γ τ) : Prop where
  once : (world.completedPhases k).Nodup
  ordered : (world.persisted k).Pairwise fun earlier later =>
    earlier.phaseIndex ≤ later.phaseIndex

section Runs
variable [DecidableEq ι] [DecidableEq γ] [DecidableEq τ]

/-- Whatever overlaps, a single call completes no phase twice; and a workflow
on which the calls keep apart, whenever it is escalated, completes none twice. -/
theorem phases_completed_once (config : ι → EngineeringWorkflow γ)
    (gateways : γ → SecurityGateway) {events : List (WorldEvent ι γ τ)} {world : World ι γ τ}
    (run : Run (worldStep config) (World.init gateways) events world) :
    (∀ task, (world.completedBy task).Nodup) ∧
      ∀ k, Run (Guarded (CallsApart k) (worldStep config)) (World.init gateways) events world →
        PhaseOnce k world := by
  refine ⟨fun task => completedBy_nodup (callOrder_run run task), ?_⟩
  intro k apart
  have inStep := inStep_run apart
  have progress : world.completedPhases k =
      WorkflowPhase.phases.take (world.view k).index := inStep.progress
  constructor
  · rw [progress]
    exact WorkflowPhase.phases_nodup.sublist (List.take_sublist _ _)
  · exact inStep.ordered

def quiet (world : World Unit Unit Bool) : WorldEvent Unit Unit Bool → Bool
  | .start _ => (world.store.load feature.id.str).isNone
  | .call .. => [false, true].all fun task =>
      match world.tasks task with
      | .suspended _ => false
      | _ => true
  | _ => true

theorem callsApart_of_quiet {world : World Unit Unit Bool} {event : WorldEvent Unit Unit Bool}
    (still : quiet world event = true) : CallsApart feature.id.str world event := by
  cases event with
  | start request => exact fun _ => Option.isNone_iff_eq_none.mp still
  | call caller i call draw =>
      intro _ task frame suspended
      have none := List.all_eq_true.mp still task (by cases task <;> decide)
      rw [suspended] at none
      cases none
  | settle | escalate | environment => trivial

/-- A first run is cancelled behind two phases, and a second one goes on from there. -/
theorem phases_completed_once_restarted :
    ∃ world : World Unit Unit Bool,
      world.completedPhases feature.id.str = [.understand, .retrieveKnowledge, .inspectProduct] ∧
        (world.completedBy true).Nodup ∧ PhaseOnce feature.id.str world := by
  let events : List (WorldEvent Unit Unit Bool) :=
    [.start feature, .call false () (.run feature.id.str) sampleDraw,
      .settle false (done .understand) sampleDraw,
      .settle false (done .retrieveKnowledge) sampleDraw, .settle false .cancelled sampleDraw,
      .call true () (.run feature.id.str) sampleDraw,
      .settle true (done .inspectProduct) sampleDraw]
  have reached : (events.foldlM (fun world event =>
      if quiet world event = true then world.next (fun _ => engineering) event else none)
      (World.init fun _ => engineers)).map (completedPhases feature.id.str) =
      some [.understand, .retrieveKnowledge, .inspectProduct] := by decide +kernel
  obtain ⟨world, folded, completed⟩ := Option.map_eq_some_iff.mp reached
  have apart : Run (Guarded (CallsApart feature.id.str) (worldStep fun _ => engineering))
      (World.init fun _ => engineers) events world :=
    (Run.of_guarded_foldlM folded).mono fun _ _ _ fired => ⟨callsApart_of_quiet fired.1, fired.2⟩
  have law := phases_completed_once (fun _ => engineering) (fun _ => engineers) apart.of_guarded
  exact ⟨world, completed, law.1 true, law.2 _ apart⟩

/-- Two runs of one workflow, the second begun while the first is suspended. -/
def overlapping : List (WorldEvent Unit Unit ℕ) :=
  [.start feature, .call 0 () (.run feature.id.str) sampleDraw,
    .call 1 () (.run feature.id.str) sampleDraw, .settle 0 (done .understand) sampleDraw,
    .settle 0 (done .retrieveKnowledge) sampleDraw, .settle 1 (done .understand) sampleDraw]

theorem overlapping_runs_repeat_phase :
    ∃ world, Run (worldStep fun _ => engineering) (World.init fun _ => engineers) overlapping
        world ∧
      ¬ (world.completedPhases feature.id.str).Nodup ∧
      ¬ (world.persisted feature.id.str).Pairwise fun earlier later =>
        earlier.phaseIndex ≤ later.phaseIndex := by
  have reached : (overlapping.foldlM (World.next fun _ => engineering)
      (World.init fun _ => engineers)).map (fun world =>
        (world.completedPhases feature.id.str,
          (world.persisted feature.id.str).map WorkflowState.phaseIndex)) =
      some ([.understand, .retrieveKnowledge, .understand], [0, 0, 0, 1, 2, 1]) := by
    decide +kernel
  obtain ⟨world, folded, seen⟩ := Option.map_eq_some_iff.mp reached
  obtain ⟨completed, indices⟩ := Prod.mk.inj seen
  refine ⟨world, Run.of_foldlM folded, ?_, ?_⟩
  · rw [completed]
    decide
  · intro ordered
    have sorted := List.pairwise_map.mpr ordered
    rw [indices] at sorted
    exact absurd sorted (by decide)

end Runs

end Eis.Workflows.World
