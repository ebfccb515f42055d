import Eis.Workflows.View

/-!
# Calls that do not overlap

As long as no call begins on a workflow while another one on it is suspended,
the copy of the suspended call agrees with the stored row: the completed phases
are the first ones in the order of their declaration, as many as the row
counts.  When escalations keep clear of the suspended calls too, every state
written extends all the earlier ones.
-/

set_option autoImplicit false

namespace Eis.Workflows

open Transition

variable {ι γ τ : Type}

/-! ## One workflow -/

namespace Lifecycle

def Idle (life : Lifecycle ι τ) : Prop :=
  ∀ task, life.copies task = none

def CallsApart (life : Lifecycle ι τ) : LifecycleEvent τ → Prop
  | .created => life.row = none
  | .called _ => life.Idle
  | _ => True

def Sequential (life : Lifecycle ι τ) (event : LifecycleEvent τ) : Prop :=
  life.CallsApart event ∧ (event = .escalated → life.Idle)

def index (life : Lifecycle ι τ) : ℕ :=
  (life.row.map WorkflowState.phaseIndex).getD 0

/-- The one suspended call works on the phase behind the completed ones. -/
structure InStep (life : Lifecycle ι τ) : Prop where
  progress : life.completions.map Prod.snd = WorkflowPhase.phases.take life.index
  bounded : life.index ≤ WorkflowPhase.phases.length
  latest : ∀ state ∈ life.saves, state.phaseIndex ≤ life.index
  ordered : life.saves.Pairwise fun earlier later => earlier.phaseIndex ≤ later.phaseIndex
  finished : ∀ state ∈ life.saves, state.status = .completed →
    state.phaseIndex = WorkflowPhase.phases.length
  single : ∀ first second, life.copies first ≠ none → life.copies second ≠ none →
    first = second
  held : ∀ task frame, life.copies task = some frame →
    frame.current.phaseIndex = life.index ∧ frame.current.phase = some frame.phase

/-- Every state written extends the ones before, and the copy has the events of
the row. -/
structure Growing (life : Lifecycle ι τ) : Prop where
  ordered : life.saves.Pairwise fun earlier later => later.Extends earlier
  latest : ∀ row, life.row = some row → ∀ state ∈ life.saves, row.Extends state
  held : ∀ task frame, life.copies task = some frame →
    ∃ row, life.row = some row ∧ row.events = frame.current.events
  unwritten : life.row = none → life.saves = []

section Step
variable [DecidableEq τ]

theorem row_last {life next : Lifecycle ι τ} {event : LifecycleEvent τ}
    (before : life.row = life.saves.getLast?) (fired : LifecycleStep life event next) :
    next.row = next.saves.getLast? := by
  cases fired with
  | other => exact before
  | created state index incomplete => simp
  | escalated row state stored status index grows => simp
  | notEscalated absent => exact before
  | reported task free => exact before
  | called task row last written copy free stored resumable lastExact writes =>
      simp [List.getLast?_append, lastExact]
  | returned task event frame last written copy suspended lastExact writes =>
      simp only [List.getLast?_append, lastExact, Option.some_or]
  | raised task message frame state suspended status index grows => simp
  | stopped task outcome frame suspended quiet => exact before

theorem ordered_append {saves written : List WorkflowState} {index : ℕ}
    (latest : ∀ state ∈ saves, state.phaseIndex ≤ index)
    (ordered : saves.Pairwise fun earlier later => earlier.phaseIndex ≤ later.phaseIndex)
    (samePhase : ∀ state ∈ written, state.phaseIndex = index) :
    (∀ state ∈ saves ++ written, state.phaseIndex ≤ index) ∧
      (saves ++ written).Pairwise
        fun earlier later => earlier.phaseIndex ≤ later.phaseIndex := by
  constructor
  · intro state member
    rcases List.mem_append.mp member with old | fresh
    · exact latest state old
    · exact (samePhase state fresh).le
  · refine List.pairwise_append.mpr ⟨ordered, ?_, ?_⟩
    · refine List.pairwise_of_forall_mem_list ?_
      intro earlier earlierMember later laterMember
      rw [samePhase earlier earlierMember, samePhase later laterMember]
    · intro earlier earlierMember later laterMember
      rw [samePhase later laterMember]
      exact latest earlier earlierMember

theorem finished_append {saves written : List WorkflowState}
    (before : ∀ state ∈ saves, state.status = .completed →
      state.phaseIndex = WorkflowPhase.phases.length)
    (fresh : ∀ state ∈ written, state.status = .completed →
      state.phaseIndex = WorkflowPhase.phases.length) :
    ∀ state ∈ saves ++ written, state.status = .completed →
      state.phaseIndex = WorkflowPhase.phases.length := by
  intro state member
  rcases List.mem_append.mp member with old | new
  · exact before state old
  · exact fresh state new

theorem InStep.write {life : Lifecycle ι τ} {base last : WorkflowState}
    {written : List WorkflowState} {copy : Option (Frame ι)} {task : τ}
    {completions : List (τ × WorkflowPhase)} (starts : List (τ × WorkflowPhase))
    (inStep : life.InStep) (alone : ∀ other, other ≠ task → life.copies other = none)
    (progress : completions.map Prod.snd = WorkflowPhase.phases.take base.phaseIndex)
    (bounded : base.phaseIndex ≤ WorkflowPhase.phases.length)
    (latest : life.index ≤ base.phaseIndex) (writes : Writes base written copy)
    (lastExact : written.getLast? = some last) :
    InStep
      { row := some last
        copies := Function.update life.copies task copy
        saves := life.saves ++ written
        completions := completions
        starts := starts } := by
  have lastIndex : last.phaseIndex = base.phaseIndex :=
    writes.samePhase last (List.mem_of_getLast? lastExact)
  have appended := ordered_append (fun state member =>
    (inStep.latest state member).trans latest) inStep.ordered writes.samePhase
  have only : ∀ other, Function.update life.copies task copy other ≠ none → other = task := by
    intro other busy
    by_contra different
    exact busy (by simpa [different] using alone other different)
  constructor
  case progress => simpa [index, lastIndex] using progress
  case bounded => simpa [index, lastIndex] using bounded
  case latest => simpa [index, lastIndex] using appended.1
  case ordered => exact appended.2
  case finished =>
    refine finished_append inStep.finished ?_
    intro state member status
    have exhausted := (WorkflowState.phase_eq_none_iff base).mp
      (writes.exhausted state member status)
    rw [writes.samePhase state member]
    omega
  case single =>
    intro first second firstBusy secondBusy
    rw [only first firstBusy, only second secondBusy]
  case held =>
    intro other frame suspended
    have kept : Function.update life.copies task copy other = some frame := suspended
    obtain rfl := only other (by simp [kept])
    obtain ⟨sameIndex, atPhase, _⟩ := writes.held frame (by simpa using kept)
    refine ⟨by simp [index, lastIndex, sameIndex], ?_⟩
    rw [← atPhase]
    simp [WorkflowState.phase, sameIndex]

omit [DecidableEq τ] in
theorem InStep.rewrite {life : Lifecycle ι τ} (inStep : life.InStep) {state : WorkflowState}
    (index : state.phaseIndex = life.index) (incomplete : state.status ≠ .completed) :
    InStep { life with row := some state, saves := life.saves ++ [state] } := by
  have samePhase : ∀ later ∈ [state], later.phaseIndex = life.index := by
    simpa using index
  have appended := ordered_append inStep.latest inStep.ordered samePhase
  constructor
  case progress => simpa [Lifecycle.index, index] using inStep.progress
  case bounded => simpa [Lifecycle.index, index] using inStep.bounded
  case latest => simpa [Lifecycle.index, index] using appended.1
  case ordered => exact appended.2
  case finished => exact finished_append inStep.finished (by simp [incomplete])
  case single => exact inStep.single
  case held =>
    intro task frame suspended
    obtain ⟨sameIndex, atPhase⟩ := inStep.held task frame suspended
    exact ⟨by simpa [Lifecycle.index, index] using sameIndex, atPhase⟩

theorem released {life : Lifecycle ι τ} {task other : τ} {frame : Frame ι}
    (still : Function.update life.copies task none other = some frame) :
    life.copies other = some frame := by
  by_cases same : other = task
  · simp [same] at still
  · simpa [same] using still

omit [DecidableEq τ] in
theorem InStep.alone {life : Lifecycle ι τ} (inStep : life.InStep) {task : τ} {frame : Frame ι}
    (suspended : life.copies task = some frame) :
    ∀ other, other ≠ task → life.copies other = none := by
  intro other different
  by_contra busy
  exact different (inStep.single other task busy (by simp [suspended]))

theorem InStep.step {life next : Lifecycle ι τ} {event : LifecycleEvent τ}
    (inStep : life.InStep) (apart : life.CallsApart event)
    (fired : LifecycleStep life event next) : next.InStep := by
  cases fired with
  | other => exact inStep
  | notEscalated absent => exact inStep
  | reported task free => exact inStep
  | created state index incomplete =>
      have absent : life.row = none := apart
      exact inStep.rewrite (by simp [index, Lifecycle.index, absent]) incomplete
  | escalated row state stored status index grows =>
      exact inStep.rewrite (by simp [index, Lifecycle.index, stored]) (by simp [status])
  | called task row last written copy free stored resumable lastExact writes =>
      have rowIndex : life.index = row.phaseIndex := by simp [index, stored]
      exact inStep.write _ (fun other _ => apart other) (rowIndex ▸ inStep.progress)
        (rowIndex ▸ inStep.bounded) rowIndex.le writes lastExact
  | returned task event frame last written copy suspended lastExact writes =>
      obtain ⟨frameIndex, atPhase⟩ := inStep.held task frame suspended
      have advanced : (frame.current.advance event).phaseIndex = life.index + 1 := by
        rw [← frameIndex]
        rfl
      have inside : life.index < WorkflowPhase.phases.length :=
        frameIndex ▸ WorkflowState.lt_of_phase atPhase
      have phase : WorkflowPhase.phases[life.index]? = some frame.phase := by
        rw [← frameIndex]
        exact atPhase
      refine inStep.write _ (inStep.alone suspended) ?_ (by omega) (by omega)
        (writes.cons rfl List.prefix_rfl fun status => nomatch status) lastExact
      rw [advanced, List.take_add_one, phase, List.map_append, inStep.progress]
      rfl
  | raised task message frame state suspended status index grows =>
      obtain ⟨frameIndex, _⟩ := inStep.held task frame suspended
      exact inStep.write life.starts (inStep.alone suspended) (frameIndex ▸ inStep.progress)
        (frameIndex ▸ inStep.bounded) frameIndex.ge
        (.finish index grows (by simp [status])) rfl
  | stopped task outcome frame suspended quiet =>
      constructor
      case single =>
        intro first second firstBusy secondBusy
        obtain ⟨firstFrame, firstHeld⟩ := Option.ne_none_iff_exists'.mp firstBusy
        obtain ⟨secondFrame, secondHeld⟩ := Option.ne_none_iff_exists'.mp secondBusy
        exact inStep.single first second (by simp [released firstHeld])
          (by simp [released secondHeld])
      case held =>
        intro other frame still
        exact inStep.held other frame (released still)
      case progress => exact inStep.progress
      case bounded => exact inStep.bounded
      case latest => exact inStep.latest
      case ordered => exact inStep.ordered
      case finished => exact inStep.finished

/-! ### Events -/

theorem extends_last {written : List WorkflowState} {last : WorkflowState}
    (grows : written.Pairwise fun earlier later => later.Extends earlier)
    (lastExact : written.getLast? = some last) : ∀ state ∈ written, last.Extends state := by
  obtain ⟨front, rfl⟩ := List.getLast?_eq_some_iff.mp lastExact
  intro state member
  rcases List.mem_append.mp member with earlier | same
  · exact (List.pairwise_append.mp grows).2.2 state earlier last (by simp)
  · obtain rfl : state = last := by simpa using same
    exact List.prefix_rfl

theorem Growing.write {life : Lifecycle ι τ} {base last : WorkflowState}
    {written : List WorkflowState} {copy : Option (Frame ι)} {task : τ}
    (completions starts : List (τ × WorkflowPhase)) (growing : life.Growing)
    (alone : ∀ other, other ≠ task → life.copies other = none)
    (latest : ∀ state ∈ life.saves, base.Extends state) (writes : Writes base written copy)
    (lastExact : written.getLast? = some last) :
    Growing
      { row := some last
        copies := Function.update life.copies task copy
        saves := life.saves ++ written
        completions := completions
        starts := starts } := by
  have fresh := List.pairwise_cons.mp writes.grows
  have lastFresh : last ∈ written := List.mem_of_getLast? lastExact
  constructor
  case ordered =>
    refine List.pairwise_append.mpr ⟨growing.ordered, fresh.2, ?_⟩
    intro earlier earlierMember later laterMember
    exact List.IsPrefix.trans (latest earlier earlierMember) (fresh.1 later laterMember)
  case latest =>
    intro row stored state member
    obtain rfl := Option.some.inj stored
    rcases List.mem_append.mp member with old | new
    · exact List.IsPrefix.trans (latest state old) (fresh.1 last lastFresh)
    · exact extends_last fresh.2 lastExact state new
  case held =>
    intro other frame suspended
    have kept : Function.update life.copies task copy other = some frame := suspended
    by_cases same : other = task
    · subst same
      obtain ⟨_, _, events⟩ := writes.held frame (by simpa using kept)
      exact ⟨last, rfl, events last (by simp [List.getLast?_cons, lastExact])⟩
    · simp [same, alone other same] at kept
  case unwritten => exact fun absent => nomatch absent

omit [DecidableEq τ] in
theorem Growing.rewrite {life : Lifecycle ι τ} (growing : life.Growing) (idle : life.Idle)
    {state : WorkflowState} (latest : ∀ old ∈ life.saves, state.Extends old) :
    Growing { life with row := some state, saves := life.saves ++ [state] } := by
  constructor
  case ordered =>
    refine List.pairwise_append.mpr ⟨growing.ordered, List.pairwise_singleton _ _, ?_⟩
    intro earlier earlierMember later laterMember
    obtain rfl : later = state := by simpa using laterMember
    exact latest earlier earlierMember
  case latest =>
    intro row stored old member
    obtain rfl := Option.some.inj stored
    rcases List.mem_append.mp member with earlier | same
    · exact latest old earlier
    · obtain rfl : old = state := by simpa using same
      exact List.prefix_rfl
  case held =>
    intro task frame suspended
    have none : life.copies task = some frame := suspended
    rw [idle task] at none
    cases none
  case unwritten => exact fun absent => nomatch absent

theorem Growing.step {life next : Lifecycle ι τ} {event : LifecycleEvent τ}
    (growing : life.Growing) (inStep : life.InStep) (sequential : life.Sequential event)
    (fired : LifecycleStep life event next) : next.Growing := by
  have copied : ∀ {task frame}, life.copies task = some frame →
      ∀ state ∈ life.saves, frame.current.Extends state := by
    intro task frame suspended state member
    obtain ⟨row, stored, events⟩ := growing.held task frame suspended
    unfold WorkflowState.Extends
    rw [← events]
    exact growing.latest row stored state member
  cases fired with
  | other => exact growing
  | notEscalated absent => exact growing
  | reported task free => exact growing
  | created state index incomplete =>
      have absent : life.row = none := sequential.1
      refine growing.rewrite ?_ (by simp [growing.unwritten absent])
      intro task
      by_contra busy
      obtain ⟨frame, suspended⟩ := Option.ne_none_iff_exists'.mp busy
      obtain ⟨row, stored, _⟩ := growing.held task frame suspended
      simp [absent] at stored
  | escalated row state stored status index grows =>
      refine growing.rewrite (sequential.2 rfl) ?_
      intro old member
      exact List.IsPrefix.trans (growing.latest row stored old member) grows
  | called task row last written copy free stored resumable lastExact writes =>
      have idle : life.Idle := sequential.1
      exact growing.write _ _ (fun other _ => idle other) (growing.latest row stored) writes
        lastExact
  | returned task event frame last written copy suspended lastExact writes =>
      refine growing.write _ _ (inStep.alone suspended) ?_
        (writes.cons rfl List.prefix_rfl fun status => nomatch status) lastExact
      intro state member
      exact List.IsPrefix.trans (copied suspended state member) (List.prefix_append _ _)
  | raised task message frame state suspended status index grows =>
      exact growing.write life.completions life.starts (inStep.alone suspended)
        (copied suspended) (.finish index grows (by simp [status])) rfl
  | stopped task outcome frame suspended quiet =>
      constructor
      case ordered => exact growing.ordered
      case latest => exact growing.latest
      case held => exact fun other frame still => growing.held other frame (released still)
      case unwritten => exact growing.unwritten

end Step
end Lifecycle

/-! ## The world -/

namespace World

def Idle (k : String) (world : World ι γ τ) : Prop :=
  ∀ task frame, world.tasks task = .suspended frame → frame.current.key ≠ k

/-- The workflow `k` is created once, and a call on it begins only when no
other one is suspended. -/
def CallsApart (k : String) (world : World ι γ τ) : WorldEvent ι γ τ → Prop
  | .start request => request.id.str = k → world.store.load k = none
  | .call _ _ call _ => call.workflowId = k → world.Idle k
  | _ => True

/-- An escalation of the workflow waits for its calls too. -/
def Sequential (k : String) (world : World ι γ τ) (event : WorldEvent ι γ τ) : Prop :=
  world.CallsApart k event ∧
    ∀ reason draw, event = .escalate k reason draw → world.Idle k

def completedPhases (k : String) (world : World ι γ τ) : List WorkflowPhase :=
  (world.effects.filterMap (Effect.completion k)).map Prod.snd

def persisted (k : String) (world : World ι γ τ) : List WorkflowState :=
  world.effects.filterMap (Effect.savedState k)

theorem idle_view {k : String} {world : World ι γ τ} :
    (world.view k).Idle ↔ world.Idle k := by
  constructor
  · intro idle task frame suspended own
    simpa [view, suspended, Task.frameOn, own] using idle task
  · intro idle task
    cases state : world.tasks task with
    | fresh => simp [view, state, Task.frameOn]
    | done => simp [view, state, Task.frameOn]
    | suspended frame => simp [view, state, Task.frameOn, idle task frame state]

theorem callsApart_label {k : String} {world : World ι γ τ} {event : WorldEvent ι γ τ}
    (apart : world.CallsApart k event) : (world.view k).CallsApart (world.label k event) := by
  have labelled := label_labelled k world event
  generalize world.label k event = label at labelled ⊢
  cases labelled with
  | created request own => exact apart own
  | called task i call draw own => exact idle_view.mpr (apart own)
  | settled task outcome draw frame suspended own => trivial
  | escalated reason draw => trivial
  | other event => trivial

theorem sequential_label {k : String} {world : World ι γ τ} {event : WorldEvent ι γ τ}
    (sequential : world.Sequential k event) :
    (world.view k).Sequential (world.label k event) := by
  refine ⟨callsApart_label sequential.1, ?_⟩
  intro escalates
  obtain ⟨reason, draw, eventExact⟩ := label_eq_escalated escalates
  exact idle_view.mpr (sequential.2 reason draw eventExact)

theorem view_init (gateways : γ → Security.SecurityGateway) (k : String) :
    (World.init gateways : World ι γ τ).view k = ⟨none, fun _ => none, [], [], []⟩ := rfl

section Runs
variable [DecidableEq ι] [DecidableEq γ] [DecidableEq τ]
variable {config : ι → EngineeringWorkflow γ} {gateways : γ → Security.SecurityGateway}
variable {events : List (WorldEvent ι γ τ)} {world : World ι γ τ}

theorem row_last_run (run : Run (worldStep config) (World.init gateways) events world)
    (k : String) : world.store.load k = (world.persisted k).getLast? := by
  refine run.invariant (motive := fun world => (world.view k).row = (world.view k).saves.getLast?)
    rfl ?_
  intro before event after last fired
  exact Lifecycle.row_last last (step_lifecycle config k fired)

theorem inStep_run {k : String}
    (run : Run (Guarded (CallsApart k) (worldStep config)) (World.init gateways) events world) :
    (world.view k).InStep := by
  refine run.invariant (motive := fun world => (world.view k).InStep) ?_ ?_
  · rw [view_init]
    constructor <;> simp [Lifecycle.index]
  · intro before event after inStep fired
    exact inStep.step (callsApart_label fired.1) (step_lifecycle config k fired.2)

theorem growing_run {k : String}
    (run : Run (Guarded (Sequential k) (worldStep config)) (World.init gateways) events world) :
    (world.view k).InStep ∧ (world.view k).Growing := by
  refine run.invariant
    (motive := fun world => (world.view k).InStep ∧ (world.view k).Growing) ?_ ?_
  · rw [view_init]
    constructor
    · constructor <;> simp [Lifecycle.index]
    · constructor <;> simp
  · rintro before event after ⟨inStep, growing⟩ fired
    have step := step_lifecycle config k fired.2
    exact ⟨inStep.step (callsApart_label fired.1.1) step,
      growing.step inStep (sequential_label fired.1) step⟩

end Runs

/-- The law of phase order: what is completed, what is persisted, and how the
two grow. -/
structure PhaseOrder (k : String) (world : World ι γ τ) : Prop where
  stored : world.store.load k = (world.persisted k).getLast?
  progress : ∀ row, world.store.load k = some row →
    world.completedPhases k = WorkflowPhase.phases.take row.phaseIndex ∧
      row.phaseIndex ≤ WorkflowPhase.phases.length
  once : (world.completedPhases k).Nodup
  ordered : (world.persisted k).Pairwise fun earlier later =>
    earlier.phaseIndex ≤ later.phaseIndex ∧ earlier.events <+: later.events
  finished : ∀ state ∈ world.persisted k, state.status = .completed →
    state.phaseIndex = WorkflowPhase.phases.length

section Order
variable [DecidableEq ι] [DecidableEq γ] [DecidableEq τ]

theorem phases_completed_in_order (config : ι → EngineeringWorkflow γ)
    (gateways : γ → Security.SecurityGateway) {events : List (WorldEvent ι γ τ)}
    {world : World ι γ τ} (k : String)
    (run : Run (Guarded (Sequential k) (worldStep config)) (World.init gateways) events world) :
    PhaseOrder k world := by
  obtain ⟨inStep, growing⟩ := growing_run run
  have progress : world.completedPhases k =
      WorkflowPhase.phases.take (world.view k).index := inStep.progress
  constructor
  case stored => exact row_last_run run.of_guarded k
  case progress =>
    intro row found
    have counted : (world.view k).index = row.phaseIndex := by
      simp [Lifecycle.index, view, found]
    exact ⟨counted ▸ progress, counted ▸ inStep.bounded⟩
  case once =>
    rw [progress]
    exact WorkflowPhase.phases_nodup.sublist (List.take_sublist _ _)
  case ordered => exact inStep.ordered.and growing.ordered
  case finished => exact inStep.finished

/-! ### A run of one workflow -/

def engineers : Security.SecurityGateway where
  authorizer :=
    { roles := fun roleName => if roleName = "engineer" then
        some
          { name := "engineer"
            permissions :=
              [{ action := "read", resource := "*" }, { action := "write", resource := "*" }] }
        else none }

def engineering : EngineeringWorkflow Unit where
  security := ()
  principal := { id := "workflow", roles := ["engineer"] }

def feature : WorkflowRequest where
  objective := "Add feature X to product Y"
  repository := "product-y"
  id := ⟨1⟩
  objectiveGiven := by decide +kernel
  repositoryGiven := by decide +kernel

def sampleDraw : Draw where
  completion := ⟨0, "", ⟨2⟩⟩
  preparation := ⟨0, "", ⟨3⟩⟩
  approvalRequestId := ⟨4⟩
  answerId := ⟨5⟩
  eventId := ⟨6⟩

def done (phase : WorkflowPhase) : Outcome :=
  .returned { phase := phase, status := "completed", id := ⟨7⟩ }

def createdWorld : World Unit Unit ℕ :=
  (World.init fun _ => engineers).start feature

def underway : World Unit Unit ℕ :=
  createdWorld.invoke (fun _ => engineering) () 0 (.run feature.id.str) sampleDraw

theorem phases_completed_in_order_underway :
    ∃ world : World Unit Unit ℕ,
      world.completedPhases feature.id.str = [.understand, .retrieveKnowledge] ∧
        PhaseOrder feature.id.str world := by
  let later : List (WorldEvent Unit Unit ℕ) :=
    [.settle 0 (done .understand) sampleDraw, .settle 0 (done .retrieveKnowledge) sampleDraw]
  have reached : (later.foldlM (World.next fun _ => engineering) underway).map
      (completedPhases feature.id.str) = some [.understand, .retrieveKnowledge] := by
    decide +kernel
  obtain ⟨world, rest, completed⟩ := Option.map_eq_some_iff.mp reached
  have idle : createdWorld.Idle feature.id.str := fun _ _ suspended => nomatch suspended
  have created : Run (Guarded (Sequential feature.id.str) (worldStep fun _ => engineering))
      (World.init fun _ => engineers) [.start feature] createdWorld :=
    Run.single ⟨⟨fun _ => rfl, (fun _ _ same => nomatch same)⟩, rfl⟩
  have called : Run (Guarded (Sequential feature.id.str) (worldStep fun _ => engineering))
      (World.init fun _ => engineers)
      [.start feature, .call 0 () (.run feature.id.str) sampleDraw] underway :=
    created.snoc ⟨⟨fun _ => idle, (fun _ _ same => nomatch same)⟩, rfl⟩
  have apart : ∀ event ∈ later, ∀ world : World Unit Unit ℕ,
      Sequential feature.id.str world event := by
    intro event member world
    simp only [later, List.mem_cons, List.not_mem_nil, or_false] at member
    rcases member with rfl | rfl <;> exact ⟨trivial, fun _ _ same => nomatch same⟩
  have run := called.append ((Run.of_foldlM rest).guarded apart)
  exact ⟨world, completed,
    phases_completed_in_order (fun _ => engineering) (fun _ => engineers) _ run⟩

end Order
end World

end Eis.Workflows
