import Eis.Workflows.Escalation

/-!
# Terminal workflows that are written again

`run` and `resume` report a terminal workflow; `start` and `escalate` do not look
at the row that they replace.  What is stored of a terminal workflow stays as long
as it is neither started nor escalated again.
-/

set_option autoImplicit false

namespace Eis.Workflows

open Transition

variable {ι γ τ : Type}

namespace WorkflowState

def Terminal (state : WorkflowState) : Prop :=
  state.status = .completed ∨ state.status = .failed ∨ state.status = .escalated

theorem Terminal.not_resumable {state : WorkflowState} (terminal : state.Terminal) :
    ¬ state.Resumable := by
  unfold Terminal at terminal
  unfold Resumable
  rcases terminal with status | status | status <;> simp [status]

structure SameRecord (earlier later : WorkflowState) : Prop where
  status : later.status = earlier.status
  phaseIndex : later.phaseIndex = earlier.phaseIndex
  events : later.events = earlier.events

theorem SameRecord.refl (state : WorkflowState) : SameRecord state state := ⟨rfl, rfl, rfl⟩

end WorkflowState

namespace Lifecycle

section Step
variable [DecidableEq τ]

/-- A step that creates nothing, escalates nothing and ends operations without a
write leaves a terminal row alone, and starts no operation. -/
theorem terminal_step {life next : Lifecycle ι τ} {event : LifecycleEvent τ}
    {row : WorkflowState} (stored : life.row = some row) (terminal : row.Terminal)
    (uncreated : event ≠ .created) (unescalated : event ≠ .escalated)
    (stops : ∀ task outcome, event = .settled task outcome → outcome.Stops)
    (fired : LifecycleStep life event next) :
    next.row = some row ∧ next.starts = life.starts := by
  cases fired with
  | other => exact ⟨stored, rfl⟩
  | reported task free => exact ⟨stored, rfl⟩
  | created state index incomplete => exact absurd rfl uncreated
  | escalated other state found status index grows => exact absurd rfl unescalated
  | notEscalated absent => exact absurd rfl unescalated
  | called task base last written copy free found resumable lastExact writes =>
      obtain rfl := Option.some.inj (stored.symm.trans found)
      exact absurd resumable terminal.not_resumable
  | returned task event frame last written copy suspended lastExact writes =>
      exact (stops task _ rfl).elim
  | raised task message frame state suspended status index grows =>
      exact (stops task _ rfl).elim
  | stopped task outcome frame suspended quiet => exact ⟨stored, rfl⟩

end Step
end Lifecycle

namespace World

/-- The workflow is not started again, and not escalated. -/
def NotReopened (k : String) (_ : World ι γ τ) (event : WorldEvent ι γ τ) : Prop :=
  (∀ request, event = .start request → request.id.str ≠ k) ∧
    ∀ reason draw, event ≠ .escalate k reason draw

/-- What is stored of the workflow is as it was, and none of its operations was
called since. -/
structure RecordKept (k : String) (since now : World ι γ τ) : Prop where
  record : ∃ row row', since.store.load k = some row ∧ now.store.load k = some row' ∧
    row.SameRecord row'
  starts : now.startedOperations k = since.startedOperations k

theorem label_ne_escalated {k : String} {world : World ι γ τ} {event : WorldEvent ι γ τ}
    (closed : world.NotReopened k event) : world.label k event ≠ .escalated := by
  intro labelled
  obtain ⟨reason, draw, same⟩ := label_eq_escalated labelled
  exact closed.2 reason draw same

section Record
variable {k : String} {since : World ι γ τ}

theorem not_recordKept_start {world : World ι γ τ} {row : WorkflowState}
    {request : WorkflowRequest} (stored : since.store.load k = some row)
    (terminal : row.Terminal) (own : request.id.str = k) :
    ¬ RecordKept k since (world.start request) := by
  intro kept
  obtain ⟨row', state, stored', created, same⟩ := kept.record
  obtain rfl := Option.some.inj (stored.symm.trans stored')
  have keyed : WorkflowState.key { request := request } = k := own
  have written : (world.start request).store.load k = some { request := request } := by
    simp [start, save, WorkflowStore.load_save, keyed]
  obtain rfl := Option.some.inj (written.symm.trans created)
  have status := same.status
  unfold WorkflowState.Terminal at terminal
  rcases terminal with ended | ended | ended <;> rw [ended] at status <;> cases status

theorem not_recordKept_escalate {world : World ι γ τ} {reason : String} {draw : Draw}
    (before : RecordKept k since world) :
    ¬ RecordKept k since (world.escalate k reason draw) := by
  intro kept
  obtain ⟨row, current, stored, found, same⟩ := before.record
  obtain ⟨row', state, stored', escalated, same'⟩ := kept.record
  obtain rfl := Option.some.inj (stored.symm.trans stored')
  have keyed : (current.escalated reason draw.eventId).key = k :=
    (WorkflowStore.load_key found : current.key = k)
  have written : (world.escalate k reason draw).store.load k =
      some (current.escalated reason draw.eventId) := by
    simp [escalate, found, emit, save, WorkflowStore.load_save, keyed]
  obtain rfl := Option.some.inj (written.symm.trans escalated)
  have lengths := congrArg List.length (same'.events.trans same.events.symm)
  simp [WorkflowState.escalated] at lengths

end Record

section Runs
variable [DecidableEq ι] [DecidableEq γ] [DecidableEq τ]
variable {config : ι → EngineeringWorkflow γ} {k : String} {since : World ι γ τ}

theorem run_terminal {row : WorkflowState} (stored : since.store.load k = some row)
    (terminal : row.Terminal) {now : World ι γ τ} {events : List (WorldEvent ι γ τ)}
    (run : Run (Guarded (NotReopened k) (Guarded (OnlyStops k) (worldStep config))) since events
      now) :
    now.store.load k = some row ∧ now.startedOperations k = since.startedOperations k := by
  refine run.invariant (motive := fun world => world.store.load k = some row ∧
    world.startedOperations k = since.startedOperations k) ⟨stored, rfl⟩ ?_
  rintro before event after ⟨found, starts⟩ ⟨closed, stops, fired⟩
  have stored : (before.view k).row = some row := found
  obtain ⟨kept, same⟩ := Lifecycle.terminal_step stored terminal
    (label_ne_created closed.1) (label_ne_escalated closed) (onlyStops_label.mp stops)
    (step_lifecycle config k fired)
  exact ⟨kept, same.trans starts⟩

/-- As long as operations of the workflow that are still in flight end without a
write, what is stored of a terminal workflow is kept in every state of a run exactly
when the run neither starts nor escalates it again. -/
theorem terminal_kept_iff (config : ι → EngineeringWorkflow γ) {k : String}
    {since now : World ι γ τ} {events : List (WorldEvent ι γ τ)}
    (ended : ∃ row, since.store.load k = some row ∧ row.Terminal) :
    Run (fun before event after => Guarded (OnlyStops k) (worldStep config) before event after ∧
        RecordKept k since after) since events now ↔
      Run (Guarded (NotReopened k) (Guarded (OnlyStops k) (worldStep config))) since events
        now := by
  obtain ⟨row, stored, terminal⟩ := ended
  constructor
  · intro run
    induction run with
    | nil => exact Run.nil
    | @snoc past event before after run last ih =>
        obtain ⟨fired, kept⟩ := last
        obtain ⟨found, starts⟩ := run_terminal stored terminal ih
        have keptBefore : RecordKept k since before :=
          ⟨⟨row, row, stored, found, .refl row⟩, starts⟩
        refine ih.snoc ⟨⟨?_, ?_⟩, fired⟩
        · rintro request rfl own
          obtain rfl := Option.some.inj fired.2
          exact not_recordKept_start stored terminal own kept
        · rintro reason draw rfl
          obtain rfl := Option.some.inj fired.2
          exact not_recordKept_escalate keptBefore kept
  · intro run
    induction run with
    | nil => exact Run.nil
    | snoc past last ih =>
        obtain ⟨found, starts⟩ := run_terminal stored terminal (past.snoc last)
        exact ih.snoc ⟨last.2, ⟨row, row, stored, found, .refl row⟩, starts⟩

end Runs

/-! ### A workflow that has failed -/

def failedWorld : World Unit Unit ℕ :=
  (underway.next (fun _ => engineering)
    (.settle 0 (.raised "no such product") sampleDraw)).getD underway

theorem failedWorld_reached : worldStep (fun _ => engineering) underway
    (.settle 0 (.raised "no such product") sampleDraw) failedWorld := by
  have settled : (underway.next (fun _ => engineering)
      (.settle 0 (.raised "no such product") sampleDraw)).isSome = true := by decide +kernel
  obtain ⟨now, fired⟩ := Option.isSome_iff_exists.mp settled
  unfold worldStep failedWorld
  rw [fired]
  rfl

theorem failedWorld_terminal :
    ∃ row, failedWorld.store.load feature.id.str = some row ∧ row.Terminal := by
  have status : (failedWorld.store.load feature.id.str).map WorkflowState.status =
      some .failed := by decide +kernel
  obtain ⟨row, stored, failed⟩ := Option.map_eq_some_iff.mp status
  exact ⟨row, stored, Or.inr (Or.inl failed)⟩

/-- A further run is reported. -/
theorem terminal_kept_iff_failed :
    ∃ now, worldStep (fun _ => engineering) failedWorld
        (.call 1 () (.run feature.id.str) sampleDraw) now ∧
      RecordKept feature.id.str failedWorld now := by
  have called : (failedWorld.next (fun _ => engineering)
      (.call 1 () (.run feature.id.str) sampleDraw)).isSome = true := by decide +kernel
  obtain ⟨now, fired⟩ := Option.isSome_iff_exists.mp called
  have closed : NotReopened feature.id.str failedWorld
      (.call 1 () (.run feature.id.str) sampleDraw) := by
    constructor
    · intro request same
      cases same
    · intro reason draw same
      cases same
  have stops : OnlyStops feature.id.str failedWorld
      (.call 1 () (.run feature.id.str) sampleDraw) := by
    intro task outcome draw frame same
    cases same
  have run := (terminal_kept_iff (fun _ => engineering) failedWorld_terminal).mpr
    (Run.single ⟨closed, stops, fired⟩)
  exact ⟨now, fired, run.established (List.cons_ne_nil _ _)⟩

/-- The failed workflow is started again with the same request and executes its
first phase once more; or it is escalated, and its status changes. -/
theorem terminal_reopened :
    worldStep (fun _ => engineering) underway
      (.settle 0 (.raised "no such product") sampleDraw) failedWorld ∧
    (∃ restarted now,
      worldStep (fun _ => engineering) failedWorld (.start feature) restarted ∧
      worldStep (fun _ => engineering) restarted
        (.call 1 () (.run feature.id.str) sampleDraw) now ∧
      ¬ RecordKept feature.id.str failedWorld restarted ∧
      now.startedOperations feature.id.str ≠ failedWorld.startedOperations feature.id.str) ∧
    ∃ now, worldStep (fun _ => engineering) failedWorld
        (.escalate feature.id.str "needs a decision" sampleDraw) now ∧
      ¬ RecordKept feature.id.str failedWorld now := by
  obtain ⟨row, stored, terminal⟩ := failedWorld_terminal
  refine ⟨failedWorld_reached, ?_, ?_⟩
  · have called : (((failedWorld.start feature).next (fun _ => engineering)
        (.call 1 () (.run feature.id.str) sampleDraw)).map fun now =>
          (now.startedOperations feature.id.str).length) = some 2 := by decide +kernel
    obtain ⟨now, fired, again⟩ := Option.map_eq_some_iff.mp called
    have once : (failedWorld.startedOperations feature.id.str).length = 1 := by decide +kernel
    refine ⟨failedWorld.start feature, now, rfl, fired,
      not_recordKept_start stored terminal rfl, ?_⟩
    intro same
    rw [same, once] at again
    cases again
  · have untouched : RecordKept feature.id.str failedWorld failedWorld :=
      ⟨⟨row, row, stored, stored, .refl row⟩, rfl⟩
    exact ⟨_, rfl, not_recordKept_escalate untouched⟩

end World

end Eis.Workflows
