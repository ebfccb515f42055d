import Eis.Workflows.PhaseOrder

/-!
# Escalations and the calls they find suspended

`escalate` writes a row; a suspended call does not see it and writes its own
copy back when the operation returns or fails.  The escalation stays exactly as
long as every operation in flight ends in a `WorkflowEscalation` or is
cancelled.
-/

set_option autoImplicit false

namespace Eis.Workflows

open Eis.Security Transition

variable {ι γ τ : Type}

def Outcome.Stops : Outcome → Prop
  | .escalated _ => True
  | .cancelled => True
  | _ => False

/-! ## One workflow -/

namespace Lifecycle

/-- Since then nothing but escalations was written and nothing was started. -/
structure Untouched (since life : Lifecycle ι τ) : Prop where
  writes : ∃ later, life.saves = since.saves ++ later ∧
    ∀ state ∈ later, state.status = .escalated
  starts : life.starts = since.starts

structure Kept (since life : Lifecycle ι τ) : Prop extends Untouched since life where
  status : ∃ row, life.row = some row ∧ row.status = .escalated

theorem Untouched.refl (life : Lifecycle ι τ) : Untouched life life :=
  ⟨⟨[], by simp, by simp⟩, rfl⟩

section Step
variable [DecidableEq τ]

theorem history_grows {life next : Lifecycle ι τ} {event : LifecycleEvent τ}
    (fired : LifecycleStep life event next) :
    life.saves <+: next.saves ∧ life.starts <+: next.starts := by
  cases fired <;> exact ⟨by simp, by simp⟩

theorem Kept.step {since life next : Lifecycle ι τ} {event : LifecycleEvent τ}
    (kept : Kept since life) (uncreated : event ≠ .created)
    (stops : ∀ task outcome, event = .settled task outcome → outcome.Stops)
    (fired : LifecycleStep life event next) : Kept since next := by
  cases fired with
  | other => exact kept
  | notEscalated absent => exact kept
  | reported task free => exact kept
  | created state index incomplete => exact absurd rfl uncreated
  | escalated row state stored status index grows =>
      obtain ⟨later, saves, escalated⟩ := kept.writes
      refine ⟨⟨⟨later ++ [state], by simp [saves], ?_⟩, kept.starts⟩, state, rfl, status⟩
      intro written member
      rcases List.mem_append.mp member with earlier | same
      · exact escalated written earlier
      · obtain rfl : written = state := by simpa using same
        exact status
  | called task row last written copy free stored resumable lastExact writes =>
      obtain ⟨stopped, found, status⟩ := kept.status
      obtain rfl : row = stopped := Option.some.inj (stored.symm.trans found)
      unfold WorkflowState.Resumable at resumable
      simp [status] at resumable
  | returned task event frame last written copy suspended lastExact writes =>
      exact absurd (stops task _ rfl) id
  | raised task message frame state suspended status index grows =>
      exact absurd (stops task _ rfl) id
  | stopped task outcome frame suspended quiet => exact ⟨⟨kept.writes, kept.starts⟩, kept.status⟩

theorem Untouched.of_step {since life next : Lifecycle ι τ} {event : LifecycleEvent τ}
    (untouched : Untouched since next) (saved : since.saves <+: life.saves)
    (started : since.starts <+: life.starts) (fired : LifecycleStep life event next) :
    Untouched since life ∧ ∀ task outcome, event = .settled task outcome → outcome.Stops := by
  obtain ⟨middle, saves⟩ := saved
  obtain ⟨later, after, escalated⟩ := untouched.writes
  obtain ⟨⟨fresh, grown⟩, startsGrown⟩ := history_grows fired
  have laterExact : later = middle ++ fresh := by
    rw [← saves, List.append_assoc] at grown
    exact (List.append_cancel_left (grown.trans after)).symm
  have same : life.starts = since.starts :=
    (started.eq_of_length_le (untouched.starts ▸ startsGrown.length_le)).symm
  refine ⟨⟨⟨middle, saves.symm, ?_⟩, same⟩, ?_⟩
  · intro state member
    exact escalated state (laterExact ▸ List.mem_append_left fresh member)
  · intro task outcome settled
    subst settled
    have written : ∀ state ∈ fresh, state.status = .escalated := by
      intro state member
      exact escalated state (laterExact ▸ List.mem_append_right middle member)
    cases fired with
    | returned task event frame last written' copy suspended lastExact writes =>
        obtain rfl := List.append_cancel_left grown
        have running := written (frame.current.advance event) (List.mem_cons_self)
        cases running
    | raised task message frame state suspended status index grows =>
        obtain rfl := List.append_cancel_left grown
        have failed := written state (List.mem_cons_self)
        rw [status] at failed
        cases failed
    | stopped task outcome frame suspended quiet =>
        rcases quiet with ⟨message, rfl⟩ | rfl <;> trivial

end Step
end Lifecycle

/-! ## The world -/

namespace World

def startedOperations (k : String) (world : World ι γ τ) : List (τ × WorkflowPhase) :=
  world.effects.filterMap (Effect.execution k)

def NotCreated (k : String) (_ : World ι γ τ) (event : WorldEvent ι γ τ) : Prop :=
  ∀ request, event = .start request → request.id.str ≠ k

/-- An operation of the workflow that is settled ends its call without a write. -/
def OnlyStops (k : String) (world : World ι γ τ) (event : WorldEvent ι γ τ) : Prop :=
  ∀ task outcome draw frame, event = .settle task outcome draw →
    world.tasks task = .suspended frame → frame.current.key = k → outcome.Stops

/-- The persisted status has been `ESCALATED` in every write since and is so
now, and no operation of the workflow was called. -/
structure EscalationKept (k : String) (since now : World ι γ τ) : Prop where
  status : ∃ row, now.store.load k = some row ∧ row.status = .escalated
  writes : ∃ later, now.persisted k = since.persisted k ++ later ∧
    ∀ state ∈ later, state.status = .escalated
  starts : now.startedOperations k = since.startedOperations k

theorem label_ne_created {k : String} {world : World ι γ τ} {event : WorldEvent ι γ τ}
    (uncreated : world.NotCreated k event) : world.label k event ≠ .created := by
  intro created
  have labelled := label_labelled k world event
  rw [created] at labelled
  cases labelled with
  | created request own => exact uncreated request rfl own

theorem label_eq_settled_iff {k : String} {world : World ι γ τ} {event : WorldEvent ι γ τ}
    {task : τ} {outcome : Outcome} :
    world.label k event = .settled task outcome ↔ ∃ draw frame,
      event = .settle task outcome draw ∧ world.tasks task = .suspended frame ∧
        frame.current.key = k := by
  constructor
  · intro settled
    have labelled := label_labelled k world event
    rw [settled] at labelled
    cases labelled with
    | settled _ _ draw frame suspended own => exact ⟨draw, frame, rfl, suspended, own⟩
  · intro ⟨draw, frame, settled, suspended, own⟩
    subst settled
    simp only [label, frameOn_eq_some_iff.mpr ⟨suspended, own⟩]

theorem onlyStops_label {k : String} {world : World ι γ τ} {event : WorldEvent ι γ τ} :
    world.OnlyStops k event ↔
      ∀ task outcome, world.label k event = .settled task outcome → outcome.Stops := by
  constructor
  · intro stops task outcome labelled
    obtain ⟨draw, frame, settled, suspended, own⟩ := label_eq_settled_iff.mp labelled
    exact stops task outcome draw frame settled suspended own
  · intro stops task outcome draw frame settled suspended own
    exact stops task outcome (label_eq_settled_iff.mpr ⟨draw, frame, settled, suspended, own⟩)

section Runs
variable [DecidableEq ι] [DecidableEq γ] [DecidableEq τ]
variable {config : ι → EngineeringWorkflow γ} {k : String} {since now : World ι γ τ}
variable {events : List (WorldEvent ι γ τ)}

theorem history_run {step : World ι γ τ → WorldEvent ι γ τ → World ι γ τ → Prop}
    (fires : ∀ a event b, step a event b → worldStep config a event b)
    (run : Run step since events now) :
    (since.view k).saves <+: (now.view k).saves ∧
      (since.view k).starts <+: (now.view k).starts := by
  induction run with
  | nil => exact ⟨List.prefix_rfl, List.prefix_rfl⟩
  | snoc _ last ih =>
      have grows := Lifecycle.history_grows (step_lifecycle config k (fires _ _ _ last))
      exact ⟨ih.1.trans grows.1, ih.2.trans grows.2⟩

theorem kept_run (start : Lifecycle.Kept (since.view k) (since.view k))
    (run : Run (Guarded (OnlyStops k) (Guarded (NotCreated k) (worldStep config))) since events
      now) : Lifecycle.Kept (since.view k) (now.view k) := by
  refine run.invariant
    (motive := fun world => Lifecycle.Kept (since.view k) (world.view k)) start ?_
  intro before event after kept fired
  exact kept.step (label_ne_created fired.2.1) (onlyStops_label.mp fired.1)
    (step_lifecycle config k fired.2.2)

theorem untouched_run (run : Run (Guarded (NotCreated k) (worldStep config)) since events now)
    (untouched : Lifecycle.Untouched (since.view k) (now.view k)) :
    Run (Guarded (OnlyStops k) (Guarded (NotCreated k) (worldStep config))) since events now := by
  induction run with
  | nil => exact Run.nil
  | snoc run last ih =>
      have grown := history_run (k := k) (fun _ _ _ fired => fired.2) run
      obtain ⟨before, stops⟩ :=
        untouched.of_step grown.1 grown.2 (step_lifecycle config k last.2)
      exact (ih before).snoc ⟨onlyStops_label.mpr stops, last⟩

/-- After an escalation of a stored workflow, and as long as it is not created
anew, the escalation is kept exactly in the runs in which every operation of
the workflow that is settled ends in a `WorkflowEscalation` or is cancelled. -/
theorem escalation_kept_iff (config : ι → EngineeringWorkflow γ) {world since now : World ι γ τ}
    {k reason : String} {draw : Draw} {events : List (WorldEvent ι γ τ)}
    (present : ∃ row, world.store.load k = some row)
    (escalated : worldStep config world (.escalate k reason draw) since)
    (run : Run (Guarded (NotCreated k) (worldStep config)) since events now) :
    EscalationKept k since now ↔
      Run (Guarded (OnlyStops k) (Guarded (NotCreated k) (worldStep config))) since events now := by
  constructor
  · intro kept
    exact untouched_run run ⟨kept.writes, kept.starts⟩
  · intro stops
    obtain ⟨row, stored⟩ := present
    have written : since.store.load k = some (row.escalated reason draw.eventId) := by
      obtain rfl := Option.some.inj escalated
      have rowKey := WorkflowStore.load_key stored
      have keyed : (row.escalated reason draw.eventId).key = k := rowKey
      simp [escalate, stored, emit, save, WorkflowStore.load_save, keyed]
    have kept := kept_run ⟨Lifecycle.Untouched.refl _, _, written, rfl⟩ stops
    exact ⟨kept.status, kept.writes, kept.starts⟩

/-! ### An escalation of a workflow that is underway -/

def escalatedWorld : World Unit Unit ℕ :=
  underway.escalate feature.id.str "production scope requires a human decision" sampleDraw

theorem escalation_kept_iff_stopped :
    ∃ now, worldStep (fun _ => engineering) escalatedWorld
        (.settle 0 (.escalated "out of scope") sampleDraw) now ∧
      EscalationKept feature.id.str escalatedWorld now := by
  have stored : (underway.store.load feature.id.str).isSome = true := by decide +kernel
  have settled : (escalatedWorld.next (fun _ => engineering)
      (.settle 0 (.escalated "out of scope") sampleDraw)).isSome = true := by decide +kernel
  obtain ⟨now, fired⟩ := Option.isSome_iff_exists.mp settled
  have uncreated : NotCreated feature.id.str escalatedWorld
      (.settle 0 (.escalated "out of scope") sampleDraw) := fun _ same => nomatch same
  have stops : OnlyStops feature.id.str escalatedWorld
      (.settle 0 (.escalated "out of scope") sampleDraw) := by
    intro task outcome draw frame same _ _
    cases same
    trivial
  exact ⟨now, fired, (escalation_kept_iff (fun _ => engineering)
    (Option.isSome_iff_exists.mp stored) rfl (Run.single ⟨uncreated, fired⟩)).mpr
      (Run.single ⟨stops, uncreated, fired⟩)⟩

/-- The operation returns, and the workflow runs on. -/
theorem escalation_overwritten :
    ∃ now, worldStep (fun _ => engineering) underway (.escalate feature.id.str
        "production scope requires a human decision" sampleDraw) escalatedWorld ∧
      worldStep (fun _ => engineering) escalatedWorld
        (.settle 0 (done .understand) sampleDraw) now ∧
      (now.store.load feature.id.str).map WorkflowState.status = some .running ∧
      ¬ EscalationKept feature.id.str escalatedWorld now := by
  have reached : (escalatedWorld.next (fun _ => engineering)
      (.settle 0 (done .understand) sampleDraw)).map (fun now =>
        (now.store.load feature.id.str).map WorkflowState.status) = some (some .running) := by
    decide +kernel
  obtain ⟨now, fired, status⟩ := Option.map_eq_some_iff.mp reached
  refine ⟨now, rfl, fired, status, ?_⟩
  intro kept
  obtain ⟨row, stored, escalated⟩ := kept.status
  rw [stored, Option.map_some, escalated] at status
  cases status

end Runs
end World

end Eis.Workflows
