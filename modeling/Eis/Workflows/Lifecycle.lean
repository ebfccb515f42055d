import Eis.Foundation.Run
import Eis.Workflows.Runtime

/-!
# The life of one workflow

What the calls on one workflow do to it, whatever else goes on in the world: a
row that is read when a call begins, private copies of it that the suspended
calls work on, and rows written back without a look at the one they replace.
A call works on the phase of its copy until the operation of the phase returns.
-/

set_option autoImplicit false

namespace Eis.Workflows

open Transition

variable {ι τ : Type}

/-- `saves`, `completions` and `starts` are the history of the workflow: every
state written, every operation that returned and every operation called. -/
@[ext] structure Lifecycle (ι τ : Type) where
  row : Option WorkflowState
  copies : τ → Option (Frame ι)
  saves : List WorkflowState
  completions : List (τ × WorkflowPhase)
  starts : List (τ × WorkflowPhase)

inductive LifecycleEvent (τ : Type) where
  | other
  | created
  | escalated
  | called (task : τ)
  | settled (task : τ) (outcome : Outcome)

namespace WorkflowState

def Extends (later earlier : WorkflowState) : Prop :=
  earlier.events <+: later.events

def Resumable (state : WorkflowState) : Prop :=
  state.status = .pending ∨ state.status = .running ∨ state.status = .waitingApproval

end WorkflowState

/-- What a call writes from `base` on until it is suspended with a copy or
ends: states of the same phase whose events grow, and a completed state only
when no phase is left. -/
structure Writes (base : WorkflowState) (written : List WorkflowState)
    (copy : Option (Frame ι)) : Prop where
  samePhase : ∀ state ∈ written, state.phaseIndex = base.phaseIndex
  grows : (base :: written).Pairwise fun earlier later => later.Extends earlier
  exhausted : ∀ state ∈ written, state.status = .completed → base.phase = none
  held : ∀ frame, copy = some frame → frame.current.phaseIndex = base.phaseIndex ∧
    base.phase = some frame.phase ∧
    ∀ state ∈ (base :: written).getLast?, state.events = frame.current.events

namespace Writes

variable {base next : WorkflowState} {written : List WorkflowState} {copy : Option (Frame ι)}

theorem extends_base (writes : Writes base written copy) :
    ∀ state ∈ written, state.Extends base :=
  (List.pairwise_cons.mp writes.grows).1

theorem suspend {frame : Frame ι} (current : frame.current = base)
    (atPhase : base.phase = some frame.phase) : Writes base [] (some frame) where
  samePhase := by simp
  grows := by simp
  exhausted := by simp
  held := by
    intro other same
    obtain rfl := Option.some.inj same
    simp [current, atPhase]

theorem finish {state : WorkflowState} (index : state.phaseIndex = base.phaseIndex)
    (grows : state.Extends base) (exhausted : state.status = .completed → base.phase = none) :
    Writes base [state] (none : Option (Frame ι)) where
  samePhase := by simpa using index
  grows := by simpa using grows
  exhausted := by simpa using exhausted
  held := by simp

theorem cons (index : next.phaseIndex = base.phaseIndex) (grows : next.Extends base)
    (incomplete : next.status ≠ .completed) (writes : Writes next written copy) :
    Writes base (next :: written) copy where
  samePhase := by
    intro state member
    rcases List.mem_cons.mp member with rfl | later
    · exact index
    · exact (writes.samePhase state later).trans index
  grows := by
    refine List.pairwise_cons.mpr ⟨?_, writes.grows⟩
    intro state member
    rcases List.mem_cons.mp member with rfl | later
    · exact grows
    · exact List.IsPrefix.trans grows (writes.extends_base state later)
  exhausted := by
    intro state member status
    have samePhase : base.phase = next.phase := by simp [WorkflowState.phase, index]
    rw [samePhase]
    rcases List.mem_cons.mp member with rfl | later
    · exact absurd status incomplete
    · exact writes.exhausted state later status
  held := by
    intro frame suspended
    obtain ⟨sameIndex, atPhase, events⟩ := writes.held frame suspended
    refine ⟨sameIndex.trans index, ?_, by simpa using events⟩
    rw [← atPhase]
    simp [WorkflowState.phase, index]

end Writes

def startedBy (task : τ) (copy : Option (Frame ι)) : List (τ × WorkflowPhase) :=
  (copy.map fun frame => (task, frame.phase)).toList

section Step
variable [DecidableEq τ]

inductive LifecycleStep : Lifecycle ι τ → LifecycleEvent τ → Lifecycle ι τ → Prop where
  | other (life : Lifecycle ι τ) : LifecycleStep life .other life
  | created (life : Lifecycle ι τ) (state : WorkflowState) (index : state.phaseIndex = 0)
      (incomplete : state.status ≠ .completed) :
      LifecycleStep life .created
        { life with row := some state, saves := life.saves ++ [state] }
  | escalated (life : Lifecycle ι τ) (row state : WorkflowState) (stored : life.row = some row)
      (status : state.status = .escalated) (index : state.phaseIndex = row.phaseIndex)
      (grows : state.Extends row) :
      LifecycleStep life .escalated
        { life with row := some state, saves := life.saves ++ [state] }
  | notEscalated (life : Lifecycle ι τ) (absent : life.row = none) :
      LifecycleStep life .escalated life
  | reported (life : Lifecycle ι τ) (task : τ) (free : life.copies task = none) :
      LifecycleStep life (.called task) life
  | called (life : Lifecycle ι τ) (task : τ) (row last : WorkflowState)
      (written : List WorkflowState) (copy : Option (Frame ι))
      (free : life.copies task = none) (stored : life.row = some row)
      (resumable : row.Resumable) (lastExact : written.getLast? = some last)
      (writes : Writes row written copy) :
      LifecycleStep life (.called task)
        { row := some last
          copies := Function.update life.copies task copy
          saves := life.saves ++ written
          completions := life.completions
          starts := life.starts ++ startedBy task copy }
  | returned (life : Lifecycle ι τ) (task : τ) (event : WorkflowEvent) (frame : Frame ι)
      (last : WorkflowState) (written : List WorkflowState) (copy : Option (Frame ι))
      (suspended : life.copies task = some frame)
      (lastExact : (frame.current.advance event :: written).getLast? = some last)
      (writes : Writes (frame.current.advance event) written copy) :
      LifecycleStep life (.settled task (.returned event))
        { row := some last
          copies := Function.update life.copies task copy
          saves := life.saves ++ frame.current.advance event :: written
          completions := life.completions ++ [(task, frame.phase)]
          starts := life.starts ++ startedBy task copy }
  | raised (life : Lifecycle ι τ) (task : τ) (message : String) (frame : Frame ι)
      (state : WorkflowState) (suspended : life.copies task = some frame)
      (status : state.status = .failed)
      (index : state.phaseIndex = frame.current.phaseIndex) (grows : state.Extends frame.current) :
      LifecycleStep life (.settled task (.raised message))
        { life with
          row := some state
          copies := Function.update life.copies task none
          saves := life.saves ++ [state] }
  | stopped (life : Lifecycle ι τ) (task : τ) (outcome : Outcome) (frame : Frame ι)
      (suspended : life.copies task = some frame)
      (quiet : (∃ message, outcome = .escalated message) ∨ outcome = .cancelled) :
      LifecycleStep life (.settled task outcome)
        { life with copies := Function.update life.copies task none }

end Step

end Eis.Workflows
