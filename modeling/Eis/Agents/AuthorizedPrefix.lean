import Eis.Agents.Runtime
import Eis.Foundation.Run

/-!
# Plans run as an authorized prefix

The steps of a plan are taken in order, each behind its checks, and the first
one that fails ends the run.
-/

set_option autoImplicit false

namespace Eis.Agents.AgentRuntime

open Transition

variable {σ ω ε : Type}

section Steps
variable (runtime : AgentRuntime σ ω ε) (agent : Agent) (steps : List AgentStep)

/-- What has happened when the tool of step `index` is invoked. -/
structure Cleared (index : ℕ) (past : List (AgentEvent ω)) : Prop where
  permitted : ∃ step invoke, steps[index]? = some step ∧
    runtime.tools step.action = some invoke ∧ permitted agent step = true
  policies : ∀ policy, policy < runtime.policies.length → .allowed index policy ∈ past
  earlier : ∀ before, before < index → ∃ output, .returned before output ∈ past

def Gate (event : AgentEvent ω) (past : List (AgentEvent ω)) : Prop :=
  ∀ index, event = .invoked index → Cleared runtime agent steps index past

/-- The invariant of the loop: `count` steps have returned. -/
structure Reached (count : ℕ) (progress : Progress σ ω) : Prop where
  gated : Preceded (Gate runtime agent steps) progress.trace
  outputs : ∀ index output, .returned index output ∈ progress.trace ↔
    progress.observations[index]? = some output
  length : progress.observations.length = count

def ToolCancelled : Prop :=
  ∃ step ∈ steps, ∃ invoke world, runtime.tools step.action = some invoke ∧
    (invoke world step).2 = .cancelled

def Ended (progress : Progress σ ω) : Outcome (Option ω) (AgentException ε) → Prop
  | .returned _ => Reached runtime agent steps steps.length progress
  | .raised _ => ∃ failing, failing < steps.length ∧ Reached runtime agent steps failing progress
  | .cancelled => ToolCancelled runtime steps ∧
      ∃ failing, failing < steps.length ∧ Reached runtime agent steps failing progress

end Steps

section Law
variable (runtime : AgentRuntime σ ω ε) (agent : Agent) (task : AgentTask) (world : σ)

def AllRan : Prop :=
  (∃ plan, (runtime.planner world agent task).2 = .ok plan) ∧
    ∀ index, index < (runtime.planned agent task world).length →
      ∃ output, .returned index output ∈ (runtime.run agent task world).1.trace

def Completed : Prop :=
  ∃ result, (runtime.run agent task world).2 = .returned result ∧ result.state = .complete

/-- The law of a run: invocations are gated and stop at the first failure, COMPLETE
means that all steps ran, and the observations are the outputs in order.  A
handler takes over from a failed run. -/
structure AuthorizedPrefix : Prop where
  gated : ∀ past index later,
    (runtime.run agent task world).1.trace = past ++ .invoked index :: later →
      Cleared runtime agent (runtime.planned agent task world) index past
  stopped : ∀ failing,
    (∀ output, .returned failing output ∉ (runtime.run agent task world).1.trace) →
      ∀ later, failing < later → .invoked later ∉ (runtime.run agent task world).1.trace
  completed : runtime.AllRan agent task world → runtime.Completed agent task world
  completedOnly : runtime.escalation = none →
    runtime.Completed agent task world → runtime.AllRan agent task world
  observed : runtime.escalation = none → ∀ result,
    (runtime.run agent task world).2 = .returned result → ∀ index output,
      result.observations[index]? = some output ↔
        .returned index output ∈ (runtime.run agent task world).1.trace
  answered : runtime.escalation = none →
    (∃ result, (runtime.run agent task world).2 = .returned result) ∨
      (runtime.run agent task world).2 = .cancelled ∧
        ToolCancelled runtime (runtime.planned agent task world)
  takenOver : ∀ handler, runtime.escalation = some handler →
    ¬ runtime.AllRan agent task world →
      (runtime.run agent task world).2 = .cancelled ∨
        ∃ current exception,
          (runtime.run agent task world).2 = (handler current agent task exception).2

end Law

section Loop
variable {runtime : AgentRuntime σ ω ε} {agent : Agent} {steps : List AgentStep}
  {progress next : Progress σ ω} {count : ℕ}

theorem Reached.of_eq (reached : Reached runtime agent steps count progress)
    (sameTrace : next.trace = progress.trace)
    (sameObservations : next.observations = progress.observations) :
    Reached runtime agent steps count next := by
  constructor
  case gated => exact sameTrace ▸ reached.gated
  case outputs =>
    intro index output
    rw [sameTrace, sameObservations]
    exact reached.outputs index output
  case length => exact sameObservations ▸ reached.length

theorem Reached.emit (reached : Reached runtime agent steps count progress)
    (emission : Emission ω) :
    Reached runtime agent steps count (runtime.emit progress emission) :=
  reached.of_eq (by simp) (by simp)

theorem Reached.moved (reached : Reached runtime agent steps count progress) (world : σ) :
    Reached runtime agent steps count { progress with world := world } :=
  reached.of_eq rfl rfl

theorem Reached.start (world : σ) :
    Reached runtime agent steps 0 ({ world := world } : Progress σ ω) := by
  constructor
  case gated => exact Preceded.nil
  case outputs => simp
  case length => rfl

theorem Reached.allowed (reached : Reached runtime agent steps count progress)
    (index policy : ℕ) (world : σ) :
    Reached runtime agent steps count
      { progress with
        world := world
        trace := progress.trace ++ [.allowed index policy] } := by
  constructor
  case gated =>
    refine reached.gated.snoc ?_
    intro invoked impossible
    cases impossible
  case outputs => simpa using reached.outputs
  case length => exact reached.length

theorem Reached.invoked (reached : Reached runtime agent steps count progress) {index : ℕ}
    (cleared : Cleared runtime agent steps index progress.trace) (world : σ) :
    Reached runtime agent steps count
      { progress with
        world := world
        trace := progress.trace ++ [.invoked index] } := by
  constructor
  case gated =>
    refine reached.gated.snoc ?_
    intro invoked same
    obtain rfl : index = invoked := by simpa using same
    exact cleared
  case outputs => simpa using reached.outputs
  case length => exact reached.length

theorem Reached.returned (reached : Reached runtime agent steps count progress) (output : ω) :
    Reached runtime agent steps (count + 1)
      { progress with
        observations := progress.observations ++ [output]
        trace := progress.trace ++ [.returned count output] } := by
  constructor
  case gated =>
    refine reached.gated.snoc ?_
    intro invoked impossible
    cases impossible
  case outputs =>
    intro index own
    have last := reached.length
    rw [List.mem_append, reached.outputs, List.mem_singleton, List.getElem?_append]
    by_cases earlier : index < progress.observations.length
    · have other : index ≠ count := by omega
      simp [earlier, other]
    · by_cases here : index = count
      · simp [here, ← last, eq_comm]
      · have beyond : index - progress.observations.length ≠ 0 := by omega
        simp [earlier, here, beyond]
  case length => simp [reached.length]

theorem Reached.earlier (reached : Reached runtime agent steps count progress) {before : ℕ}
    (earlier : before < count) : ∃ output, .returned before output ∈ progress.trace := by
  have bound : before < progress.observations.length := by rw [reached.length]; exact earlier
  exact ⟨progress.observations[before], (reached.outputs _ _).mpr (by simp [bound])⟩

theorem Reached.lt_of_returned (reached : Reached runtime agent steps count progress)
    {index : ℕ} {output : ω} (returned : .returned index output ∈ progress.trace) :
    index < count := by
  have observed := (reached.outputs index output).mp returned
  rw [← reached.length]
  exact (List.getElem?_eq_some_iff.mp observed).1

theorem Reached.unfinished {failing : ℕ}
    (reached : Reached runtime agent steps failing progress) (planned : failing < steps.length) :
    ¬ ∀ index, index < steps.length → ∃ output, .returned index output ∈ progress.trace := by
  intro all
  obtain ⟨output, returned⟩ := all failing planned
  exact absurd (reached.lt_of_returned returned) (lt_irrefl _)

theorem checkPolicies_reached (index : ℕ) (step : AgentStep)
    (policies : List (σ → Agent → AgentStep → σ × Except ε Bool)) (policy : ℕ)
    (reached : Reached runtime agent steps count progress) :
    Reached runtime agent steps count
        (checkPolicies agent index step policies policy progress).1 ∧
      progress.trace <+: (checkPolicies agent index step policies policy progress).1.trace ∧
        ((checkPolicies agent index step policies policy progress).2 = .ok () →
          ∀ own, policy ≤ own → own < policy + policies.length → .allowed index own ∈
            (checkPolicies agent index step policies policy progress).1.trace) := by
  induction policies generalizing policy progress with
  | nil =>
      refine ⟨reached, List.prefix_refl _, ?_⟩
      intro _ own after before
      simp only [List.length_nil] at before
      omega
  | cons allow rest ih =>
      simp only [checkPolicies]
      split
      · rename_i world _
        obtain ⟨kept, extended, each⟩ := ih (policy + 1) (reached.allowed index policy world)
        refine ⟨kept, (List.prefix_append _ _).trans extended, ?_⟩
        intro passed own after before
        by_cases first : own = policy
        · subst first
          exact extended.subset (by simp)
        · refine each passed own (by omega) ?_
          simp only [List.length_cons] at before
          omega
      · exact ⟨reached.moved _, List.prefix_refl _, fun passed => by cases passed⟩
      · exact ⟨reached.moved _, List.prefix_refl _, fun passed => by cases passed⟩

theorem authorize_reached (index : ℕ) (step : AgentStep)
    (reached : Reached runtime agent steps count progress) :
    Reached runtime agent steps count (runtime.authorize agent index step progress).1 ∧
      ((runtime.authorize agent index step progress).2 = .ok () →
        permitted agent step = true ∧ ∀ policy, policy < runtime.policies.length →
          .allowed index policy ∈ (runtime.authorize agent index step progress).1.trace) := by
  unfold authorize
  split
  · rename_i allowed
    obtain ⟨kept, _, each⟩ := checkPolicies_reached index step runtime.policies 0 reached
    refine ⟨kept, fun passed => ⟨allowed, fun policy bound => ?_⟩⟩
    exact each passed policy (Nat.zero_le _) (by omega)
  · exact ⟨reached, fun passed => by cases passed⟩

/-- From the step that is reached, the loop runs to the end of the plan or to
the first step that fails. -/
theorem runSteps_ended (rest done : List AgentStep) (split : steps = done ++ rest)
    (output : Option ω) (reached : Reached runtime agent steps done.length progress) :
    Ended runtime agent steps (runtime.runSteps agent done.length rest output progress).1
      (runtime.runSteps agent done.length rest output progress).2 := by
  induction rest generalizing done output progress with
  | nil =>
      obtain rfl : steps = done := by simpa using split
      exact reached
  | cons step rest ih =>
      have here : steps[done.length]? = some step := by simp [split]
      have failing : done.length < steps.length := by simp [split]
      have executing := reached.emit (.execute step)
      obtain ⟨checked, passed⟩ := authorize_reached done.length step executing
      simp only [runSteps]
      cases registered : runtime.tools step.action with
      | none => exact ⟨_, failing, executing⟩
      | some invoke =>
          simp only
          cases authorized : runtime.authorize agent done.length step
              (runtime.emit progress (.execute step)) with
          | mk between verdict =>
              rw [authorized] at checked passed
              cases verdict with
              | error exception => exact ⟨_, failing, checked⟩
              | ok =>
                  obtain ⟨permitted, policies⟩ := passed rfl
                  have cleared : Cleared runtime agent steps done.length between.trace :=
                    ⟨⟨step, invoke, here, registered, permitted⟩, policies,
                      fun before earlier => checked.earlier earlier⟩
                  simp only
                  cases invoked : invoke between.world step with
                  | mk world outcome =>
                      have running := checked.invoked cleared world
                      cases outcome with
                      | returned output =>
                          have observed := (running.returned output).emit (.observe output)
                          have further := ih (done ++ [step]) (by simp [split]) (some output)
                            (by simpa using observed)
                          simpa using further
                      | raised error => exact ⟨_, failing, running⟩
                      | cancelled =>
                          have member : step ∈ steps := by simp [split]
                          exact ⟨⟨step, member, invoke, between.world, registered,
                            by rw [invoked]⟩, _, failing, running⟩

end Loop

section Run
variable (runtime : AgentRuntime σ ω ε) (agent : Agent) (task : AgentTask) (world : σ)

@[simp] theorem conclude_trace (progress : Progress σ ω)
    (outcome : Outcome (Option ω) (AgentException ε)) :
    (runtime.conclude agent task progress outcome).1.trace = progress.trace := by
  cases outcome with
  | returned output => simp [conclude]
  | raised exception =>
      simp only [conclude]
      split <;> simp
  | cancelled => rfl

theorem run_trace :
    (runtime.run agent task world).1.trace = (runtime.attempt agent task world).1.trace := by
  simp [run]

theorem attempt_ended :
    ((∃ plan, (runtime.planner world agent task).2 = .ok plan) ∧
        Ended runtime agent (runtime.planned agent task world)
          (runtime.attempt agent task world).1 (runtime.attempt agent task world).2) ∨
      (¬ ∃ plan, (runtime.planner world agent task).2 = .ok plan) ∧
        Reached runtime agent (runtime.planned agent task world) 0
          (runtime.attempt agent task world).1 ∧
        ∃ exception, (runtime.attempt agent task world).2 = .raised exception := by
  have start : Reached runtime agent (runtime.planned agent task world) 0 { world := world } :=
    Reached.start world
  have started := (start.emit (.receive task)).emit (.understand task)
  unfold attempt
  simp only [emit_world]
  cases planning : runtime.planner world agent task with
  | mk after verdict =>
      cases verdict with
      | error error =>
          exact Or.inr ⟨by simp, started.moved after, _, rfl⟩
      | ok plan =>
          have steps : runtime.planned agent task world = plan.steps := by simp [planned, planning]
          refine Or.inl ⟨⟨plan, rfl⟩, ?_⟩
          rw [steps] at started ⊢
          exact runSteps_ended plan.steps [] rfl none ((started.moved after).emit (.plan plan))

theorem attempt_reached :
    ∃ count, Reached runtime agent (runtime.planned agent task world) count
      (runtime.attempt agent task world).1 ∧
        (runtime.AllRan agent task world ↔
          ∃ output, (runtime.attempt agent task world).2 = .returned output) := by
  unfold AllRan
  rw [run_trace]
  rcases runtime.attempt_ended agent task world with ⟨plan, ended⟩ | ⟨unplanned, reached, _, raised⟩
  · cases outcome : (runtime.attempt agent task world).2 with
    | returned output =>
        rw [outcome] at ended
        have all : Reached _ _ _ _ _ := ended
        exact ⟨_, all, fun _ => ⟨output, rfl⟩, fun _ => ⟨plan, fun index => all.earlier⟩⟩
    | raised exception =>
        rw [outcome] at ended
        obtain ⟨failing, bound, reached⟩ := ended
        exact ⟨failing, reached, fun ran => absurd ran.2 (reached.unfinished bound), by simp⟩
    | cancelled =>
        rw [outcome] at ended
        obtain ⟨_, failing, bound, reached⟩ := ended
        exact ⟨failing, reached, fun ran => absurd ran.2 (reached.unfinished bound), by simp⟩
  · exact ⟨0, reached, fun ran => absurd ran.1 unplanned, by simp [raised]⟩

theorem run_of_returned {output : Option ω}
    (outcome : (runtime.attempt agent task world).2 = .returned output) :
    (runtime.run agent task world).2 =
      .returned
        { state := .complete
          output := output
          observations := (runtime.attempt agent task world).1.observations } := by
  simp only [run, outcome, conclude]

theorem run_of_raised {exception : AgentException ε}
    (outcome : (runtime.attempt agent task world).2 = .raised exception)
    (unhandled : runtime.escalation = none) :
    (runtime.run agent task world).2 =
      .returned
        { state := .escalate
          error := some (runtime.text exception)
          escalated := true
          observations := (runtime.attempt agent task world).1.observations } := by
  simp only [run, outcome, conclude, unhandled]

theorem run_of_handled {exception : AgentException ε}
    (outcome : (runtime.attempt agent task world).2 = .raised exception)
    {handler : σ → Agent → AgentTask → AgentException ε → σ × Outcome (AgentResult ω) ε}
    (handled : runtime.escalation = some handler) :
    (runtime.run agent task world).2 =
      (handler (runtime.attempt agent task world).1.world agent task exception).2 := by
  simp only [run, outcome, conclude, handled, emit_world]

theorem run_of_cancelled (outcome : (runtime.attempt agent task world).2 = .cancelled) :
    (runtime.run agent task world).2 = .cancelled := by
  simp only [run, outcome, conclude]

theorem run_unhandled (unhandled : runtime.escalation = none) :
    (runtime.run agent task world).2 = .cancelled ∧
        (runtime.attempt agent task world).2 = .cancelled ∨
      ∃ result, (runtime.run agent task world).2 = .returned result ∧
        result.observations = (runtime.attempt agent task world).1.observations ∧
          (result.state = .complete ↔
            ∃ output, (runtime.attempt agent task world).2 = .returned output) := by
  cases outcome : (runtime.attempt agent task world).2 with
  | returned output =>
      exact Or.inr ⟨_, run_of_returned runtime agent task world outcome, rfl, by simp⟩
  | raised exception =>
      exact Or.inr ⟨_, run_of_raised runtime agent task world outcome unhandled, rfl, by simp⟩
  | cancelled => exact Or.inl ⟨run_of_cancelled runtime agent task world outcome, rfl⟩

/-- A plan runs as an authorized prefix of its steps; only an escalation handler
can answer differently for a run that failed. -/
theorem authorized_prefix : AuthorizedPrefix runtime agent task world := by
  obtain ⟨count, reached, allRan⟩ := runtime.attempt_reached agent task world
  constructor
  case gated =>
    intro past index later split
    rw [run_trace] at split
    exact reached.gated past _ later split index rfl
  case stopped =>
    intro failing unreturned later after invoked
    rw [run_trace] at invoked unreturned
    obtain ⟨past, before, cleared⟩ := reached.gated.of_mem invoked
    obtain ⟨output, returned⟩ := (cleared later rfl).earlier failing after
    exact unreturned output (before.subset returned)
  case completed =>
    intro ran
    obtain ⟨output, returned⟩ := allRan.mp ran
    exact ⟨_, run_of_returned runtime agent task world returned, rfl⟩
  case completedOnly =>
    rintro unhandled ⟨own, answered, complete⟩
    rcases run_unhandled runtime agent task world unhandled with
      ⟨cancelled, _⟩ | ⟨result, answer, _, completes⟩
    · simp [cancelled] at answered
    · obtain rfl : result = own := by simpa [answer] using answered
      exact allRan.mpr (completes.mp complete)
  case observed =>
    intro unhandled own answered index output
    rcases run_unhandled runtime agent task world unhandled with
      ⟨cancelled, _⟩ | ⟨result, answer, observations, _⟩
    · simp [cancelled] at answered
    · obtain rfl : result = own := by simpa [answer] using answered
      rw [observations, run_trace]
      exact (reached.outputs index output).symm
  case answered =>
    intro unhandled
    rcases run_unhandled runtime agent task world unhandled with
      ⟨cancelled, outcome⟩ | ⟨result, answer, _⟩
    · refine Or.inr ⟨cancelled, ?_⟩
      rcases runtime.attempt_ended agent task world with ⟨_, ended⟩ | ⟨_, _, _, raised⟩
      · rw [outcome] at ended
        exact ended.1
      · simp [outcome] at raised
    · exact Or.inl ⟨result, answer⟩
  case takenOver =>
    intro handler handled failed
    cases outcome : (runtime.attempt agent task world).2 with
    | returned last => exact absurd (allRan.mpr ⟨last, outcome⟩) failed
    | raised exception =>
        refine Or.inr ⟨(runtime.attempt agent task world).1.world, exception, ?_⟩
        exact run_of_handled runtime agent task world outcome handled
    | cancelled => exact Or.inl (run_of_cancelled runtime agent task world outcome)

end Run

/-! ## A handler that answers COMPLETE -/

def tester : Agent := { id := ⟨0⟩, identity := "test-agent", role := "tester" }

def echo : AgentTask := { objective := "echo", id := ⟨1⟩ }

def answeredByHandler : AgentRuntime Unit String String where
  planner := fun world _ _ =>
    (world, .ok { steps := [{ name := "echo", action := "echo", id := ⟨2⟩ }] })
  tools := fun _ => none
  escalation := some fun world _ _ _ => (world, .returned { state := .complete })
  str := id

theorem failed_run_answered_complete :
    answeredByHandler.Completed tester echo () ∧ ¬ answeredByHandler.AllRan tester echo () := by
  refine ⟨⟨_, rfl, rfl⟩, ?_⟩
  rintro ⟨_, ran⟩
  obtain ⟨output, returned⟩ := ran 0 (by decide)
  cases returned

end Eis.Agents.AgentRuntime
