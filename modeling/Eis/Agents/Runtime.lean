import Eis.Agents.Models

/-!
# The agent runtime

`AgentRuntime.run` over a world that the planner, the tools, the policies and
the escalation handler may change as they like.  The observer is told what
happens and does not raise.
-/

set_option autoImplicit false

namespace Eis.Agents

inductive AgentException (ε : Type) where
  | permissionDenied (message : String)
  | raised (error : ε)

/-- How an awaited call ends; a `CancelledError` is no `Exception`. -/
inductive Outcome (α ε : Type) where
  | returned (value : α)
  | raised (error : ε)
  | cancelled

structure AgentRuntime (σ ω ε : Type) where
  planner : σ → Agent → AgentTask → σ × Except ε AgentPlan
  tools : String → Option (σ → AgentStep → σ × Outcome ω ε)
  policies : List (σ → Agent → AgentStep → σ × Except ε Bool) := []
  observer : Bool := false
  escalation : Option (σ → Agent → AgentTask → AgentException ε →
    σ × Outcome (AgentResult ω) ε) := none
  str : ε → String

inductive Emission (ω : Type) where
  | receive (task : AgentTask)
  | understand (task : AgentTask)
  | plan (plan : AgentPlan)
  | execute (step : AgentStep)
  | observe (output : ω)
  | verify (output : Option ω)
  | complete (output : Option ω)
  | escalate (error : String)

/-- What happens to the steps of a plan, which go by their positions. -/
inductive AgentEvent (ω : Type) where
  | allowed (step policy : ℕ)
  | invoked (step : ℕ)
  | returned (step : ℕ) (output : ω)

structure Progress (σ ω : Type) where
  world : σ
  observations : List ω := []
  emitted : List (Emission ω) := []
  trace : List (AgentEvent ω) := []

namespace AgentRuntime

variable {σ ω ε : Type} (runtime : AgentRuntime σ ω ε)

def text : AgentException ε → String
  | .permissionDenied message => message
  | .raised error => runtime.str error

def emit (progress : Progress σ ω) (emission : Emission ω) : Progress σ ω :=
  if runtime.observer then { progress with emitted := progress.emitted ++ [emission] }
  else progress

section Emit
variable (progress : Progress σ ω) (emission : Emission ω)

@[simp] theorem emit_world : (runtime.emit progress emission).world = progress.world := by
  unfold emit
  split <;> rfl

@[simp] theorem emit_observations :
    (runtime.emit progress emission).observations = progress.observations := by
  unfold emit
  split <;> rfl

@[simp] theorem emit_trace : (runtime.emit progress emission).trace = progress.trace := by
  unfold emit
  split <;> rfl

end Emit

/-- `f"{action}:{resource}"` -/
def target (step : AgentStep) : String :=
  step.action ++ ":" ++ step.resource.getD "None"

/-- `resource or "*"` -/
def resourceOr (resource : Option String) : String :=
  match resource with
  | none => "*"
  | some name => if name = "" then "*" else name

def permitted (agent : Agent) (step : AgentStep) : Bool :=
  decide (⟨step.action, resourceOr step.resource⟩ ∈ agent.permissions ∨
    ⟨step.action, "*"⟩ ∈ agent.permissions)

/-- The loop over the policies; `policy` counts those that have allowed the step. -/
def checkPolicies (agent : Agent) (index : ℕ) (step : AgentStep) :
    List (σ → Agent → AgentStep → σ × Except ε Bool) → ℕ → Progress σ ω →
      Progress σ ω × Except (AgentException ε) Unit
  | [], _, progress => (progress, .ok ())
  | allow :: rest, policy, progress =>
      match allow progress.world agent step with
      | (world, .ok true) =>
          checkPolicies agent index step rest (policy + 1)
            { progress with
              world := world
              trace := progress.trace ++ [.allowed index policy] }
      | (world, .ok false) =>
          ({ progress with world := world },
            .error (.permissionDenied ("policy denied: " ++ target step)))
      | (world, .error error) => ({ progress with world := world }, .error (.raised error))

def authorize (agent : Agent) (index : ℕ) (step : AgentStep) (progress : Progress σ ω) :
    Progress σ ω × Except (AgentException ε) Unit :=
  if permitted agent step then
    checkPolicies agent index step runtime.policies 0 progress
  else (progress, .error (.permissionDenied ("permission denied: " ++ target step)))

def runSteps (agent : Agent) : ℕ → List AgentStep → Option ω → Progress σ ω →
    Progress σ ω × Outcome (Option ω) (AgentException ε)
  | _, [], output, progress => (progress, .returned output)
  | index, step :: rest, _, progress =>
      match runtime.tools step.action with
      | none =>
          (runtime.emit progress (.execute step),
            .raised (.permissionDenied ("tool is not registered: " ++ step.action)))
      | some invoke =>
          match runtime.authorize agent index step (runtime.emit progress (.execute step)) with
          | (progress, .error exception) => (progress, .raised exception)
          | (progress, .ok ()) =>
              match invoke progress.world step with
              | (world, .returned output) =>
                  runSteps agent (index + 1) rest (some output)
                    (runtime.emit
                      { progress with
                        world := world
                        observations := progress.observations ++ [output]
                        trace := progress.trace ++ [.invoked index, .returned index output] }
                      (.observe output))
              | (world, .raised error) =>
                  ({ progress with
                    world := world
                    trace := progress.trace ++ [.invoked index] }, .raised (.raised error))
              | (world, .cancelled) =>
                  ({ progress with
                    world := world
                    trace := progress.trace ++ [.invoked index] }, .cancelled)

/-- The `try` block. -/
def attempt (agent : Agent) (task : AgentTask) (world : σ) :
    Progress σ ω × Outcome (Option ω) (AgentException ε) :=
  let started := runtime.emit (runtime.emit { world := world } (.receive task)) (.understand task)
  match runtime.planner started.world agent task with
  | (world, .error error) => ({ started with world := world }, .raised (.raised error))
  | (world, .ok plan) =>
      runtime.runSteps agent 0 plan.steps none
        (runtime.emit { started with world := world } (.plan plan))

/-- The end of the `try` block, and the `except` branch. -/
def conclude (agent : Agent) (task : AgentTask) (progress : Progress σ ω) :
    Outcome (Option ω) (AgentException ε) → Progress σ ω × Outcome (AgentResult ω) ε
  | .returned output =>
      (runtime.emit (runtime.emit progress (.verify output)) (.complete output),
        .returned
          { state := .complete
            output := output
            observations := progress.observations })
  | .raised exception =>
      let escalated := runtime.emit progress (.escalate (runtime.text exception))
      match runtime.escalation with
      | some handler =>
          match handler escalated.world agent task exception with
          | (world, outcome) => ({ escalated with world := world }, outcome)
      | none =>
          (escalated,
            .returned
              { state := .escalate
                error := some (runtime.text exception)
                escalated := true
                observations := progress.observations })
  | .cancelled => (progress, .cancelled)

def run (agent : Agent) (task : AgentTask) (world : σ) :
    Progress σ ω × Outcome (AgentResult ω) ε :=
  let attempted := runtime.attempt agent task world
  runtime.conclude agent task attempted.1 attempted.2

def planned (agent : Agent) (task : AgentTask) (world : σ) : List AgentStep :=
  match (runtime.planner world agent task).2 with
  | .ok plan => plan.steps
  | .error _ => []

/-! ## What a run keeps -/

/-- The planner, the policies, the escalation handler and the tools of permitted
steps all keep a property of the world. -/
structure Keeps (agent : Agent) (steps : List AgentStep) (kept : σ → Prop) : Prop where
  planner : ∀ world task, kept world → kept (runtime.planner world agent task).1
  policies : ∀ allow ∈ runtime.policies, ∀ world step,
    kept world → kept (allow world agent step).1
  tools : ∀ step ∈ steps, permitted agent step = true → ∀ invoke,
    runtime.tools step.action = some invoke → ∀ world, kept world → kept (invoke world step).1
  escalation : ∀ handler, runtime.escalation = some handler → ∀ world task exception,
    kept world → kept (handler world agent task exception).1

section Keeps
variable {runtime} {agent : Agent} {steps : List AgentStep} {kept : σ → Prop}

theorem checkPolicies_keeps {index : ℕ} {step : AgentStep}
    {policies : List (σ → Agent → AgentStep → σ × Except ε Bool)}
    (each : ∀ allow ∈ policies, ∀ world step, kept world → kept (allow world agent step).1)
    {policy : ℕ} {progress : Progress σ ω} (start : kept progress.world) :
    kept (checkPolicies agent index step policies policy progress).1.world := by
  induction policies generalizing policy progress with
  | nil => exact start
  | cons allow rest ih =>
      have first := each allow List.mem_cons_self progress.world step start
      simp only [checkPolicies]
      split
      · rename_i world verdict
        rw [verdict] at first
        apply ih
        · intro later member
          exact each later (List.mem_cons_of_mem _ member)
        · exact first
      · rename_i world verdict
        rw [verdict] at first
        exact first
      · rename_i world error verdict
        rw [verdict] at first
        exact first

theorem Keeps.authorize (keeps : Keeps runtime agent steps kept) (index : ℕ)
    (step : AgentStep) {progress : Progress σ ω} (start : kept progress.world) :
    kept (runtime.authorize agent index step progress).1.world ∧
      ((runtime.authorize agent index step progress).2 = .ok () →
        permitted agent step = true) := by
  unfold AgentRuntime.authorize
  split
  · rename_i allowed
    exact ⟨checkPolicies_keeps keeps.policies start, fun _ => allowed⟩
  · exact ⟨start, fun passed => by cases passed⟩

theorem Keeps.runSteps (keeps : Keeps runtime agent steps kept) {rest : List AgentStep}
    (within : rest ⊆ steps) {index : ℕ} {output : Option ω} {progress : Progress σ ω}
    (start : kept progress.world) :
    kept (runtime.runSteps agent index rest output progress).1.world := by
  induction rest generalizing index output progress with
  | nil => exact start
  | cons step rest ih =>
      have executing : kept (runtime.emit progress (.execute step)).world := by simpa using start
      obtain ⟨checked, passed⟩ := keeps.authorize index step executing
      simp only [AgentRuntime.runSteps]
      cases registered : runtime.tools step.action with
      | none => exact executing
      | some invoke =>
          simp only
          cases authorized : runtime.authorize agent index step
              (runtime.emit progress (.execute step)) with
          | mk between verdict =>
              rw [authorized] at checked passed
              cases verdict with
              | error exception => exact checked
              | ok =>
                  have after := keeps.tools step (within List.mem_cons_self) (passed rfl) invoke
                    registered between.world checked
                  simp only
                  cases invoked : invoke between.world step with
                  | mk world outcome =>
                      rw [invoked] at after
                      cases outcome with
                      | returned output =>
                          apply ih
                          · exact List.Subset.trans (List.subset_cons_self step rest) within
                          · simpa using after
                      | raised error => exact after
                      | cancelled => exact after

theorem Keeps.conclude (keeps : Keeps runtime agent steps kept) {task : AgentTask}
    {progress : Progress σ ω} {outcome : Outcome (Option ω) (AgentException ε)}
    (start : kept progress.world) :
    kept (runtime.conclude agent task progress outcome).1.world := by
  cases outcome with
  | returned output => simpa [AgentRuntime.conclude] using start
  | raised exception =>
      simp only [AgentRuntime.conclude]
      cases handled : runtime.escalation with
      | none => simpa using start
      | some handler =>
          apply keeps.escalation handler handled
          simpa using start
  | cancelled => exact start

theorem Keeps.run {task : AgentTask} {world : σ}
    (keeps : Keeps runtime agent (runtime.planned agent task world) kept)
    (start : kept world) : kept (runtime.run agent task world).1.world := by
  have attempted : kept (runtime.attempt agent task world).1.world := by
    have after := keeps.planner world task start
    unfold AgentRuntime.attempt
    simp only [emit_world]
    cases planning : runtime.planner world agent task with
    | mk later verdict =>
        rw [planning] at after
        cases verdict with
        | error error => exact after
        | ok plan =>
            have steps : runtime.planned agent task world = plan.steps := by
              simp [planned, planning]
            apply keeps.runSteps
            · exact (steps ▸ List.Subset.refl plan.steps)
            · simpa using after
  exact keeps.conclude attempted

end Keeps

end AgentRuntime

end Eis.Agents
