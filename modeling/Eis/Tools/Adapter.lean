import Mathlib.Logic.Function.Basic
import Eis.Agents.Runtime
import Eis.Tools.Execution

/-!
# Tools of agents behind the secure executor

`AgentToolAdapter.invoke` makes a request of a step and gives it to its
executor.  The executors live in a memory that all code around the runtime may
change; what the adapters hand over is recorded beside it.
-/

set_option autoImplicit false

namespace Eis.Tools

open Agents

/-- `executor` names one of the executors in memory. -/
structure AgentToolAdapter (ι : Type) where
  name : String
  executor : ι
  grantedPermissions : List String

structure Memory (ι σ : Type) where
  executors : ι → SecureExecutor
  rest : σ

/-- The memory, and the requests that adapters have given to executors, each
with the step that it is for. -/
structure Host (ι σ : Type) where
  memory : Memory ι σ
  handed : List (AgentStep × ToolRequest) := []

inductive Output where
  | result (result : ToolResult)
  | value (value : Value)

/-- `dict(step.input) if isinstance(step.input, dict) else {"input": step.input}` -/
def inputArguments : Value → Dict
  | .dict items => Value.toDict items
  | input => OrderedDict.setItem Table.empty "input" input

def stepArguments (step : AgentStep) : Dict :=
  match step.resource with
  | none => inputArguments step.input
  | some resource => (inputArguments step.input).setDefault "resource" (.str resource)

section Adapter
variable {ι σ ε : Type} [DecidableEq ι]

def AgentToolAdapter.request (adapter : AgentToolAdapter ι) (step : AgentStep)
    (requestId : UUID) : ToolRequest where
  tool := adapter.name
  arguments := stepArguments step
  grantedPermissions := adapter.grantedPermissions
  requestId := requestId

/-- `draw` is the source of fresh identifiers and of the time that a call takes. -/
def AgentToolAdapter.invoke (adapter : AgentToolAdapter ι) (draw : σ → σ × UUID × ℚ)
    (host : Host ι σ) (step : AgentStep) : Host ι σ × Outcome Output ε :=
  let (rest, requestId, seconds) := draw host.memory.rest
  let request := adapter.request step requestId
  let executed := (host.memory.executors adapter.executor).execute request seconds
  ({ memory :=
      { executors := Function.update host.memory.executors adapter.executor executed.executor
        rest := rest }
     handed := host.handed ++ [(step, request)] },
    match executed.result with
    | some result => .returned (.result result)
    | none => .cancelled)

def Host.call {α : Type} (host : Host ι σ) (code : Memory ι σ → Memory ι σ × α) :
    Host ι σ × α :=
  ({ host with memory := (code host.memory).1 }, (code host.memory).2)

def withAdapters (base : AgentRuntime (Memory ι σ) Output ε)
    (adapters : String → Option (AgentToolAdapter ι)) (draw : σ → σ × UUID × ℚ) :
    AgentRuntime (Host ι σ) Output ε where
  planner := fun host agent task => host.call fun memory => base.planner memory agent task
  tools := fun action =>
    match adapters action with
    | some adapter => some fun host step => adapter.invoke draw host step
    | none => (base.tools action).map fun invoke host step =>
        host.call fun memory => invoke memory step
  policies := base.policies.map fun allow host agent step =>
    host.call fun memory => allow memory agent step
  observer := base.observer
  escalation := base.escalation.map fun handler host agent task exception =>
    host.call fun memory => handler memory agent task exception
  str := base.str

end Adapter

/-! ## The resource that was authorized -/

def ActsOnResource (step : AgentStep) (request : ToolRequest) : Prop :=
  ∀ resource, step.resource = some resource →
    request.arguments.get? "resource" = some (.str resource)

/-- The input is no dictionary with another resource in it. -/
def NoOtherResource (step : AgentStep) : Prop :=
  ∀ items, step.input = .dict items → ∀ resource, step.resource = some resource →
    ∀ own, (Value.toDict items).get? "resource" = some own → own = .str resource

/-- The step was planned and its resource permitted, and the request was made of it. -/
structure Handed {ι : Type} (agent : Agent) (steps : List AgentStep)
    (adapters : String → Option (AgentToolAdapter ι)) (step : AgentStep)
    (request : ToolRequest) : Prop where
  planned : step ∈ steps
  permitted : AgentRuntime.permitted agent step = true
  requested : ∃ adapter requestId, adapters step.action = some adapter ∧
    request = adapter.request step requestId

theorem inputArguments_resource (input : Value) :
    (inputArguments input).get? "resource" =
      match input with
      | .dict items => (Value.toDict items).get? "resource"
      | _ => none := by
  have other : "resource" ≠ "input" := by decide
  cases input with
  | dict items => rfl
  | none | bool | int | float | str | bytes | list | tuple | object =>
      simp only [inputArguments, OrderedDict.get?_setItem, if_neg other]
      rfl

theorem stepArguments_resource {step : AgentStep} {resource : String}
    (present : step.resource = some resource) :
    (stepArguments step).get? "resource" =
      some (((inputArguments step.input).get? "resource").getD (.str resource)) := by
  unfold stepArguments
  rw [present]
  exact OrderedDict.get?_setDefault _ _ _

theorem actsOnResource_iff {ι : Type} (adapter : AgentToolAdapter ι) (step : AgentStep)
    (requestId : UUID) :
    ActsOnResource step (adapter.request step requestId) ↔ NoOtherResource step := by
  unfold ActsOnResource NoOtherResource AgentToolAdapter.request
  constructor
  · intro acts items input resource present own brought
    have same := acts resource present
    rw [stepArguments_resource present, inputArguments_resource, input] at same
    simpa [brought] using same
  · intro free resource present
    rw [stepArguments_resource present, inputArguments_resource]
    cases input : step.input with
    | dict items =>
        cases brought : (Value.toDict items).get? "resource" with
        | none => simp [brought]
        | some own => simp [brought, free items input resource present own brought]
    | none | bool | int | float | str | bytes | list | tuple | object => rfl

section Run
variable {ι σ ε : Type} [DecidableEq ι] (base : AgentRuntime (Memory ι σ) Output ε)
  (adapters : String → Option (AgentToolAdapter ι)) (draw : σ → σ × UUID × ℚ)

theorem keeps_handed (agent : Agent) (steps : List AgentStep) :
    (withAdapters base adapters draw).Keeps agent steps fun host =>
      ∀ step request, (step, request) ∈ host.handed →
        Handed agent steps adapters step request := by
  constructor
  case planner => exact fun host task before => before
  case policies =>
    intro allow member host step before
    obtain ⟨own, _, rfl⟩ := List.mem_map.mp member
    exact before
  case tools =>
    intro step member permitted invoke registered host before
    simp only [withAdapters] at registered
    cases adapted : adapters step.action with
    | some adapter =>
        simp only [adapted, Option.some.injEq] at registered
        subst registered
        intro other request handed
        rcases List.mem_append.mp handed with earlier | last
        · exact before other request earlier
        · obtain ⟨rfl, rfl⟩ := Prod.mk.inj (List.mem_singleton.mp last)
          exact ⟨member, permitted, adapter, _, adapted, rfl⟩
    | none =>
        simp only [adapted] at registered
        obtain ⟨own, _, rfl⟩ := Option.map_eq_some_iff.mp registered
        exact before
  case escalation =>
    intro handler handled host task exception before
    obtain ⟨own, _, rfl⟩ := Option.map_eq_some_iff.mp handled
    exact before

variable {base adapters draw}

/-- A request that a run hands to an executor is for a planned and permitted
step, and it acts on the resource of that step if and only if the input of the
step brings no other along. -/
theorem acts_on_resource_iff {agent : Agent} {task : AgentTask} {memory : Memory ι σ}
    {step : AgentStep} {request : ToolRequest}
    (handed : (step, request) ∈
      ((withAdapters base adapters draw).run agent task { memory := memory }).1.world.handed) :
    Handed agent ((withAdapters base adapters draw).planned agent task { memory := memory })
        adapters step request ∧
      (ActsOnResource step request ↔ NoOtherResource step) := by
  have keeps := keeps_handed base adapters draw agent
    ((withAdapters base adapters draw).planned agent task { memory := memory })
  have start : ∀ own request, (own, request) ∈ ({ memory := memory } : Host ι σ).handed →
      Handed agent ((withAdapters base adapters draw).planned agent task { memory := memory })
        adapters own request := by
    intro own request absent
    cases absent
  have sound := keeps.run start step request handed
  refine ⟨sound, ?_⟩
  obtain ⟨adapter, requestId, _, rfl⟩ := sound.requested
  exact actsOnResource_iff adapter step requestId

end Run

/-! ## A permitted step for one file that reads another -/

def reader : Agent where
  id := ⟨0⟩
  identity := "reader"
  role := "reader"
  permissions := [⟨"read_file", "notes.txt"⟩]

def readStep (input : Value) : AgentStep where
  name := "read"
  action := "read_file"
  resource := some "notes.txt"
  input := input
  id := ⟨1⟩

def files : SecureExecutor where
  tools := fun _ => some
    { definition := { name := "read_file" }
      execute := fun _ => .returned { status := .success } }

def readAdapter : AgentToolAdapter Unit where
  name := "read_file"
  executor := ()
  grantedPermissions := []

def reading (input : Value) : AgentRuntime (Host Unit Unit) Output String :=
  withAdapters
    { planner := fun memory _ _ => (memory, .ok { steps := [readStep input] })
      tools := fun _ => none
      str := id }
    (fun _ => some readAdapter) fun rest => (rest, ⟨2⟩, 0)

def readRun (input : Value) : Host Unit Unit :=
  ((reading input).run reader { objective := "read", id := ⟨3⟩ }
    { memory := { executors := fun _ => files, rest := () } }).1.world

def readRequest (input : Value) : ToolRequest := readAdapter.request (readStep input) ⟨2⟩

theorem acts_on_resource_iff_reading :
    ActsOnResource (readStep (.str "notes")) (readRequest (.str "notes")) ↔
      NoOtherResource (readStep (.str "notes")) := by
  have handed : (readStep (.str "notes"), readRequest (.str "notes")) ∈
      (readRun (.str "notes")).handed := List.mem_singleton.mpr rfl
  exact (acts_on_resource_iff handed).2

/-- The resource that the input brings along stays, and is not the one that was checked. -/
def otherFile : Value := .dict [("resource", .str "id_rsa")]

theorem acts_on_other_resource :
    (readStep otherFile, readRequest otherFile) ∈ (readRun otherFile).handed ∧
      (readStep otherFile).resource = some "notes.txt" ∧
      (readRequest otherFile).arguments.get? "resource" = some (.str "id_rsa") ∧
      ¬ ActsOnResource (readStep otherFile) (readRequest otherFile) := by
  refine ⟨List.mem_singleton.mpr rfl, rfl, rfl, ?_⟩
  intro acts
  have same : some (Value.str "id_rsa") = some (.str "notes.txt") := acts "notes.txt" rfl
  simp at same

end Eis.Tools
