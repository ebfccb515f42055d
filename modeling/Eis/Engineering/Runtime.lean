import Eis.Foundation.Program
import Eis.Foundation.Text
import Eis.Engineering.Models
import Eis.Tools.Models

/-!
# The engineering agent

`EngineeringAgent.run` over a world that the retriever, the inspector, the
planner, the validator, the tools and the analyzer may change as they like.  The
context that the retriever finds has the type `κ`.
-/

set_option autoImplicit false

namespace Eis.Engineering

open Eis.Tools (ExecutionStatus ToolResult)

/-- `EngineeringEscalation`, which `run` catches, and the other exceptions. -/
inductive EngineeringException (ε : Type) where
  | escalation (message : String)
  | raised (error : ε)

inductive Argument where
  | text (value : String)
  | plan (value : EngineeringPlan)
deriving DecidableEq

structure EngineeringToolRequest where
  tool : String
  arguments : List (String × Argument)
deriving DecidableEq

structure ChangeTracker (σ ε : Type) where
  record : FileChange → Call σ ε Unit
  changes : Call σ ε (List FileChange)

/-- `text`, `repr`, `fileChange?` and `iterate` say what the objects among the values
do: `str(value)`, `repr(text)`, `isinstance(value, FileChange)` and `iter(value)`. -/
structure EngineeringAgent (κ σ ε : Type) where
  retriever : String → Call σ (EngineeringException ε) κ
  inspector : String → Call σ (EngineeringException ε) RepositorySnapshot
  planner : EngineeringTask → RepositorySnapshot → κ →
    Call σ (EngineeringException ε) EngineeringPlan
  validator : EngineeringTask → RepositorySnapshot → EngineeringPlan →
    Call σ (EngineeringException ε) (Bool × String)
  tools : EngineeringToolRequest → Call σ (EngineeringException ε) ToolResult
  failureAnalyzer : Option (ToolResult → Call σ (EngineeringException ε) String) := none
  changeTracker : Option (ChangeTracker σ (EngineeringException ε)) := none
  limits : EngineeringLimits := {}
  monotonic : σ → σ × ℚ
  text : Value → String
  repr : String → String
  fileChange? : String → Option FileChange
  iterate : Value → Except (EngineeringException ε) (List Value)

inductive EngineeringEvent where
  | retrieved
  | inspected
  | planned (plan : EngineeringPlan)
  | validated (plan : EngineeringPlan) (valid : Bool)
  | tool (request : EngineeringToolRequest) (result : ToolResult)
  | analyzed

/-- The world, the fields of the agent and the local variables of `run`; `items` are
those of the `InMemoryChangeTracker`, and the trace lists the calls that returned. -/
structure EngineeringState (σ : Type) where
  world : σ
  items : List FileChange := []
  calls : ℕ := 0
  started : ℚ := 0
  records : List ChangeRecord := []
  tests : List String := []
  failures : List String := []
  plan : Option EngineeringPlan := none
  iterations : ℕ := 0
  trace : List EngineeringEvent := []

abbrev EngineeringProgram (σ ε α : Type) :=
  Program (EngineeringState σ) (EngineeringException ε) α

namespace EngineeringAgent

variable {κ σ ε : Type} (agent : EngineeringAgent κ σ ε)

/-- A call to a component; `events` is what the trace says of its result. -/
def await {α : Type} (call : Call σ (EngineeringException ε) α)
    (events : α → List EngineeringEvent) : EngineeringProgram σ ε α := fun state =>
  match call state.world with
  | (world, .ok value) =>
      .ok value { state with world := world, trace := state.trace ++ events value }
  | (world, .error exception) => .error exception { state with world := world }

def append (record : ChangeRecord) : EngineeringProgram σ ε PUnit :=
  modify fun state => { state with records := state.records ++ [record] }

def guard : EngineeringProgram σ ε PUnit := do
  let state ← get
  if agent.limits.maxToolCalls ≤ state.calls then
    throw (.escalation "maximum tool-call limit reached")
  else do
    let now ← await (fun world => ((agent.monotonic world).1, .ok (agent.monotonic world).2))
      fun _ => []
    if agent.limits.maxExecutionSeconds ≤ now - state.started then
      throw (.escalation "maximum execution time reached")
    else pure ⟨⟩

def callTool (name : String) (arguments : List (String × Argument)) :
    EngineeringProgram σ ε ToolResult := do
  agent.guard
  modify fun state => { state with calls := state.calls + 1 }
  await (agent.tools ⟨name, arguments⟩) fun result => [.tool ⟨name, arguments⟩ result]

def failure (result : ToolResult) : EngineeringProgram σ ε String :=
  match agent.failureAnalyzer with
  | some analyzer => do
      agent.guard
      modify fun state => { state with calls := state.calls + 1 }
      await (analyzer result) fun _ => [.analyzed]
  | none =>
      pure (Text.orElse (result.error.getD "") (Text.orElse result.stderr
        "engineering tool failed"))

def recordItem (items : List FileChange) (change : FileChange) : List FileChange :=
  if change.path ∈ items.map FileChange.path then items else items ++ [change]

/-- `self._tracker.record(change)` -/
def record (change : FileChange) : EngineeringProgram σ ε PUnit :=
  match agent.changeTracker with
  | some tracker => do
      let _ ← await (tracker.record change) fun _ => []
      pure ⟨⟩
  | none => modify fun state => { state with items := recordItem state.items change }

def changes : EngineeringProgram σ ε (List FileChange) :=
  match agent.changeTracker with
  | some tracker => await tracker.changes fun _ => []
  | none => do
      let state ← get
      pure state.items

def items : Value → Except (EngineeringException ε) (List Value)
  | .list items => .ok items
  | .tuple items => .ok items
  | .dict items => .ok ((Value.toDict items).rows.map fun item => .str item.1)
  | .str text => .ok (text.toList.map fun c => .str (String.singleton c))
  | .bytes bytes => .ok (bytes.map fun byte => .int byte.toNat)
  | value => agent.iterate value

def changeOf : Value → Option FileChange
  | .object name => agent.fileChange? name
  | .dict items =>
      let item := Value.toDict items
      match item.get? "path" with
      | some (.str path) =>
          some
            { path := path
              operation := agent.text ((item.get? "operation").getD (.str "modify"))
              summary := agent.text ((item.get? "summary").getD (.str "")) }
      | _ => none
  | _ => none

/-- `output.get("changes", ()) if isinstance(output, dict) else ()` -/
def rawChanges : Value → Value
  | .dict items => ((Value.toDict items).get? "changes").getD (.tuple [])
  | _ => .tuple []

def recordItems : List Value → EngineeringProgram σ ε (List FileChange)
  | [] => pure []
  | item :: rest =>
      match agent.changeOf item with
      | none => recordItems rest
      | some change => do
          agent.record change
          let changes ← recordItems rest
          pure (change :: changes)

def recordChanges (result : ToolResult) : EngineeringProgram σ ε (List FileChange) :=
  match agent.items (rawChanges result.output) with
  | .ok items => agent.recordItems items
  | .error exception => throw exception

def enforceFileLimit : EngineeringProgram σ ε PUnit := do
  let changes ← agent.changes
  if (agent.limits.maxFilesChanged : ℕ) < changes.length then
    throw (.escalation "maximum changed-file limit reached")
  else pure ⟨⟩

def summary (plan : EngineeringPlan) (tests : List String) (changes : List FileChange) :
    String :=
  "Implemented " ++ agent.repr plan.objective ++ " using " ++ toString changes.length ++
    " changed file(s); verification completed with " ++ toString tests.length ++ " test stages."

/-- What follows a test stage that did not succeed, up to the `continue`. -/
def correct (task : EngineeringTask) (plan : EngineeringPlan) (result : ToolResult) :
    EngineeringProgram σ ε PUnit := do
  let failure ← agent.failure result
  modify fun state => { state with failures := state.failures ++ [failure] }
  append { phase := .analyzeFailures, detail := failure }
  let state ← get
  if agent.limits.maxIterations ≤ state.iterations then
    throw (.escalation "maximum engineering iterations reached")
  else do
    let _ ← agent.callTool "engineering.correct"
      [("repository", .text task.repository), ("failure", .text failure), ("plan", .plan plan)]
    append { phase := .correct, detail := failure }

def completed (task : EngineeringTask) (plan : EngineeringPlan) (changes : List FileChange)
    (state : EngineeringState σ) : EngineeringReport where
  task := task
  status := "completed"
  plan := some plan
  changes := state.records
  tests := state.tests
  failures := state.failures
  iterations := state.iterations
  toolCalls := state.calls
  summary := agent.summary plan state.tests changes

/-- The `while` loop; `remaining` is `max_iterations - iterations`. -/
def iterations (task : EngineeringTask) (plan : EngineeringPlan) :
    ℕ → EngineeringProgram σ ε EngineeringReport
  | 0 => throw (.escalation "maximum engineering iterations reached")
  | remaining + 1 => do
      modify fun state => { state with iterations := state.iterations + 1 }
      agent.guard
      let implementation ← agent.callTool "engineering.implement"
        [("task", .text task.objective), ("repository", .text task.repository),
          ("plan", .plan plan)]
      let changes ← agent.recordChanges implementation
      append { phase := .implement, changes := changes }
      agent.enforceFileLimit
      let targeted ← agent.callTool "engineering.test.targeted"
        [("repository", .text task.repository), ("plan", .plan plan)]
      modify fun state => { state with tests := state.tests ++ ["targeted tests"] }
      if targeted.status ≠ .success then do
        agent.correct task plan targeted
        iterations task plan remaining
      else do
        append { phase := .targetedTests, detail := "passed" }
        let broader ← agent.callTool "engineering.test.broader"
          [("repository", .text task.repository), ("plan", .plan plan)]
        modify fun state => { state with tests := state.tests ++ ["broader tests"] }
        if broader.status ≠ .success then do
          agent.correct task plan broader
          iterations task plan remaining
        else do
          append { phase := .broaderTests, detail := "passed" }
          append { phase := .report, detail := "implementation verified" }
          let state ← get
          pure (agent.completed task plan changes state)

/-- The `try` block. -/
def attempt (task : EngineeringTask) : EngineeringProgram σ ε EngineeringReport := do
  agent.guard
  append { phase := .understand, detail := task.objective }
  agent.guard
  let context ← await (agent.retriever task.objective) fun _ => [.retrieved]
  append { phase := .retrieve, detail := "project knowledge retrieved" }
  agent.guard
  let snapshot ← await (agent.inspector task.repository) fun _ => [.inspected]
  append
    { phase := .inspect
      detail := "inspected " ++ toString snapshot.files.length ++ " repository files" }
  append { phase := .architecture, detail := "architecture inspection complete" }
  append
    { phase := .affectedComponents
      detail := "affected components identified by planner input" }
  append
    { phase := .existingFunctionality
      detail := "existing functionality supplied to planner" }
  append { phase := .duplication, detail := "duplication candidates supplied to planner" }
  agent.guard
  let plan ← await (agent.planner task snapshot context) fun plan => [.planned plan]
  modify fun state => { state with plan := some plan }
  append { phase := .plan, detail := plan.rationale }
  agent.guard
  let verdict ← await (agent.validator task snapshot plan)
    fun verdict => [.validated plan verdict.1]
  append { phase := .validatePlan, detail := verdict.2 }
  if !verdict.1 then
    throw (.escalation ("implementation plan rejected: " ++ verdict.2))
  else agent.iterations task plan agent.limits.maxIterations

/-- The `except` branch. -/
def escalate (task : EngineeringTask) (message : String) :
    EngineeringProgram σ ε EngineeringReport := do
  append { phase := .escalate, detail := message }
  let state ← get
  pure
    { task := task
      status := "escalated"
      plan := state.plan
      changes := state.records
      tests := state.tests
      failures := state.failures
      iterations := state.iterations
      toolCalls := state.calls
      escalated := true
      escalationReason := some message
      summary := "Engineering stopped before safe completion." }

def run (task : EngineeringTask) : EngineeringProgram σ ε EngineeringReport := do
  modify fun state => { world := state.world, items := state.items }
  let started ← await (fun world => ((agent.monotonic world).1, .ok (agent.monotonic world).2))
    fun _ => []
  modify fun state => { state with started := started }
  tryCatch (agent.attempt task) fun exception =>
    match exception with
    | .escalation message => escalate task message
    | .raised error => throw (.raised error)

end EngineeringAgent

end Eis.Engineering
