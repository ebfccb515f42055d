import Eis.Foundation.Program
import Eis.Foundation.Text
import Eis.Sdk.Models

/-!
# The facade of the SDK

The operations of `EIS` as programs on a session: the facade and the world around it.
What the application owns is a parameter: its handlers, which may use the facade
themselves, the objects they return and the exceptions they raise.  The facade knows a
handler by a name of the type `η`.
-/

set_option autoImplicit false

namespace Eis.Sdk

inductive SdkException (ε : Type) where
  | valueError (message : String)
  | typeError (message : String)
  | keyError (message : String)
  | raised (error : ε)

structure EIS (η : Type) where
  products : OrderedDict String Product := Table.empty
  knowledge : List KnowledgeItem := []
  memories : List MemoryItem := []
  tasks : OrderedDict UUID Task := Table.empty
  results : OrderedDict UUID TaskResult := Table.empty
  agents : OrderedDict String η := Table.empty
  tools : OrderedDict String η := Table.empty
  audit : List AuditEntry := []

structure Session (η ω : Type) where
  eis : EIS η
  world : ω

abbrev SdkProgram (η ω ε α : Type) := Program (Session η ω) (SdkException ε) α

inductive Returned (η ω ε : Type) where
  | value (value : Value)
  | awaitable (wait : Call (Session η ω) (SdkException ε) Value)

abbrev HandlerCall (η ω ε : Type) := Call (Session η ω) (SdkException ε) (Returned η ω ε)

/-- `agentResult?` to `text` say what the objects among the values do: `isinstance`,
`getattr` and `str`; `isKeyError`, `isException` and `message`, their `str`, say it of
exceptions. -/
structure Application (η ω ε : Type) where
  agent : η → Task → HandlerCall η ω ε
  tool : η → List Value → Dict → HandlerCall η ω ε
  now : ω → ω × String
  agentResult? : String → Option AgentResult
  executionResult? : String → Option ExecutionResult
  evaluationResult? : String → Option EvaluationResult
  attr : String → String → Except (SdkException ε) (Option Value)
  text : Value → Except (SdkException ε) String
  isKeyError : ε → Bool
  isException : ε → Bool
  message : SdkException ε → Except (SdkException ε) String

/-- `hasattr(engineer, "execute")`, or a callable -/
inductive Engineer (η ω ε : Type) where
  | engineer (execute : Task → HandlerCall η ω ε)
  | handler (call : Task → HandlerCall η ω ε)

/-- `hasattr(runner, "run")`, or a callable -/
inductive Runner (η ω ε : Type) where
  | orchestrator (run : String → Task → HandlerCall η ω ε)
  | handler (call : Task → HandlerCall η ω ε)

/-- `hasattr(evaluator, "evaluate")`, or a callable -/
inductive EvaluatorAdapter (η ω ε : Type) where
  | evaluator (evaluate : String → HandlerCall η ω ε)
  | handler (call : String → HandlerCall η ω ε)

section Adapters
variable {η ω ε : Type}

def Engineer.call : Engineer η ω ε → Task → HandlerCall η ω ε
  | .engineer execute => execute
  | .handler call => call

def Runner.call (workflow : String) : Runner η ω ε → Task → HandlerCall η ω ε
  | .orchestrator run => run workflow
  | .handler call => call

def EvaluatorAdapter.call : EvaluatorAdapter η ω ε → String → HandlerCall η ω ε
  | .evaluator evaluate => evaluate
  | .handler call => call

end Adapters

namespace EIS

variable {η : Type}

def searchKnowledge (eis : EIS η) (query : String) : List KnowledgeItem :=
  let normalized := Text.lower (Text.strip query)
  if normalized = "" then eis.knowledge
  else
    eis.knowledge.filter fun item =>
      Text.includes (Text.lower (item.title.getD "" ++ " " ++ item.content)) normalized

def taskResult (eis : EIS η) (taskId : UUID) : Option TaskResult :=
  eis.results.get? taskId

def store (eis : EIS η) (result : TaskResult) : EIS η :=
  { eis with results := eis.results.setItem result.taskId result }

end EIS

namespace Application

variable {η ω ε : Type} (app : Application η ω ε)

/-! ## Values, objects and exceptions -/

/-- `except KeyError` takes the exception. -/
def catchesKeyError : SdkException ε → Bool
  | .keyError _ => true
  | .raised error => app.isKeyError error
  | _ => false

def catchesException : SdkException ε → Bool
  | .raised error => app.isException error
  | _ => true

/-- `isinstance(value, AgentResult)` -/
def isAgentResult : Value → Option AgentResult
  | .object name => app.agentResult? name
  | _ => none

def isExecutionResult : Value → Option ExecutionResult
  | .object name => app.executionResult? name
  | _ => none

def isEvaluationResult : Value → Option EvaluationResult
  | .object name => app.evaluationResult? name
  | _ => none

/-- `getattr(value, name, default)`, for names that no built-in value has -/
def getattr (value : Value) (name : String) (default : Value) : Except (SdkException ε) Value :=
  match value with
  | .object object => (app.attr object name).map fun found => found.getD default
  | _ => .ok default

def str : Value → Except (SdkException ε) String
  | .str text => .ok text
  | value => app.text value

/-- `str(getattr(result, "status", "completed"))` and
`str(getattr(result, "summary", result))` -/
def outcome (result : Value) : Except (SdkException ε) (String × String) := do
  let status ← app.getattr result "status" (.str "completed")
  let status ← app.str status
  let summary ← app.getattr result "summary" result
  let summary ← app.str summary
  pure (status, summary)

/-! ## Calls of handlers -/

def invoke {α : Type} (call : Call (Session η ω) (SdkException ε) α) : SdkProgram η ω ε α :=
  fun session =>
    match call session with
    | (session, .ok value) => .ok value session
    | (session, .error exception) => .error exception session

/-- `if inspect.isawaitable(result): result = await result` -/
def settle : Returned η ω ε → SdkProgram η ω ε Value
  | .value value => pure value
  | .awaitable wait => invoke wait

def lift {α : Type} : Except (SdkException ε) α → SdkProgram η ω ε α
  | .ok value => pure value
  | .error exception => throw exception

/-! ## The operations -/

def change (update : EIS η → EIS η) : SdkProgram η ω ε PUnit :=
  modify fun session => { session with eis := update session.eis }

def recordAudit (action result : String) (taskId agent target failure : Option String) :
    SdkProgram η ω ε PUnit :=
  modify fun session =>
    let (world, timestamp) := app.now session.world
    let entry : AuditEntry :=
      { action := action
        result := result
        timestamp := timestamp
        taskId := taskId
        agent := agent
        target := target
        failure := failure }
    { eis := { session.eis with audit := session.eis.audit ++ [entry] }, world := world }

/-- `register_product` with a `Product`; `registerProductNamed` with a name -/
def registerProduct (product : Product) : SdkProgram η ω ε Product := do
  change fun eis => { eis with products := eis.products.setItem product.name product }
  app.recordAudit "product.register" "success" none none (some product.name) none
  pure product

def registerProductNamed (id : UUID) (name : String) (purpose : Option String) :
    SdkProgram η ω ε Product :=
  match purpose with
  | none => throw (.valueError "purpose is required when registering by name")
  | some purpose => app.registerProduct { name := name, purpose := purpose, id := id }

/-- `add_knowledge` with a `KnowledgeItem`; `addKnowledgeContent` with a content -/
def addKnowledge (item : KnowledgeItem) : SdkProgram η ω ε KnowledgeItem := do
  change fun eis => { eis with knowledge := eis.knowledge ++ [item] }
  let target := Text.orElse (item.title.getD "") item.source
  app.recordAudit "knowledge.add" "success" none none (some target) none
  pure item

def addKnowledgeContent (id : UUID) (content : String) (source title : Option String) :
    SdkProgram η ω ε KnowledgeItem :=
  match source with
  | none => throw (.valueError "source is required when adding knowledge by content")
  | some source =>
      app.addKnowledge { content := content, source := source, title := title, id := id }

def remember (id : UUID) (content : String) (metadata : Option Dict) :
    SdkProgram η ω ε MemoryItem :=
  if Text.strip content = "" then throw (.valueError "content must not be empty")
  else do
    let item : MemoryItem :=
      { content := content, metadata := metadata.getD Table.empty, id := id }
    change fun eis => { eis with memories := eis.memories ++ [item] }
    app.recordAudit "memory.add" "success" none none none none
    pure item

def createTask (id : UUID) (objective : String) (input : Value) : SdkProgram η ω ε Task :=
  if Text.strip objective = "" then throw (.valueError "objective must not be empty")
  else do
    let task : Task := { objective := objective, input := input, id := id }
    change fun eis => { eis with tasks := eis.tasks.setItem task.id task }
    change fun eis => eis.store { taskId := task.id, status := .queued }
    app.recordAudit "task.create" "success" (some task.id.str) none none none
    pure task

def registerAgent (name : String) (handler : η) : SdkProgram η ω ε PUnit :=
  if Text.strip name = "" then throw (.valueError "agent name must not be empty")
  else do
    change fun eis => { eis with agents := eis.agents.setItem name handler }
    app.recordAudit "agent.register" "success" none (some name) none none

/-- What `run_agent` raises for a `KeyError` in its `try` block. -/
def unknownAgent (name : String) : SdkException ε :=
  .keyError ("unknown agent: " ++ name)

/-- `AgentResult` of a handler's result, which may be one already -/
def agentResult (name : String) (task : Task) (result : Value) : AgentResult :=
  match app.isAgentResult result with
  | some result => result
  | none => { agent := name, task := task, output := result, completed := true }

def runAgent (name : String) (task : Task) : SdkProgram η ω ε AgentResult := do
  let session ← get
  let lookup : SdkProgram η ω ε (Returned η ω ε) :=
    match session.eis.agents.get? name with
    | none => throw (.keyError name)
    | some handler => invoke (app.agent handler task)
  let returned ← tryCatch lookup fun exception =>
    if app.catchesKeyError exception then throw (unknownAgent name) else throw exception
  change fun eis => eis.store { taskId := task.id, status := .running }
  let result ← settle returned
  let agentResult := app.agentResult name task result
  change fun eis => eis.store
    { taskId := task.id
      status := if agentResult.completed then .completed else .failed
      output := agentResult.output
      error := agentResult.error }
  app.recordAudit "agent.run" "success" (some task.id.str) (some name) none none
  pure agentResult

def registerTool (name : String) (handler : η) : SdkProgram η ω ε PUnit :=
  if Text.strip name = "" then throw (.valueError "tool name must not be empty")
  else do
    change fun eis => { eis with tools := eis.tools.setItem name handler }
    app.recordAudit "tool.register" "success" none none (some name) none

def executionResult (name : String) (result : Value) : ExecutionResult :=
  match app.isExecutionResult result with
  | some result => result
  | none => { action := name, success := true, output := result }

def execute (name : String) (args : List Value) (kwargs : Dict) :
    SdkProgram η ω ε ExecutionResult := do
  let session ← get
  match session.eis.tools.get? name with
  | none => throw (.keyError ("unknown tool: " ++ name))
  | some handler => do
      let returned ← invoke (app.tool handler args kwargs)
      let result ← settle returned
      app.recordAudit "tool.execute" "success" none none (some name) none
      pure (app.executionResult name result)

def evaluateIdea (subject : String) (evaluator : EvaluatorAdapter η ω ε) :
    SdkProgram η ω ε EvaluationResult :=
  if Text.strip subject = "" then throw (.valueError "subject must not be empty")
  else do
    let returned ← invoke (evaluator.call subject)
    let result ← settle returned
    match app.isEvaluationResult result with
    | none => throw (.typeError "evaluator must return EvaluationResult")
    | some result => do
        app.recordAudit "idea.evaluate" "success" none none (some subject) none
        pure result

def executeEngineering (task : Task) (engineer : Engineer η ω ε) :
    SdkProgram η ω ε EngineeringResult := do
  app.recordAudit "engineering.execute" "started" (some task.id.str) none none none
  let attempt : SdkProgram η ω ε EngineeringResult := do
    let returned ← invoke (engineer.call task)
    let result ← settle returned
    let (status, summary) ← lift (app.outcome result)
    app.recordAudit "engineering.execute" "success" (some task.id.str) none none none
    pure { task := task, status := status, summary := summary, raw := result }
  tryCatch attempt fun exception =>
    if app.catchesException exception then do
      let message ← lift (app.message exception)
      app.recordAudit "engineering.execute" "failed" (some task.id.str) none none (some message)
      pure { task := task, status := "failed", summary := message }
    else throw exception

def orchestrate (workflow : String) (task : Task) (runner : Runner η ω ε) :
    SdkProgram η ω ε WorkflowResult :=
  if Text.strip workflow = "" then throw (.valueError "workflow name must not be empty")
  else do
    let attempt : SdkProgram η ω ε WorkflowResult := do
      let returned ← invoke (runner.call workflow task)
      let output ← settle returned
      app.recordAudit "workflow.run" "success" (some task.id.str) none (some workflow) none
      pure { workflow := workflow, success := true, output := output }
    tryCatch attempt fun exception =>
      if app.catchesException exception then do
        let message ← lift (app.message exception)
        app.recordAudit "workflow.run" "failed" (some task.id.str) none (some workflow)
          (some message)
        pure { workflow := workflow, success := false, error := some message }
      else throw exception

end Application

end Eis.Sdk
