import Eis.Tools.Builtin
import Eis.Tools.Execution
import Eis.Tools.Files

/-!
# The default tools behind the executor

`PythonExecutionTool`, `HttpTool` and `default_tools`, and what calls of
`SecureExecutor.execute` with these tools do to the outside: to the files, to processes
and to the network.
-/

set_option autoImplicit false

namespace Eis.Tools

open Security

/-! ## The network -/

structure HttpUrl where
  scheme : String
  host : String

structure HttpCall where
  method : String
  url : String
deriving DecidableEq

inductive HttpOutcome where
  | answered (statusCode : ℤ) (body : String)
  | raised (exception : ToolException)
  | cancelled

structure Network where
  url : String → Except ToolException HttpUrl
  respond : HttpCall → HttpOutcome

/-! ## The machine and what is done to it -/

structure Computer where
  machine : Machine
  process : List String → ProcessOutcome
  network : Network

/-- What an execution leaves behind: the files, the processes that it started and the
requests that it sent. -/
structure Effects where
  files : FileSystem
  started : List (List String) := []
  sent : List HttpCall := []
  outcome : ToolOutcome

structure BuiltinTool where
  definition : ToolDefinition
  execute : Computer → FileSystem → ToolRequest → Effects

namespace HttpTool

def definition : ToolDefinition :=
  { name := "http"
    permissions := ["http.request"]
    riskLevel := .medium
    executionPolicy := .readOnly }

/-- `response.is_success` and the result with what came back. -/
def answer (statusCode : ℤ) (body : String) : ToolResult where
  status := if 200 ≤ statusCode ∧ statusCode ≤ 299 then .success else .failed
  output := .dict [("status_code", .int statusCode), ("body", .str body)]

def send (network : Network) (files : FileSystem) (call : HttpCall) : Effects where
  files := files
  sent := [call]
  outcome :=
    match network.respond call with
    | .answered statusCode body => .returned (answer statusCode body)
    | .raised exception => .raised exception
    | .cancelled => .cancelled

def execute (allowedHosts : List String) (computer : Computer) (files : FileSystem)
    (request : ToolRequest) : Effects :=
  if "http.request" ∉ request.grantedPermissions then
    { files := files, outcome := .raised (.permissionError "missing http.request permission") }
  else
    let method :=
      Text.upper (computer.machine.str ((request.arguments.get? "method").getD (.str "GET")))
    let url := computer.machine.str ((request.arguments.get? "url").getD (.str ""))
    match computer.network.url url with
    | .error exception => { files := files, outcome := .raised exception }
    | .ok parsed =>
        if parsed.scheme ≠ "https" ∨ parsed.host ∉ allowedHosts then
          { files := files
            outcome := .raised (.permissionError "HTTP target is not allowlisted HTTPS") }
        else if method ∉ ["GET", "HEAD"] then
          { files := files
            outcome :=
              .raised (.permissionError "only GET and HEAD are permitted by this tool") }
        else send computer.network files ⟨method, url⟩

end HttpTool

namespace PythonExecutionTool

def definition : ToolDefinition :=
  { name := "python"
    permissions := ["python.execute"]
    riskLevel := .critical
    executionPolicy := .prohibited }

def execute (files : FileSystem) : Effects where
  files := files
  outcome := .raised (.permissionError "local Python execution is prohibited")

end PythonExecutionTool

/-! ## The other definitions -/

def FilesystemTool.definition : ToolDefinition :=
  { name := "filesystem"
    permissions := ["filesystem.read"]
    riskLevel := .medium
    timeoutSeconds := 15
    executionPolicy := .safeWrite }

def ShellTool.definition : ToolDefinition :=
  { name := "shell"
    permissions := ["shell.execute"]
    riskLevel := .high
    executionPolicy := .highRisk }

def GitTool.definition : ToolDefinition :=
  { name := "git", permissions := ["git.read"] }

def RepositoryInspectionTool.definition : ToolDefinition :=
  { name := "repository.inspect", permissions := ["repository.read"], timeoutSeconds := 15 }

def TestExecutionTool.definition : ToolDefinition :=
  { name := "tests"
    permissions := ["tests.execute"]
    riskLevel := .medium
    timeoutSeconds := 120
    executionPolicy := .controlledWrite }

def FileExecution.effects (execution : FileExecution) : Effects where
  files := execution.files
  outcome := execution.outcome

def Execution.effects (files : FileSystem) (execution : Execution) : Effects where
  files := files
  started := execution.started
  outcome := execution.outcome

/-- `default_tools`, when `root.resolve()` has come to this place. -/
def defaultTools (root : Location) (httpHosts : List String) : List (String × BuiltinTool) :=
  [("filesystem",
      { definition := FilesystemTool.definition
        execute := fun computer files request =>
          (FilesystemTool.execute computer.machine root files request).effects }),
    ("shell",
      { definition := ShellTool.definition
        execute := fun computer files request =>
          ((ShellTool.mk []).execute computer.process request).effects files }),
    ("git",
      { definition := GitTool.definition
        execute := fun computer files request =>
          (GitTool.execute computer.process request).effects files }),
    ("repository.inspect",
      { definition := RepositoryInspectionTool.definition
        execute := fun computer files request =>
          (RepositoryInspectionTool.execute computer.machine root files request).effects }),
    ("tests",
      { definition := TestExecutionTool.definition
        execute := fun computer files request =>
          (TestExecutionTool.execute computer.process request).effects files }),
    ("python",
      { definition := PythonExecutionTool.definition
        execute := fun _ files _ => PythonExecutionTool.execute files }),
    ("http",
      { definition := HttpTool.definition
        execute := HttpTool.execute httpHosts })]

/-! ## Runs of the executor -/

structure Toolbox where
  computer : Computer
  root : Location
  httpHosts : List String := []
  authorize : ToolRequest → ToolDefinition → Except ToolException Unit :=
    ({} : SecurityPolicy).authorize
  limits : ExecutionLimits := {}
  protector : RedactingProtector := {}

structure Sandbox where
  files : FileSystem
  audit : List AuditEvent := []
  started : List (List String) := []
  sent : List HttpCall := []

/-- A request, with the time that it takes; or whatever else is done to the files, by
processes that were started too. -/
inductive SandboxEvent where
  | request (request : ToolRequest) (seconds : ℚ)
  | others (files : FileSystem)

namespace Toolbox

variable (box : Toolbox)

def tool? (name : String) : Option BuiltinTool :=
  (defaultTools box.root box.httpHosts).lookup name

def executor (sandbox : Sandbox) : SecureExecutor where
  tools := fun name => (box.tool? name).map fun tool =>
    { definition := tool.definition
      execute := fun request => (tool.execute box.computer sandbox.files request).outcome }
  audit := sandbox.audit
  authorize := box.authorize
  limits := box.limits
  protector := box.protector

def invoke (sandbox : Sandbox) (request : ToolRequest) : Option Effects :=
  (box.tool? request.tool).map fun tool => tool.execute box.computer sandbox.files request

/-- A call of `execute`; the tool runs only when it is invoked. -/
def execute (sandbox : Sandbox) (request : ToolRequest) (seconds : ℚ) : Sandbox :=
  let executed := (box.executor sandbox).execute request seconds
  match executed.invoked.bind (box.invoke sandbox) with
  | none => { sandbox with audit := executed.executor.audit }
  | some effects =>
      { files := effects.files
        audit := executed.executor.audit
        started := sandbox.started ++ effects.started
        sent := sandbox.sent ++ effects.sent }

def result (sandbox : Sandbox) (request : ToolRequest) (seconds : ℚ) : Option ToolResult :=
  ((box.executor sandbox).execute request seconds).result

def step (sandbox : Sandbox) : SandboxEvent → Sandbox
  | .request request seconds => box.execute sandbox request seconds
  | .others files => { sandbox with files := files }

def run (events : List SandboxEvent) (sandbox : Sandbox) : Sandbox :=
  events.foldl box.step sandbox

end Toolbox

end Eis.Tools
