import Eis.Foundation.Utf8
import Eis.Tools.Models

/-!
# The tools that run commands

`ShellTool`, `GitTool` and `TestExecutionTool` over the one subprocess backend.
What an execution does to the outside is the list of the argument vectors with
which it starts processes.
-/

set_option autoImplicit false

namespace Eis.Tools

inductive ProcessOutcome where
  | exited (returncode : ℤ) (stdout stderr : List UInt8) (seconds : ℚ)
  | timedOut (seconds : ℚ)
  | raised (exception : ToolException)
  | cancelled

structure Execution where
  started : List (List String)
  outcome : ToolOutcome

namespace Execution

def raise (exception : ToolException) : Execution := ⟨[], .raised exception⟩

/-- `raise ToolSecurityError(message)` -/
def deny (message : String) : Execution := raise (.permissionError message)

/-- `return ToolResult(ExecutionStatus.FAILED, error=error)` -/
def fail (error : String) : Execution :=
  ⟨[], .returned { status := .failed, error := some error }⟩

end Execution

/-! ## The backend -/

/-- `isinstance(part, str) and part` for every part. -/
def commandLine? : List Value → Option (List String)
  | [] => some []
  | .str part :: rest => if part = "" then none else (commandLine? rest).map (part :: ·)
  | _ :: _ => none

namespace LocalSubprocessBackend

variable (process : List String → ProcessOutcome)

def start (argv : List String) (timeoutSeconds : ℚ) : Execution where
  started := [argv]
  outcome :=
    match process argv with
    | .exited returncode stdout stderr seconds =>
        .returned
          { status := if returncode = 0 then .success else .failed
            stdout := Utf8.decode stdout
            stderr := Utf8.decode stderr
            exitCode := some returncode
            durationSeconds := seconds }
    | .timedOut seconds =>
        .returned
          { status := .timeout
            error := some ("process timed out after " ++ fixed3 timeoutSeconds ++ "s")
            durationSeconds := seconds }
    | .raised exception => .raised exception
    | .cancelled => .cancelled

/-- `run` with the `argv` of its arguments. -/
def run (argv : Value) (timeoutSeconds : ℚ) : Execution :=
  let parts : Option (List Value) :=
    match argv with
    | .list items => some items
    | .tuple items => some items
    | _ => none
  match parts with
  | none => .fail "argv must be a sequence"
  | some items =>
      match commandLine? items with
      | none => .fail "argv contains invalid values"
      | some [] =>
          .raise (.other
            "create_subprocess_exec() missing 1 required positional argument: 'program'")
      | some (program :: rest) => start process (program :: rest) timeoutSeconds

end LocalSubprocessBackend

/-! ## The tools -/

/-- `all(isinstance(x, str) for x in argv)` -/
def strings? : List Value → Option (List String)
  | [] => some []
  | .str part :: rest => (strings? rest).map (part :: ·)
  | _ :: _ => none

structure ShellTool where
  allowedCommands : List String

def metacharacters : List String := [";", "&&", "||", "|", ">", ">>"]

def ShellTool.execute (tool : ShellTool) (process : List String → ProcessOutcome)
    (request : ToolRequest) : Execution :=
  if "shell.execute" ∉ request.grantedPermissions then .deny "missing shell.execute permission"
  else
    match request.arguments.get? "argv" with
    | some (.list items) =>
        match strings? items with
        | some (program :: rest) =>
            if program ∉ tool.allowedCommands then
              .deny ("command is not allowlisted: " ++ program)
            else if ∃ token ∈ program :: rest, token ∈ metacharacters then
              .deny "shell metacharacters are prohibited"
            else LocalSubprocessBackend.run process (.list items) 30
        | _ => .fail "argv must be a non-empty string list"
    | _ => .fail "argv must be a non-empty string list"

/-- A `ShellTool` whose `execute` is its own. -/
def GitTool : ShellTool := ⟨["git"]⟩

def gitOperations : List String :=
  ["status", "diff", "log", "show", "branch", "rev-parse", "ls-files"]

def GitTool.execute (process : List String → ProcessOutcome) (request : ToolRequest) :
    Execution :=
  if "git.read" ∉ request.grantedPermissions then .deny "missing git.read permission"
  else
    match request.arguments.get? "argv" with
    | some (.list (program :: operation :: rest)) =>
        -- a set looks up the hash of the operation first
        match operation.unhashable? with
        | some type => .raise (.other ("unhashable type: '" ++ type ++ "'"))
        | none =>
            if ∃ name ∈ gitOperations, operation.text? = some name then
              LocalSubprocessBackend.run process (.list (program :: operation :: rest)) 30
            else .deny "git operation is not allowlisted"
    | _ => .deny "git operation is not allowlisted"

def TestExecutionTool : ShellTool := ⟨["pytest"]⟩

def TestExecutionTool.execute (process : List String → ProcessOutcome) (request : ToolRequest) :
    Execution :=
  if "tests.execute" ∉ request.grantedPermissions then .deny "missing tests.execute permission"
  else
    match request.arguments.get? "argv" with
    | some (.list (.str program :: rest)) =>
        if program = "pytest" then
          LocalSubprocessBackend.run process (.list (.str program :: rest)) 120
        else .deny "only pytest is allowed"
    | _ => .deny "only pytest is allowed"

/-! ## What they start -/

inductive CommandTool where
  | shell (tool : ShellTool)
  | git
  | tests

def CommandTool.allowedCommands : CommandTool → List String
  | .shell tool => tool.allowedCommands
  | .git => GitTool.allowedCommands
  | .tests => TestExecutionTool.allowedCommands

def CommandTool.execute : CommandTool → (List String → ProcessOutcome) → ToolRequest → Execution
  | .shell tool => tool.execute
  | .git => GitTool.execute
  | .tests => TestExecutionTool.execute

def Allowlisted (allowedCommands : List String) (execution : Execution) : Prop :=
  ∀ argv ∈ execution.started, (∀ part ∈ argv, part ≠ "") ∧
    ∃ program rest, argv = program :: rest ∧ program ∈ allowedCommands

/-- A permitted request for a Git operation of a program that is not Git. -/
def ForeignOperation (request : ToolRequest) : Prop :=
  "git.read" ∈ request.grantedPermissions ∧
    ∃ program operation rest,
      request.arguments.get? "argv" = some (.list ((program :: operation :: rest).map .str)) ∧
        operation ∈ gitOperations ∧ program ≠ "git" ∧
          ∀ part ∈ program :: operation :: rest, part ≠ ""

theorem commandLine?_eq_some_iff {items : List Value} {argv : List String} :
    commandLine? items = some argv ↔ items = argv.map .str ∧ ∀ part ∈ argv, part ≠ "" := by
  induction items generalizing argv with
  | nil =>
      cases argv with
      | nil => simp [commandLine?]
      | cons part rest => simp [commandLine?]
  | cons item items ih =>
      cases item with
      | str text =>
          by_cases empty : text = ""
          · cases argv with
            | nil => simp [commandLine?, empty]
            | cons part rest =>
                simp only [commandLine?, empty, if_true, reduceCtorEq, List.map_cons,
                  List.cons.injEq, Value.str.injEq, List.mem_cons, forall_eq_or_imp, false_iff]
                rintro ⟨⟨rfl, _⟩, nonempty, _⟩
                exact nonempty rfl
          · cases argv with
            | nil => simp [commandLine?, empty]
            | cons part rest =>
                simp only [commandLine?, empty, if_false, Option.map_eq_some_iff,
                  List.cons.injEq, List.map_cons, Value.str.injEq, List.mem_cons,
                  forall_eq_or_imp]
                constructor
                · rintro ⟨others, found, rfl, rfl⟩
                  obtain ⟨same, nonempty⟩ := ih.mp found
                  exact ⟨⟨rfl, same⟩, empty, nonempty⟩
                · rintro ⟨⟨rfl, same⟩, _, nonempty⟩
                  exact ⟨rest, ih.mpr ⟨same, nonempty⟩, rfl, rfl⟩
      | none | bool _ | int _ | float _ | bytes _ | list _ | tuple _ | dict _ | object _ =>
          cases argv <;> simp [commandLine?]

theorem mem_started_run {process : List String → ProcessOutcome} {items : List Value}
    {timeoutSeconds : ℚ} {argv : List String} :
    argv ∈ (LocalSubprocessBackend.run process (.list items) timeoutSeconds).started ↔
      argv ≠ [] ∧ items = argv.map .str ∧ ∀ part ∈ argv, part ≠ "" := by
  rw [← commandLine?_eq_some_iff]
  unfold LocalSubprocessBackend.run
  rcases found : commandLine? items with _ | _ | ⟨program, rest⟩
  · simp [found, Execution.fail]
  · simp only [found, Execution.raise]
    constructor
    · simp
    · rintro ⟨nonempty, same⟩
      exact absurd (Option.some.inj same).symm nonempty
  · simp only [found, LocalSubprocessBackend.start, List.mem_singleton]
    constructor
    · rintro rfl
      exact ⟨by simp, rfl⟩
    · rintro ⟨_, same⟩
      exact (Option.some.inj same).symm

theorem strings?_eq_some {items : List Value} {argv : List String}
    (texts : strings? items = some argv) : items = argv.map .str := by
  induction items generalizing argv with
  | nil =>
      obtain rfl : [] = argv := Option.some.inj texts
      rfl
  | cons item items ih =>
      cases item with
      | str text =>
          obtain ⟨others, found, rfl⟩ := Option.map_eq_some_iff.mp texts
          rw [List.map_cons, ih found]
      | none | bool _ | int _ | float _ | bytes _ | list _ | tuple _ | dict _ | object _ =>
          cases texts

theorem allowlisted_of_nothing {allowedCommands : List String} {outcome : ToolOutcome} :
    Allowlisted allowedCommands ⟨[], outcome⟩ := by
  intro argv started
  cases started

theorem allowlisted_run {allowedCommands : List String}
    {process : List String → ProcessOutcome} {program : String} {rest : List Value}
    {timeoutSeconds : ℚ} (allowed : program ∈ allowedCommands) :
    Allowlisted allowedCommands
      (LocalSubprocessBackend.run process (.list (.str program :: rest)) timeoutSeconds) := by
  intro argv started
  obtain ⟨nonempty, same, parts⟩ := mem_started_run.mp started
  obtain ⟨first, others, rfl⟩ := List.exists_cons_of_ne_nil nonempty
  obtain ⟨sameProgram, _⟩ := List.cons.inj same
  exact ⟨parts, first, others, rfl, Value.str.inj sameProgram ▸ allowed⟩

theorem shell_allowlisted (tool : ShellTool) (process : List String → ProcessOutcome)
    (request : ToolRequest) : Allowlisted tool.allowedCommands (tool.execute process request) := by
  unfold ShellTool.execute
  split
  · exact allowlisted_of_nothing
  · split
    · rename_i items _
      split
      · rename_i program rest texts
        split
        · exact allowlisted_of_nothing
        · rename_i allowed
          split
          · exact allowlisted_of_nothing
          · rw [strings?_eq_some texts]
            exact allowlisted_run (not_not.mp allowed)
      · exact allowlisted_of_nothing
    · exact allowlisted_of_nothing

theorem tests_allowlisted (process : List String → ProcessOutcome) (request : ToolRequest) :
    Allowlisted TestExecutionTool.allowedCommands
      (TestExecutionTool.execute process request) := by
  unfold TestExecutionTool.execute
  split
  · exact allowlisted_of_nothing
  · split
    · rename_i program rest _
      split
      · rename_i same
        exact allowlisted_run (by simp [same, TestExecutionTool])
      · exact allowlisted_of_nothing
    · exact allowlisted_of_nothing

theorem mem_started_git {process : List String → ProcessOutcome} {request : ToolRequest}
    {argv : List String} :
    argv ∈ (GitTool.execute process request).started ↔
      "git.read" ∈ request.grantedPermissions ∧ ∃ program operation rest,
        argv = program :: operation :: rest ∧
          request.arguments.get? "argv" = some (.list (argv.map .str)) ∧
            operation ∈ gitOperations ∧ ∀ part ∈ argv, part ≠ "" := by
  constructor
  · intro started
    unfold GitTool.execute at started
    split at started
    · cases started
    · rename_i permitted
      refine ⟨not_not.mp permitted, ?_⟩
      split at started
      · rename_i first second others found
        split at started
        · cases started
        · split at started
          · rename_i known
            obtain ⟨nonempty, same, parts⟩ := mem_started_run.mp started
            obtain ⟨name, listed, text⟩ := known
            rcases argv with _ | ⟨program, _ | ⟨operation, rest⟩⟩
            · simp at same
            · simp at same
            · obtain ⟨rfl, rfl, rfl⟩ : first = .str program ∧ second = .str operation ∧
                others = rest.map .str := by simpa using same
              obtain rfl : operation = name := Option.some.inj text
              exact ⟨program, operation, rest, rfl, found, listed, parts⟩
          · cases started
      · cases started
  · rintro ⟨permitted, program, operation, rest, rfl, found, known, parts⟩
    unfold GitTool.execute
    rw [if_neg (not_not.mpr permitted), found]
    have listed : ∃ name ∈ gitOperations, (Value.str operation).text? = some name :=
      ⟨operation, known, rfl⟩
    simp only [List.map_cons, Value.unhashable?, if_pos listed]
    exact mem_started_run.mpr ⟨by simp, by simp, parts⟩

/-- Only allowlisted programs are started, except for the programs that a
permitted request names in front of an operation of Git. -/
theorem allowlisted_iff (tool : CommandTool) (process : List String → ProcessOutcome)
    (request : ToolRequest) :
    Allowlisted tool.allowedCommands (tool.execute process request) ↔
      (tool = .git → ¬ ForeignOperation request) := by
  cases tool with
  | shell tool => exact iff_of_true (shell_allowlisted tool process request) (by simp)
  | tests => exact iff_of_true (tests_allowlisted process request) (by simp)
  | git =>
      constructor
      · rintro law _ ⟨permitted, program, operation, rest, argv, known, foreign, parts⟩
        have started : program :: operation :: rest ∈ (GitTool.execute process request).started :=
          mem_started_git.mpr ⟨permitted, program, operation, rest, rfl, argv, known, parts⟩
        obtain ⟨_, first, others, same, allowed⟩ := law _ started
        obtain ⟨rfl, _⟩ := List.cons.inj same
        exact foreign (List.mem_singleton.mp allowed)
      · intro proper argv started
        obtain ⟨permitted, program, operation, rest, rfl, found, known, parts⟩ :=
          mem_started_git.mp started
        refine ⟨parts, program, operation :: rest, rfl, List.mem_singleton.mpr ?_⟩
        by_contra foreign
        exact proper rfl ⟨permitted, program, operation, rest, found, known, foreign, parts⟩

def foreignRequest : ToolRequest where
  tool := "git"
  arguments := OrderedDict.setItem Table.empty "argv" (.list [.str "rm", .str "status"])
  grantedPermissions := ["git.read"]
  requestId := ⟨0⟩

def exitsWithZero (_ : List String) : ProcessOutcome := .exited 0 [] [] 0

/-- The Git tool starts the program that the request names. -/
theorem git_starts_foreign_program :
    (GitTool.execute exitsWithZero foreignRequest).started = [["rm", "status"]] ∧
      ¬ Allowlisted GitTool.allowedCommands (GitTool.execute exitsWithZero foreignRequest) := by
  have started : (GitTool.execute exitsWithZero foreignRequest).started = [["rm", "status"]] := rfl
  refine ⟨started, fun law => ?_⟩
  obtain ⟨_, program, rest, same, allowed⟩ := law ["rm", "status"] (by simp [started])
  obtain ⟨rfl, _⟩ := List.cons.inj same
  exact absurd allowed (by decide)

end Eis.Tools
