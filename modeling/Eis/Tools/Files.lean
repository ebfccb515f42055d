import Eis.Foundation.FileSystem
import Eis.Tools.Models

/-!
# The tools that read and write files

`FilesystemTool` and `RepositoryInspectionTool` on a file system with symbolic
links.  A path is resolved before it is compared with the root, and nothing comes
between that and its use, so neither tool leaves its root.
-/

set_option autoImplicit false

namespace Eis.Tools

/-- The machine the tools run on: how many links it follows, where it lets them
write, and the texts of its errors and of what is no text. -/
structure Machine where
  links : ℕ
  grants : FileSystem.Grants
  message : OsError → Location → String
  text : Value → String

structure FileExecution where
  files : FileSystem
  outcome : ToolOutcome

namespace Machine

variable (machine : Machine)

/-- The exception of the operating system; one is a `PermissionError`. -/
def exception (error : OsError) (place : Location) : ToolException :=
  match error with
  | .permission => .permissionError (machine.message error place)
  | _ => .other (machine.message error place)

def str : Value → String
  | .str text => text
  | value => machine.text value

/-- `root.resolve()` -/
def base (files : FileSystem) (root : Location) : Except ToolException Location :=
  match files.realpath machine.links [] (FileSystem.parts root) with
  | none => .error (machine.exception .loop root)
  | some base => .ok base

/-- `(base / requested).resolve()` -/
def candidate (files : FileSystem) (base : Location) (requested : String) :
    Except ToolException Location :=
  let (absolute, parts) := FileSystem.parsePath requested
  match files.realpath machine.links []
      (if absolute then parts else FileSystem.parts base ++ parts) with
  | none => .error (machine.exception .loop base)
  | some place => .ok place

def safePath (files : FileSystem) (root : Location) (requested : String) :
    Except ToolException Location := do
  let base ← machine.base files root
  let candidate ← machine.candidate files base requested
  if base <+: candidate then return candidate
  else throw (.permissionError "path escapes tool root")

end Machine

/-- `str(path)` of an absolute path -/
def pathText (place : Location) : String := "/" ++ FileTree.posix place

namespace FilesystemTool

variable (machine : Machine) (root : Location)

/-- `path.read_text()` as the result of the tool -/
def read (files : FileSystem) (path : Location) : FileExecution where
  files := files
  outcome :=
    match files.readText machine.links path with
    | .ok content => .returned { status := .success, output := .str content }
    | .error error => .raised (machine.exception error path)

/-- `path.parent.mkdir(parents=True, exist_ok=True)` and `path.write_text(content)` -/
def write (files : FileSystem) (path : Location) (content : String) : FileExecution :=
  match files.mkdirs machine.grants [] path.dropLast with
  | (made, .error error) => ⟨made, .raised (machine.exception error path.dropLast)⟩
  | (made, .ok ()) =>
      match made.writeText machine.grants machine.links path content with
      | (written, .error error) => ⟨written, .raised (machine.exception error path)⟩
      | (written, .ok ()) =>
          ⟨written, .returned
            { status := .success
              output := .dict [("path", .str (pathText path))] }⟩

def execute (files : FileSystem) (request : ToolRequest) : FileExecution :=
  let operation := request.arguments.get? "operation"
  let requested := machine.str ((request.arguments.get? "path").getD (.str ""))
  match machine.safePath files root requested with
  | .error exception => ⟨files, .raised exception⟩
  | .ok path =>
      match operation with
      | some (.str "read") =>
          if "filesystem.read" ∉ request.grantedPermissions then
            ⟨files, .raised (.permissionError "missing filesystem.read permission")⟩
          else read machine files path
      | some (.str "write") =>
          if "filesystem.write" ∉ request.grantedPermissions then
            ⟨files, .raised (.permissionError "missing filesystem.write permission")⟩
          else
            match request.arguments.get? "content" with
            | some (.str content) => write machine files path content
            | _ =>
                ⟨files, .returned { status := .failed, error := some "content must be a string" }⟩
      | _ =>
          ⟨files, .returned
            { status := .failed, error := some "unsupported filesystem operation" }⟩

end FilesystemTool

namespace RepositoryInspectionTool

variable (machine : Machine) (root : Location)

/-- `super().execute(...)` with a request that asks for nothing but to read. -/
def execute (files : FileSystem) (request : ToolRequest) : FileExecution :=
  if "repository.read" ∉ request.grantedPermissions then
    ⟨files, .raised (.permissionError "missing repository.read permission")⟩
  else
    match request.arguments.get? "operation" with
    | some (.str "read") =>
        FilesystemTool.execute machine root files
          { tool := request.tool
            arguments := Value.toDict
              [("operation", .str "read"),
                ("path", (request.arguments.get? "path").getD (.str ""))]
            grantedPermissions := ["filesystem.read"]
            agentId := request.agentId
            taskId := request.taskId
            requestId := request.requestId }
    | _ => ⟨files, .raised (.permissionError "repository inspection is read-only")⟩

end RepositoryInspectionTool

/-! ## Confinement -/

structure Inside (files : FileSystem) (base place : Location) : Prop where
  below : base <+: place
  real : files.Real place

def ChangedBelow (base : Location) (before after : FileSystem) : Prop :=
  ∃ place, Inside before base place ∧ ∀ way, after.node way = before.node way ∨
    (way = place ∧ before.node way ≠ some .directory ∧
      ∃ content, after.node way = some (.file content)) ∨
    (way <+: place ∧ before.node way = none ∧ after.node way = some .directory)

variable {machine : Machine} {root : Location} {files : FileSystem} {request : ToolRequest}

theorem safePath_inside {requested : String} {place : Location}
    (safe : machine.safePath files root requested = .ok place) :
    ∃ base, machine.base files root = .ok base ∧ Inside files base place := by
  unfold Machine.safePath at safe
  cases based : machine.base files root with
  | error exception => simp [based, bind, Except.bind] at safe
  | ok base =>
      cases resolved : machine.candidate files base requested with
      | error exception => simp [based, resolved, bind, Except.bind] at safe
      | ok candidate =>
          simp only [based, resolved, bind, Except.bind] at safe
          split at safe
          · rename_i below
            obtain rfl : candidate = place := Except.ok.inj safe
            refine ⟨base, rfl, below, ?_⟩
            unfold Machine.candidate at resolved
            simp only at resolved
            split at resolved
            · cases resolved
            · rename_i found
              rw [← Except.ok.inj resolved]
              exact FileSystem.realpath_real FileSystem.Real.nil found
          · cases safe

theorem read_content {base place : Location} {content : String} {result : ToolResult}
    (inside : Inside files base place)
    (returned : (FilesystemTool.read machine files place).outcome = .returned result)
    (shown : result.output = .str content) : files.node place = some (.file content) := by
  unfold FilesystemTool.read at returned
  simp only at returned
  split at returned
  · rename_i text read
    cases returned
    obtain rfl : text = content := by simpa using shown
    exact FileSystem.node_of_readText inside.real read
  · cases returned

theorem write_files (place : Location) (content : String) :
    (FilesystemTool.write machine files place content).files =
      match files.mkdirs machine.grants [] place.dropLast with
      | (made, .error _) => made
      | (made, .ok ()) => (made.writeText machine.grants machine.links place content).1 := by
  unfold FilesystemTool.write
  split
  · rfl
  · rename_i made _
    rcases made.writeText machine.grants machine.links place content with ⟨written, _ | _⟩ <;> rfl

theorem write_changedBelow {base place : Location} (inside : Inside files base place)
    (content : String) :
    ChangedBelow base files (FilesystemTool.write machine files place content).files := by
  refine ⟨place, inside, fun way => ?_⟩
  have made := files.node_mkdirs machine.grants [] place.dropLast way
  have kept := FileSystem.real_mkdirs machine.grants inside.real [] place.dropLast
  have sooner : way <+: [] ++ place.dropLast → way <+: place :=
    fun before => before.trans (List.dropLast_prefix place)
  rw [write_files]
  generalize files.mkdirs machine.grants [] place.dropLast = result at made kept ⊢
  obtain ⟨next, error | _⟩ := result
  · rcases made with same | ⟨absent, directory, before⟩
    · exact Or.inl same
    · exact Or.inr (Or.inr ⟨sooner before, absent, directory⟩)
  · rcases FileSystem.node_writeText machine.grants kept machine.links content way with
      same | ⟨own, free, file⟩
    · simp only at made same ⊢
      rw [same]
      rcases made with unchanged | ⟨absent, directory, before⟩
      · exact Or.inl unchanged
      · exact Or.inr (Or.inr ⟨sooner before, absent, directory⟩)
    · refine Or.inr (Or.inl ⟨own, ?_, content, file⟩)
      rcases made with unchanged | ⟨absent, _, _⟩
      · exact fun directory => free (unchanged.trans directory)
      · rw [absent]
        simp

theorem write_output {place : Location} {content text : String} {result : ToolResult}
    (returned : (FilesystemTool.write machine files place content).outcome = .returned result) :
    result.output ≠ .str text := by
  unfold FilesystemTool.write at returned
  split at returned
  · cases returned
  · split at returned
    · cases returned
    · obtain rfl := ToolOutcome.returned.inj returned
      simp

/-- What an execution may do to the files, and what a text that it returns is. -/
structure Confined (files : FileSystem) (base : Except ToolException Location)
    (readable writable : Prop) (execution : FileExecution) : Prop where
  changes : (∀ way, execution.files.node way = files.node way) ∨
    writable ∧ ∃ place, base = .ok place ∧ ChangedBelow place files execution.files
  reads : ∀ result content, execution.outcome = .returned result →
    result.output = .str content →
    readable ∧ ∃ root place, base = .ok root ∧ Inside files root place ∧
      files.node place = some (.file content)

theorem Confined.idle {base : Except ToolException Location} {readable writable : Prop}
    {outcome : ToolOutcome}
    (silent : ∀ result content, outcome = .returned result → result.output ≠ .str content) :
    Confined files base readable writable ⟨files, outcome⟩ where
  changes := Or.inl fun _ => rfl
  reads := fun result content returned shown => absurd shown (silent result content returned)

theorem filesystem_confined :
    Confined files (machine.base files root) ("filesystem.read" ∈ request.grantedPermissions)
      (request.arguments.get? "operation" = some (.str "write") ∧
        "filesystem.write" ∈ request.grantedPermissions)
      (FilesystemTool.execute machine root files request) := by
  unfold FilesystemTool.execute
  simp only
  split
  · exact Confined.idle (by simp)
  · rename_i place safe
    obtain ⟨base, based, inside⟩ := safePath_inside safe
    split
    · split
      · exact Confined.idle (by simp)
      · rename_i granted
        rw [not_not] at granted
        refine ⟨Or.inl fun _ => rfl, ?_⟩
        intro result content returned shown
        exact ⟨granted, base, place, based, inside, read_content inside returned shown⟩
    · rename_i asked
      split
      · exact Confined.idle (by simp)
      · rename_i granted
        rw [not_not] at granted
        split
        · rename_i content _
          refine ⟨Or.inr ⟨⟨asked, granted⟩, base, based, write_changedBelow inside content⟩, ?_⟩
          intro result text returned shown
          exact absurd shown (write_output returned)
        · refine Confined.idle ?_
          intro result text returned shown
          obtain rfl := ToolOutcome.returned.inj returned
          cases shown
    · refine Confined.idle ?_
      intro result text returned shown
      obtain rfl := ToolOutcome.returned.inj returned
      cases shown

theorem Confined.mono {base : Except ToolException Location}
    {readable writable readable' writable' : Prop} {execution : FileExecution}
    (confined : Confined files base readable writable execution) (read : readable → readable')
    (write : writable → writable') : Confined files base readable' writable' execution where
  changes := confined.changes.imp_right fun changed => ⟨write changed.1, changed.2⟩
  reads := fun result content returned shown =>
    (confined.reads result content returned shown).imp_left read

theorem inspection_confined :
    Confined files (machine.base files root) ("repository.read" ∈ request.grantedPermissions)
      False (RepositoryInspectionTool.execute machine root files request) := by
  unfold RepositoryInspectionTool.execute
  split
  · exact Confined.idle (by simp)
  · rename_i granted
    rw [not_not] at granted
    split
    · refine filesystem_confined.mono (fun _ => granted) ?_
      rintro ⟨asked, _⟩
      simp [Value.toDict, OrderedDict.get?_setItem] at asked
    · exact Confined.idle (by simp)

/-- Neither tool touches or shows anything that does not lie below its root, links
followed; the one writes only what it is asked and permitted to, the other nothing. -/
theorem file_tools_confined (machine : Machine) (root : Location) (files : FileSystem)
    (request : ToolRequest) :
    Confined files (machine.base files root) ("filesystem.read" ∈ request.grantedPermissions)
        (request.arguments.get? "operation" = some (.str "write") ∧
          "filesystem.write" ∈ request.grantedPermissions)
        (FilesystemTool.execute machine root files request) ∧
      Confined files (machine.base files root) ("repository.read" ∈ request.grantedPermissions)
        False (RepositoryInspectionTool.execute machine root files request) :=
  ⟨filesystem_confined, inspection_confined⟩

end Eis.Tools
