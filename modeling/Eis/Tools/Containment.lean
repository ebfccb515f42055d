import Eis.Tools.Defaults

/-!
# What the default tools can do

Every process, every HTTP request and every change of a file in a run of the executor
belongs to a request that was admitted for it, and the files change below the root only.
-/

set_option autoImplicit false

namespace Eis.Tools

namespace Toolbox

variable (box : Toolbox)

/-! ## What a request may do -/

def Admits (request : ToolRequest) (name : String) (definition : ToolDefinition) : Prop :=
  request.tool = name ∧ (request.arguments.rows.length : ℤ) ≤ box.limits.maxArguments ∧
    definition.timeoutSeconds ≤ box.limits.maxTimeoutSeconds ∧
    (∀ permission ∈ definition.permissions, permission ∈ request.grantedPermissions) ∧
    box.authorize request definition = .ok ()

/-- The request may start the process: `pytest`, or whatever program with a listed operation
of Git behind it; the further words are free. -/
def Starts (request : ToolRequest) (argv : List String) : Prop :=
  (∀ part ∈ argv, part ≠ "") ∧
    ((box.Admits request "git" GitTool.definition ∧ ∃ program operation rest,
        argv = program :: operation :: rest ∧ operation ∈ gitOperations) ∨
      (box.Admits request "tests" TestExecutionTool.definition ∧ ∃ rest,
        argv = "pytest" :: rest))

/-- The request may send this: a `GET` or `HEAD` to an `https` host of the list. -/
def Sends (request : ToolRequest) (call : HttpCall) : Prop :=
  box.Admits request "http" HttpTool.definition ∧
    (call.method = "GET" ∨ call.method = "HEAD") ∧
    ∃ parsed, box.computer.network.url call.url = .ok parsed ∧ parsed.scheme = "https" ∧
      parsed.host ∈ box.httpHosts

def Writes (request : ToolRequest) : Prop :=
  box.Admits request "filesystem" FilesystemTool.definition ∧
    request.arguments.get? "operation" = some (.str "write") ∧
    "filesystem.write" ∈ request.grantedPermissions

def Reads (request : ToolRequest) : Prop :=
  box.Admits request "filesystem" FilesystemTool.definition ∨
    box.Admits request "repository.inspect" RepositoryInspectionTool.definition

end Toolbox

/-- What has changed lies at the root or below it, save directories that were missing on
the way to the root. -/
def ChangedInside (root : Location) (before after : FileSystem) : Prop :=
  ∀ way, ¬ root <+: way → after.node way = before.node way ∨
    way <+: root ∧ before.node way = none ∧ after.node way = some .directory

theorem ChangedInside.refl (root : Location) (files : FileSystem) :
    ChangedInside root files files :=
  fun _ _ => Or.inl rfl

theorem ChangedInside.trans {root : Location} {first second third : FileSystem}
    (sooner : ChangedInside root first second) (later : ChangedInside root second third) :
    ChangedInside root first third := by
  intro way outside
  rcases later way outside with same | ⟨before, absent, directory⟩
  · rw [same]
    exact sooner way outside
  · rcases sooner way outside with same | ⟨_, _, present⟩
    · exact Or.inr ⟨before, same ▸ absent, directory⟩
    · rw [present] at absent
      cases absent

theorem ChangedBelow.inside {root : Location} {before after : FileSystem}
    (changed : ChangedBelow root before after) : ChangedInside root before after := by
  obtain ⟨place, inside, nodes⟩ := changed
  intro way outside
  rcases nodes way with same | ⟨rfl, _⟩ | ⟨way_place, absent, directory⟩
  · exact Or.inl same
  · exact absurd inside.below outside
  · refine Or.inr ⟨?_, absent, directory⟩
    exact (List.prefix_or_prefix_of_prefix way_place inside.below).resolve_right outside

theorem ChangedBelow.real {root place : Location} {before after : FileSystem}
    (changed : ChangedBelow root before after) (real : before.Real place) :
    after.Real place := by
  obtain ⟨_, _, nodes⟩ := changed
  intro way sooner absolute target
  rcases nodes way with same | ⟨_, _, content, file⟩ | ⟨_, _, directory⟩
  · rw [same]
    exact real way sooner absolute target
  · rw [file]
    exact nofun
  · rw [directory]
    exact nofun

/-! ## What each tool does -/

structure Toolbox.Bounded (box : Toolbox) (request : ToolRequest) (before : FileSystem)
    (effects : Effects) : Prop where
  started : ∀ argv ∈ effects.started, box.Starts request argv
  sent : ∀ call ∈ effects.sent, box.Sends request call
  single : effects.started.length + effects.sent.length ≤ 1
  files : (∀ way, effects.files.node way = before.node way) ∨
    box.Writes request ∧ ∃ base, box.computer.machine.base before box.root = .ok base ∧
      ChangedBelow base before effects.files
  texts : ∀ result content, effects.outcome = .returned result → result.output = .str content →
    box.Reads request ∧ ∃ base place, box.computer.machine.base before box.root = .ok base ∧
      Inside before base place ∧ before.node place = some (.file content)

theorem length_started_run (process : List String → ProcessOutcome) (argv : Value)
    (timeoutSeconds : ℚ) :
    (LocalSubprocessBackend.run process argv timeoutSeconds).started.length ≤ 1 := by
  unfold LocalSubprocessBackend.run
  simp only
  split
  · exact Nat.zero_le 1
  · split
    · exact Nat.zero_le 1
    · exact Nat.zero_le 1
    · exact Nat.le_refl 1

theorem output_run {process : List String → ProcessOutcome} {argv : Value} {timeoutSeconds : ℚ}
    {result : ToolResult}
    (returned : (LocalSubprocessBackend.run process argv timeoutSeconds).outcome =
      .returned result) : result.output = .none := by
  unfold LocalSubprocessBackend.run at returned
  simp only at returned
  split at returned
  · exact (ToolOutcome.returned.inj returned) ▸ rfl
  · split at returned
    · exact (ToolOutcome.returned.inj returned) ▸ rfl
    · cases returned
    · unfold LocalSubprocessBackend.start at returned
      simp only at returned
      split at returned
      · exact (ToolOutcome.returned.inj returned) ▸ rfl
      · exact (ToolOutcome.returned.inj returned) ▸ rfl
      · cases returned
      · cases returned

theorem output_shell {tool : ShellTool} {process : List String → ProcessOutcome}
    {request : ToolRequest} {result : ToolResult}
    (returned : (tool.execute process request).outcome = .returned result) :
    result.output = .none := by
  unfold ShellTool.execute at returned
  split at returned
  · cases returned
  · split at returned
    · split at returned
      · split at returned
        · cases returned
        · split at returned
          · cases returned
          · exact output_run returned
      · exact (ToolOutcome.returned.inj returned) ▸ rfl
    · exact (ToolOutcome.returned.inj returned) ▸ rfl

theorem raise_never (exception : ToolException) (result : ToolResult) :
    (Execution.raise exception).outcome ≠ .returned result := by
  intro same
  cases same

theorem git_cases (process : List String → ProcessOutcome) (request : ToolRequest) :
    (GitTool.execute process request).started = [] ∧
        (∀ result, (GitTool.execute process request).outcome ≠ .returned result) ∨
      ∃ argv, GitTool.execute process request = LocalSubprocessBackend.run process argv 30 := by
  unfold GitTool.execute
  split
  · exact Or.inl ⟨rfl, raise_never _⟩
  · split
    · split
      · exact Or.inl ⟨rfl, raise_never _⟩
      · split
        · exact Or.inr ⟨_, rfl⟩
        · exact Or.inl ⟨rfl, raise_never _⟩
    · exact Or.inl ⟨rfl, raise_never _⟩

theorem tests_cases (process : List String → ProcessOutcome) (request : ToolRequest) :
    (TestExecutionTool.execute process request).started = [] ∧
        (∀ result, (TestExecutionTool.execute process request).outcome ≠ .returned result) ∨
      ∃ argv, TestExecutionTool.execute process request =
        LocalSubprocessBackend.run process argv 120 := by
  unfold TestExecutionTool.execute
  split
  · exact Or.inl ⟨rfl, raise_never _⟩
  · split
    · split
      · exact Or.inr ⟨_, rfl⟩
      · exact Or.inl ⟨rfl, raise_never _⟩
    · exact Or.inl ⟨rfl, raise_never _⟩

namespace Toolbox

variable {box : Toolbox} {request : ToolRequest} {files : FileSystem}

theorem Bounded.of_execution {execution : Execution}
    (started : ∀ argv ∈ execution.started, box.Starts request argv)
    (single : execution.started.length ≤ 1)
    (silent : ∀ result, execution.outcome = .returned result → result.output = .none) :
    box.Bounded request files (execution.effects files) where
  started := started
  sent := fun _ sent => absurd sent List.not_mem_nil
  single := single
  files := Or.inl fun _ => rfl
  texts := by
    intro result content returned shown
    rw [silent result returned] at shown
    cases shown

theorem Bounded.of_files {execution : FileExecution} {readable writable : Prop}
    (confined : Confined files (box.computer.machine.base files box.root) readable writable
      execution)
    (reads : readable → box.Reads request) (writes : writable → box.Writes request) :
    box.Bounded request files execution.effects where
  started := fun _ started => absurd started List.not_mem_nil
  sent := fun _ sent => absurd sent List.not_mem_nil
  single := Nat.zero_le 1
  files := confined.changes.imp_right fun changed => ⟨writes changed.1, changed.2⟩
  texts := fun result content returned shown =>
    (confined.reads result content returned shown).imp_left reads

theorem filesystem_bounded (admits : box.Admits request "filesystem" FilesystemTool.definition) :
    box.Bounded request files
      (FilesystemTool.execute box.computer.machine box.root files request).effects := by
  refine Bounded.of_files filesystem_confined (fun _ => Or.inl admits) ?_
  rintro ⟨asked, granted⟩
  exact ⟨admits, asked, granted⟩

theorem inspection_bounded
    (admits : box.Admits request "repository.inspect" RepositoryInspectionTool.definition) :
    box.Bounded request files
      (RepositoryInspectionTool.execute box.computer.machine box.root files request).effects :=
  Bounded.of_files inspection_confined (fun _ => Or.inr admits) False.elim

theorem shell_bounded : box.Bounded request files
    (((ShellTool.mk []).execute box.computer.process request).effects files) := by
  have none : ((ShellTool.mk []).execute box.computer.process request).started = [] := by
    refine List.eq_nil_iff_forall_not_mem.mpr fun argv started => ?_
    obtain ⟨_, program, _, _, allowed⟩ := shell_allowlisted _ _ _ argv started
    exact List.not_mem_nil allowed
  refine Bounded.of_execution ?_ ?_ fun result => output_shell
  · intro argv started
    rw [none] at started
    exact absurd started List.not_mem_nil
  · rw [none]
    exact Nat.zero_le 1

theorem git_bounded (admits : box.Admits request "git" GitTool.definition) :
    box.Bounded request files
      ((GitTool.execute box.computer.process request).effects files) := by
  refine Bounded.of_execution ?_ ?_ ?_
  · intro argv started
    obtain ⟨_, program, operation, rest, same, _, known, parts⟩ := mem_started_git.mp started
    exact ⟨parts, Or.inl ⟨admits, program, operation, rest, same, known⟩⟩
  · rcases git_cases box.computer.process request with ⟨none, _⟩ | ⟨argv, same⟩
    · simp [none]
    · rw [same]
      exact length_started_run _ _ _
  · intro result returned
    rcases git_cases box.computer.process request with ⟨_, never⟩ | ⟨argv, same⟩
    · exact absurd returned (never result)
    · rw [same] at returned
      exact output_run returned

theorem tests_bounded (admits : box.Admits request "tests" TestExecutionTool.definition) :
    box.Bounded request files
      ((TestExecutionTool.execute box.computer.process request).effects files) := by
  refine Bounded.of_execution ?_ ?_ ?_
  · intro argv started
    obtain ⟨parts, program, rest, same, allowed⟩ := tests_allowlisted _ _ argv started
    obtain rfl := List.mem_singleton.mp allowed
    exact ⟨parts, Or.inr ⟨admits, rest, same⟩⟩
  · rcases tests_cases box.computer.process request with ⟨none, _⟩ | ⟨argv, same⟩
    · simp [none]
    · rw [same]
      exact length_started_run _ _ _
  · intro result returned
    rcases tests_cases box.computer.process request with ⟨_, never⟩ | ⟨argv, same⟩
    · exact absurd returned (never result)
    · rw [same] at returned
      exact output_run returned

theorem Bounded.raised (exception : ToolException) :
    box.Bounded request files { files := files, outcome := .raised exception } where
  started := fun _ started => absurd started List.not_mem_nil
  sent := fun _ sent => absurd sent List.not_mem_nil
  single := Nat.zero_le 1
  files := Or.inl fun _ => rfl
  texts := nofun

theorem python_bounded : box.Bounded request files (PythonExecutionTool.execute files) :=
  Bounded.raised _

theorem http_bounded (admits : box.Admits request "http" HttpTool.definition) :
    box.Bounded request files
      (HttpTool.execute box.httpHosts box.computer files request) := by
  unfold HttpTool.execute
  split
  · exact Bounded.raised _
  · simp only
    split
    · exact Bounded.raised _
    · rename_i parsed found
      split
      · exact Bounded.raised _
      · rename_i target
        obtain ⟨scheme, host⟩ := not_or.mp target
        rw [not_not] at scheme host
        split
        · exact Bounded.raised _
        · rename_i method
          rw [not_not] at method
          refine
            { started := fun _ started => absurd started List.not_mem_nil
              sent := ?_
              single := Nat.le_refl 1
              files := Or.inl fun _ => rfl
              texts := ?_ }
          · intro call sent
            obtain rfl := List.mem_singleton.mp sent
            exact ⟨admits, by simpa using method, parsed, found, scheme, host⟩
          · intro result content returned shown
            unfold HttpTool.send at returned
            simp only at returned
            split at returned
            · rw [← ToolOutcome.returned.inj returned] at shown
              cases shown
            · cases returned
            · cases returned

/-- Whatever an admitted request makes a default tool do is within bounds. -/
theorem invoke_bounded {sandbox : Sandbox} {tool : Tool}
    (admitted : SecureExecutor.Admitted (box.executor sandbox) request tool) {effects : Effects}
    (invoked : box.invoke sandbox request = some effects) :
    box.Bounded request sandbox.files effects ∧ tool.execute request = effects.outcome := by
  obtain ⟨builtin, found, rfl⟩ := Option.map_eq_some_iff.mp invoked
  have registered := admitted.registered
  unfold executor at registered
  simp only [found, Option.map_some, Option.some.injEq] at registered
  subst registered
  refine ⟨?_, rfl⟩
  have admits : ∀ name, request.tool = name → box.Admits request name builtin.definition :=
    fun name same => ⟨same, admitted.arguments, admitted.timeout, admitted.permitted,
      admitted.authorized⟩
  obtain ⟨before, after, split, _⟩ := List.lookup_eq_some_iff.mp found
  have member : (request.tool, builtin) ∈ defaultTools box.root box.httpHosts := by
    rw [split]
    simp
  simp only [defaultTools, List.mem_cons, List.not_mem_nil, or_false, Prod.mk.injEq] at member
  rcases member with ⟨name, rfl⟩ | ⟨name, rfl⟩ | ⟨name, rfl⟩ | ⟨name, rfl⟩ | ⟨name, rfl⟩ |
    ⟨name, rfl⟩ | ⟨name, rfl⟩
  · exact filesystem_bounded (admits _ name)
  · exact shell_bounded
  · exact git_bounded (admits _ name)
  · exact inspection_bounded (admits _ name)
  · exact tests_bounded (admits _ name)
  · exact python_bounded
  · exact http_bounded (admits _ name)

end Toolbox

/-! ## One call of the executor -/

theorem SecureExecutor.ending_of_text {request : ToolRequest} {attempt : Attempt}
    {result : ToolResult} {text : String}
    (returned : (SecureExecutor.settle request attempt).result = some result)
    (shown : result.output = .str text) : attempt.ending = .returned result := by
  unfold SecureExecutor.settle at returned
  split at returned
  · rename_i own ended
    rw [ended, Option.some.inj returned]
  · cases Option.some.inj returned
    cases shown
  · cases Option.some.inj returned
    cases shown
  · cases Option.some.inj returned
    cases shown
  · cases returned

theorem SecureExecutor.attempt_admitted {executor : SecureExecutor} {request : ToolRequest}
    {tool : Tool} (admitted : SecureExecutor.Admitted executor request tool) :
    executor.attempt request =
      { definition := some tool.definition
        authorization := .allowed
        invoked := some request
        ending :=
          match tool.execute request with
          | .returned result => .returned (executor.capOutput result)
          | .raised exception => .raised exception
          | .cancelled => .cancelled } := by
  have valid : executor.limits.validate tool.definition request = .ok () :=
    (ExecutionLimits.validate_eq_ok_iff _ _ _).mpr
      ⟨admitted.arguments, admitted.timeoutPositive, admitted.timeout⟩
  have complete := (SecureExecutor.missingPermissions_eq_nil_iff _ _).mpr admitted.permitted
  unfold SecureExecutor.attempt
  cases answered : tool.execute request <;>
    simp only [admitted.registered, valid, complete, admitted.authorized, answered, ne_eq,
      not_true, if_false]

theorem SecureExecutor.text_of_result {executor : SecureExecutor} {request : ToolRequest}
    {seconds : ℚ} {result : ToolResult} {text : String}
    (returned : (executor.execute request seconds).result = some result)
    (shown : result.output = .str text) :
    ∃ tool own content, SecureExecutor.Admitted executor request tool ∧
      (executor.execute request seconds).invoked = some request ∧
      tool.execute request = .returned own ∧ own.output = .str content ∧
      text = executor.capText content := by
  have ended := SecureExecutor.ending_of_text returned shown
  rcases executor.attempt_cases request with ⟨_, exception, raised⟩ | ⟨tool, admitted, invoked, _⟩
  · rw [raised] at ended
    cases ended
  · rw [SecureExecutor.attempt_admitted admitted] at ended
    simp only at ended
    split at ended
    · rename_i own executed
      obtain rfl := ToolOutcome.returned.inj ended
      unfold SecureExecutor.capOutput at shown
      simp only at shown
      split at shown
      · rename_i content output
        exact ⟨tool, own, content, admitted, invoked, executed, output,
          (Value.str.inj shown).symm⟩
      · cases shown
      · rename_i plain _
        exact absurd shown (plain text)
    · cases ended
    · cases ended

namespace Toolbox

variable {box : Toolbox} {request : ToolRequest} {sandbox : Sandbox}

theorem execute_cases (box : Toolbox) (sandbox : Sandbox) (request : ToolRequest) (seconds : ℚ) :
    (∃ event, event.requestId = request.requestId ∧ event.tool = request.tool ∧
      (box.execute sandbox request seconds).audit = sandbox.audit ++ [event]) ∧
    ∃ effects, box.Bounded request sandbox.files effects ∧
      (box.execute sandbox request seconds).files = effects.files ∧
      (box.execute sandbox request seconds).started = sandbox.started ++ effects.started ∧
      (box.execute sandbox request seconds).sent = sandbox.sent ++ effects.sent := by
  have gate := SecureExecutor.gated_and_audited (box.executor sandbox) request seconds
  obtain ⟨event, audit, own, named, _⟩ := gate.audited
  have idle : ∃ effects : Effects, box.Bounded request sandbox.files effects ∧
      sandbox.files = effects.files ∧ sandbox.started = sandbox.started ++ effects.started ∧
      sandbox.sent = sandbox.sent ++ effects.sent :=
    ⟨_, Bounded.raised (.other ""), rfl, (List.append_nil _).symm, (List.append_nil _).symm⟩
  unfold execute
  cases invoked : ((box.executor sandbox).execute request seconds).invoked with
  | none =>
      simp only [invoked, Option.bind_none]
      exact ⟨⟨event, own, named, audit⟩, idle⟩
  | some invocation =>
      obtain ⟨rfl, tool, admitted⟩ := gate.gated invocation invoked
      cases done : box.invoke sandbox invocation with
      | none =>
          simp only [invoked, Option.bind_some, done]
          exact ⟨⟨event, own, named, audit⟩, idle⟩
      | some effects =>
          simp only [invoked, Option.bind_some, done]
          exact ⟨⟨event, own, named, audit⟩, effects, (invoke_bounded admitted done).1, rfl, rfl,
            rfl⟩

theorem result_read {seconds : ℚ} {result : ToolResult} {text : String}
    (returned : box.result sandbox request seconds = some result)
    (shown : result.output = .str text) :
    box.Reads request ∧ ∃ base place content,
      box.computer.machine.base sandbox.files box.root = .ok base ∧
      Inside sandbox.files base place ∧ sandbox.files.node place = some (.file content) ∧
      text = (box.executor sandbox).capText content := by
  obtain ⟨tool, own, content, admitted, _, executed, output, capped⟩ :=
    SecureExecutor.text_of_result returned shown
  have registered := admitted.registered
  obtain ⟨builtin, found, _⟩ := Option.map_eq_some_iff.mp registered
  have invoked : box.invoke sandbox request =
      some (builtin.execute box.computer sandbox.files request) := by
    unfold invoke
    rw [found, Option.map_some]
  obtain ⟨bounded, same⟩ := invoke_bounded admitted invoked
  obtain ⟨reads, base, place, resolved, inside, file⟩ :=
    bounded.texts own content (same ▸ executed) output
  exact ⟨reads, base, place, content, resolved, inside, file, capped⟩

end Toolbox

/-! ## A run -/

def SandboxEvent.request? : SandboxEvent → Option ToolRequest
  | .request asked _ => some asked
  | .others _ => none

/-- What a run has done belongs to its requests, each of which is audited. -/
structure Toolbox.Contained (box : Toolbox) (requests : List ToolRequest)
    (before after : Sandbox) : Prop where
  audit : ∃ events, after.audit = before.audit ++ events ∧
    List.Forall₂ (fun event request => event.requestId = request.requestId ∧
      event.tool = request.tool) events requests
  started : ∃ more, after.started = before.started ++ more ∧
    ∀ argv ∈ more, ∃ request ∈ requests, box.Starts request argv
  sent : ∃ more, after.sent = before.sent ++ more ∧
    ∀ call ∈ more, ∃ request ∈ requests, box.Sends request call
  count : after.started.length + after.sent.length ≤
    before.started.length + before.sent.length + requests.length

/-- Nobody else touched the files: they have changed below the root only, and not at all
without a request to write. -/
structure Toolbox.Kept (box : Toolbox) (requests : List ToolRequest)
    (before after : FileSystem) : Prop where
  real : after.Real box.root
  inside : ChangedInside box.root before after
  unwritten : (∀ request ∈ requests, ¬ box.Writes request) →
    ∀ way, after.node way = before.node way

namespace Toolbox

variable {box : Toolbox} {requests more : List ToolRequest} {first second third : Sandbox}

theorem Contained.refl (sandbox : Sandbox) (files : FileSystem) :
    box.Contained [] sandbox { sandbox with files := files } where
  audit := ⟨[], (List.append_nil _).symm, .nil⟩
  started := ⟨[], (List.append_nil _).symm, by simp⟩
  sent := ⟨[], (List.append_nil _).symm, by simp⟩
  count := Nat.le_refl _

theorem Contained.trans (sooner : box.Contained requests first second)
    (later : box.Contained more second third) : box.Contained (requests ++ more) first third := by
  obtain ⟨⟨events, audit, audited⟩, ⟨argvs, started, starts⟩, ⟨calls, sent, sends⟩, count⟩ := sooner
  obtain ⟨⟨events', audit', audited'⟩, ⟨argvs', started', starts'⟩, ⟨calls', sent', sends'⟩,
    count'⟩ := later
  constructor
  case audit =>
    exact ⟨events ++ events', by rw [audit', audit, List.append_assoc],
      List.rel_append audited audited'⟩
  case started =>
    refine ⟨argvs ++ argvs', by rw [started', started, List.append_assoc], ?_⟩
    intro argv member
    rcases List.mem_append.mp member with early | late
    · obtain ⟨request, own, may⟩ := starts argv early
      exact ⟨request, List.mem_append_left _ own, may⟩
    · obtain ⟨request, own, may⟩ := starts' argv late
      exact ⟨request, List.mem_append_right _ own, may⟩
  case sent =>
    refine ⟨calls ++ calls', by rw [sent', sent, List.append_assoc], ?_⟩
    intro call member
    rcases List.mem_append.mp member with early | late
    · obtain ⟨request, own, may⟩ := sends call early
      exact ⟨request, List.mem_append_left _ own, may⟩
    · obtain ⟨request, own, may⟩ := sends' call late
      exact ⟨request, List.mem_append_right _ own, may⟩
  case count =>
    rw [List.length_append]
    omega

theorem execute_contained (sandbox : Sandbox) (request : ToolRequest) (seconds : ℚ) :
    box.Contained [request] sandbox (box.execute sandbox request seconds) := by
  obtain ⟨⟨event, own, named, audit⟩, effects, bounded, -, started, sent⟩ :=
    execute_cases box sandbox request seconds
  constructor
  case audit => exact ⟨[event], audit, .cons ⟨own, named⟩ .nil⟩
  case started =>
    exact ⟨effects.started, started, fun argv member =>
      ⟨request, List.mem_singleton_self request, bounded.started argv member⟩⟩
  case sent =>
    exact ⟨effects.sent, sent, fun call member =>
      ⟨request, List.mem_singleton_self request, bounded.sent call member⟩⟩
  case count =>
    have single := bounded.single
    rw [started, sent, List.length_append, List.length_append, List.length_singleton]
    omega

theorem run_contained (events : List SandboxEvent) (sandbox : Sandbox) :
    box.Contained (events.filterMap SandboxEvent.request?) sandbox (box.run events sandbox) := by
  induction events generalizing sandbox with
  | nil => exact Contained.refl sandbox sandbox.files
  | cons event rest ih =>
      cases event with
      | request request seconds =>
          exact (execute_contained sandbox request seconds).trans (ih _)
      | others files => exact (Contained.refl sandbox files).trans (ih _)

/-! ## The files of a run that is left alone -/

theorem base_of_real {files : FileSystem} (real : files.Real box.root) :
    box.computer.machine.base files box.root = .ok box.root := by
  unfold Machine.base
  rw [FileSystem.realpath_of_real _ real]

theorem execute_kept {sandbox : Sandbox} (real : sandbox.files.Real box.root)
    (request : ToolRequest) (seconds : ℚ) :
    box.Kept [request] sandbox.files (box.execute sandbox request seconds).files := by
  obtain ⟨-, effects, bounded, files, -, -⟩ := execute_cases box sandbox request seconds
  rw [files]
  rcases bounded.files with same | ⟨writes, base, resolved, changed⟩
  · refine ⟨?_, fun way _ => Or.inl (same way), fun _ => same⟩
    intro way sooner
    rw [same]
    exact real way sooner
  · rw [base_of_real real] at resolved
    obtain rfl := Except.ok.inj resolved
    refine ⟨changed.real real, changed.inside, fun unasked => ?_⟩
    exact absurd writes (unasked request (List.mem_singleton_self request))

theorem Kept.refl {files : FileSystem} (real : files.Real box.root) : box.Kept [] files files :=
  ⟨real, ChangedInside.refl box.root files, fun _ _ => rfl⟩

theorem Kept.trans {files files' files'' : FileSystem} (sooner : box.Kept requests files files')
    (later : box.Kept more files' files'') : box.Kept (requests ++ more) files files'' := by
  refine ⟨later.real, sooner.inside.trans later.inside, fun unasked way => ?_⟩
  have kept := sooner.unwritten fun request member =>
    unasked request (List.mem_append_left _ member)
  have kept' := later.unwritten fun request member =>
    unasked request (List.mem_append_right _ member)
  rw [kept' way, kept way]

def Alone (events : List SandboxEvent) : Prop :=
  ∀ event ∈ events, event.request?.isSome = true

theorem run_kept {events : List SandboxEvent} (alone : Alone events) {sandbox : Sandbox}
    (real : sandbox.files.Real box.root) :
    box.Kept (events.filterMap SandboxEvent.request?) sandbox.files
      (box.run events sandbox).files := by
  induction events generalizing sandbox with
  | nil => exact Kept.refl real
  | cons event rest ih =>
      have left : Alone rest := fun event member => alone event (List.mem_cons_of_mem _ member)
      cases event with
      | request request seconds =>
          have kept := execute_kept real request seconds
          exact kept.trans (ih left kept.real)
      | others files => exact absurd (alone _ List.mem_cons_self) (by simp [SandboxEvent.request?])

/-- In every run of an executor with the default tools, whatever else happens to the files:
each request leaves one audit event, every process and HTTP request belongs to a request that
was admitted for it, one each at most; an output that is a text is that of a file below the
root; and files that are left alone change below the root only, and only by requests to
write. -/
theorem default_tools_contained (box : Toolbox) (events : List SandboxEvent)
    (sandbox : Sandbox) :
    box.Contained (events.filterMap SandboxEvent.request?) sandbox (box.run events sandbox) ∧
      (∀ request seconds result text,
        box.result (box.run events sandbox) request seconds = some result →
        result.output = .str text → box.Reads request ∧ ∃ base place content,
          box.computer.machine.base (box.run events sandbox).files box.root = .ok base ∧
          Inside (box.run events sandbox).files base place ∧
          (box.run events sandbox).files.node place = some (.file content) ∧
          text = (box.executor (box.run events sandbox)).capText content) ∧
      (Alone events → sandbox.files.Real box.root →
        box.Kept (events.filterMap SandboxEvent.request?) sandbox.files
          (box.run events sandbox).files) :=
  ⟨run_contained events sandbox, fun _ _ _ _ returned shown => result_read returned shown,
    fun alone real => run_kept alone real⟩

end Toolbox

end Eis.Tools
