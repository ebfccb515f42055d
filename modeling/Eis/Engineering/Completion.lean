import Eis.Engineering.Runtime

/-!
# What a completed run has done

A run that reports `completed` ends with an implementation and both test stages.
The statuses of the tests decide; nothing looks at that of the implementation.
-/

set_option autoImplicit false

namespace Eis.Engineering

open Eis.Tools (ExecutionStatus ToolResult)
open Program

def EngineeringEvent.tool? : EngineeringEvent → Option (String × ToolResult)
  | .tool request result => some (request.tool, result)
  | _ => none

def toolCalls (trace : List EngineeringEvent) : List (String × ToolResult) :=
  trace.filterMap EngineeringEvent.tool?

/-- The plan was validated before any tool was called, and the last calls were an
implementation and both test stages, all with success. -/
structure ImplementedAndTested (plan : EngineeringPlan) (trace : List EngineeringEvent) :
    Prop where
  validated : ∃ before after, trace = before ++ .validated plan true :: after ∧
    toolCalls before = []
  tested : ∃ earlier implementation targeted broader, toolCalls trace = earlier ++
      [("engineering.implement", implementation), ("engineering.test.targeted", targeted),
        ("engineering.test.broader", broader)] ∧
    implementation.status = .success ∧ targeted.status = .success ∧ broader.status = .success

def TestsPass : List (String × ToolResult) → Prop
  | targeted :: broader :: _ =>
      (targeted.1 = "engineering.test.targeted" ∧ targeted.2.status = .success) ∧
        broader.1 = "engineering.test.broader" ∧ broader.2.status = .success
  | _ => False

/-- Whenever the tools answer both test stages behind an implementation with success,
they have answered the implementation with success. -/
def PassesImplemented (calls : List (String × ToolResult)) : Prop :=
  ∀ earlier implementation later,
    calls = earlier ++ ("engineering.implement", implementation) :: later →
      TestsPass later → implementation.status = .success

def EachPass (last : List (String × ToolResult) → Prop) : List (String × ToolResult) → Prop
  | [] => True
  | call :: later =>
      (call.1 = "engineering.implement" → TestsPass later → last later) ∧ EachPass last later

def Unpassed (calls : List (String × ToolResult)) : Prop :=
  EachPass (fun _ => False) calls

structure Tested (calls : List (String × ToolResult)) : Prop where
  ending : ∃ earlier implementation targeted broader, calls = earlier ++
      [("engineering.implement", implementation), ("engineering.test.targeted", targeted),
        ("engineering.test.broader", broader)] ∧
    targeted.status = .success ∧ broader.status = .success
  once : EachPass (fun later => later.length = 2) calls

theorem toolCalls_append (first second : List EngineeringEvent) :
    toolCalls (first ++ second) = toolCalls first ++ toolCalls second :=
  List.filterMap_append

theorem targeted_ne_implement : "engineering.test.targeted" ≠ "engineering.implement" := by
  decide

theorem broader_ne_implement : "engineering.test.broader" ≠ "engineering.implement" := by
  decide

theorem correct_ne_implement : "engineering.correct" ≠ "engineering.implement" := by
  decide

namespace EachPass

variable {last : List (String × ToolResult) → Prop} {calls : List (String × ToolResult)}

theorem of_split (each : EachPass last calls) {earlier later : List (String × ToolResult)}
    {implementation : ToolResult}
    (split : calls = earlier ++ ("engineering.implement", implementation) :: later)
    (passed : TestsPass later) : last later := by
  subst split
  induction earlier with
  | nil => exact each.1 rfl passed
  | cons call rest ih => exact ih each.2

theorem behind_targeted (each : EachPass last calls) (implementation : ToolResult)
    {targeted : ToolResult} (failed : targeted.status ≠ .success) (corrected : ToolResult) :
    EachPass last (("engineering.implement", implementation) ::
      ("engineering.test.targeted", targeted) :: ("engineering.correct", corrected) :: calls) := by
  refine ⟨?_, fun other => ?_, fun other => ?_, each⟩
  · intro _ passed
    exact absurd passed.1.2 failed
  · exact absurd other targeted_ne_implement
  · exact absurd other correct_ne_implement

theorem behind_broader (each : EachPass last calls) (implementation targeted : ToolResult)
    {broader : ToolResult} (failed : broader.status ≠ .success) (corrected : ToolResult) :
    EachPass last (("engineering.implement", implementation) ::
      ("engineering.test.targeted", targeted) :: ("engineering.test.broader", broader) ::
        ("engineering.correct", corrected) :: calls) := by
  refine ⟨?_, fun other => ?_, fun other => ?_, fun other => ?_, each⟩
  · intro _ passed
    exact absurd passed.2.2 failed
  · exact absurd other targeted_ne_implement
  · exact absurd other broader_ne_implement
  · exact absurd other correct_ne_implement

end EachPass

/-- What a report stands for: behind `completed` the trace splits at the validation of
the plan and ends with tests that pass, and otherwise no tests pass. -/
structure Reports (report : EngineeringReport) (trace : List EngineeringEvent) : Prop where
  completed : report.status = "completed" → Tested (toolCalls trace) ∧
    ∃ plan before after, report.plan = some plan ∧
      trace = before ++ .validated plan true :: after ∧ toolCalls before = []
  escalated : report.status ≠ "completed" → Unpassed (toolCalls trace)

theorem Reports.implementedAndTested_iff {report : EngineeringReport}
    {trace : List EngineeringEvent} (reports : Reports report trace) :
    (report.status = "completed" →
        ∃ plan, report.plan = some plan ∧ ImplementedAndTested plan trace) ↔
      PassesImplemented (toolCalls trace) := by
  constructor
  · intro done earlier implementation later split passed
    by_cases reported : report.status = "completed"
    · obtain ⟨_, _, finished⟩ := done reported
      obtain ⟨earlier', answered, targeted, broader, calls, succeeded, -⟩ := finished.tested
      have two : later.length = 2 :=
        (reports.completed reported).1.once.of_split split passed
      have same : earlier ++ ("engineering.implement", implementation) :: later =
          earlier' ++ ("engineering.implement", answered) ::
            [("engineering.test.targeted", targeted), ("engineering.test.broader", broader)] :=
        split.symm.trans calls
      have last := (List.append_inj' same (by simp [two])).2
      cases last
      exact succeeded
    · exact ((reports.escalated reported).of_split split passed).elim
  · intro implemented reported
    obtain ⟨tested, plan, before, after, planned, validated, untouched⟩ :=
      reports.completed reported
    obtain ⟨earlier, implementation, targeted, broader, calls, passed, passedToo⟩ := tested.ending
    have succeeded : implementation.status = .success :=
      implemented earlier implementation _ calls ⟨⟨rfl, passed⟩, rfl, passedToo⟩
    exact ⟨plan, planned, ⟨before, after, validated, untouched⟩,
      earlier, implementation, targeted, broader, calls, succeeded, passed, passedToo⟩

namespace EngineeringAgent

variable {κ σ ε : Type} (agent : EngineeringAgent κ σ ε)

abbrev SilentProgram {α : Type} (program : EngineeringProgram σ ε α) : Prop :=
  program.Silent EngineeringState.trace

theorem await_adds {α : Type} (call : Call σ (EngineeringException ε) α)
    (events : α → List EngineeringEvent) :
    (await call events).Adds EngineeringState.trace (fun value more => more = events value)
      fun more => more = [] := by
  intro state
  unfold Ends await
  rcases call state.world with ⟨world, exception | value⟩
  · exact ⟨[], (List.append_nil _).symm, rfl⟩
  · exact ⟨events value, rfl, rfl⟩

section Calls
variable {α β : Type} {added : β → List EngineeringEvent → Prop}
variable {raised : List EngineeringEvent → Prop}

theorem await_bind {call : Call σ (EngineeringException ε) α} {events : α → List EngineeringEvent}
    {next : α → EngineeringProgram σ ε β} (start : raised [])
    (second : ∀ value, (next value).Adds EngineeringState.trace
      (fun result rest => added result (events value ++ rest))
      fun rest => raised (events value ++ rest)) :
    (await call events >>= next).Adds EngineeringState.trace added raised := by
  refine Adds.bind (await_adds call events) ?_ ?_
  · intro more none
    subst none
    exact start
  · intro value more called
    subst called
    exact second value

end Calls

theorem append_steady (record : ChangeRecord) :
    (append record : EngineeringProgram σ ε PUnit).Steady EngineeringState.trace :=
  Steady.modify fun _ => rfl

theorem guard_silent : SilentProgram agent.guard := by
  refine Steady.bind Steady.get ?_
  intro state
  split
  · exact Silent.throw
  · refine Silent.bind (await_adds _ _) rfl ?_
    intro now
    split
    · exact Silent.throw
    · exact Silent.pure

theorem callTool_adds (name : String) (arguments : List (String × Argument)) :
    (agent.callTool name arguments).Adds EngineeringState.trace
      (fun result more => more = [.tool ⟨name, arguments⟩ result]) fun more => more = [] := by
  refine Silent.bind agent.guard_silent rfl ?_
  intro _
  refine Steady.bind (Steady.modify fun _ => rfl) ?_
  intro _
  exact await_adds _ _

theorem callTool_bind {β : Type} {added : β → List EngineeringEvent → Prop}
    {raised : List EngineeringEvent → Prop} {name : String}
    {arguments : List (String × Argument)} {next : ToolResult → EngineeringProgram σ ε β}
    (start : raised [])
    (second : ∀ result, (next result).Adds EngineeringState.trace
      (fun value rest => added value (.tool ⟨name, arguments⟩ result :: rest))
      fun rest => raised (.tool ⟨name, arguments⟩ result :: rest)) :
    (agent.callTool name arguments >>= next).Adds EngineeringState.trace added raised := by
  refine Adds.bind (agent.callTool_adds name arguments) ?_ ?_
  · intro more none
    subst none
    exact start
  · intro result more called
    subst called
    exact second result

theorem record_silent (change : FileChange) : SilentProgram (agent.record change) := by
  unfold record
  cases agent.changeTracker with
  | none =>
      have kept : (modify fun state => { state with items := recordItem state.items change } :
          EngineeringProgram σ ε PUnit).Steady EngineeringState.trace := Steady.modify fun _ => rfl
      exact kept.silent
  | some tracker => exact Silent.bind (await_adds _ _) rfl fun _ => Silent.pure

theorem recordItems_silent (items : List Value) : SilentProgram (agent.recordItems items) := by
  induction items with
  | nil => exact Silent.pure
  | cons item rest ih =>
      unfold recordItems
      cases agent.changeOf item with
      | none => exact ih
      | some change =>
          refine Silent.bind (agent.record_silent change) rfl ?_
          intro _
          exact Silent.bind ih rfl fun _ => Silent.pure

theorem recordChanges_silent (result : ToolResult) :
    SilentProgram (agent.recordChanges result) := by
  unfold recordChanges
  cases agent.items (rawChanges result.output) with
  | error exception => exact Silent.throw
  | ok items => exact agent.recordItems_silent items

theorem enforceFileLimit_silent : SilentProgram agent.enforceFileLimit := by
  have counted : SilentProgram agent.changes := by
    unfold changes
    cases agent.changeTracker with
    | none => exact Steady.bind Steady.get fun _ => Silent.pure
    | some tracker => exact await_adds _ _
  refine Silent.bind counted rfl ?_
  intro changes
  split
  · exact Silent.throw
  · exact Silent.pure

theorem failure_adds (result : ToolResult) :
    (agent.failure result).Adds EngineeringState.trace (fun _ more => toolCalls more = [])
      fun more => toolCalls more = [] := by
  unfold failure
  cases agent.failureAnalyzer with
  | none => exact Adds.pure rfl
  | some analyzer =>
      refine Silent.bind agent.guard_silent rfl ?_
      intro _
      refine Steady.bind (Steady.modify fun _ => rfl) ?_
      intro _
      refine (await_adds _ _).mono ?_ ?_
      · intro _ more added
        subst added
        rfl
      · intro more none
        subst none
        rfl

theorem correct_adds (task : EngineeringTask) (plan : EngineeringPlan) (result : ToolResult) :
    (agent.correct task plan result).Adds EngineeringState.trace
      (fun _ more => ∃ corrected, toolCalls more = [("engineering.correct", corrected)])
      fun more => toolCalls more = [] := by
  refine Adds.bind (agent.failure_adds result) (fun _ none => none) ?_
  intro failure analyzed none
  simp only [toolCalls_append, none, List.nil_append]
  refine Steady.bind (Steady.modify fun _ => rfl) ?_
  intro _
  refine Steady.bind (append_steady _) ?_
  intro _
  refine Steady.bind Steady.get ?_
  intro state
  split
  · exact Adds.throw rfl
  · refine agent.callTool_bind rfl ?_
    intro corrected
    refine (append_steady _).mono ?_ fun _ never => never.elim
    intro _ more none
    subst none
    exact ⟨corrected, rfl⟩

theorem again_adds {task : EngineeringTask} {plan : EngineeringPlan} {remaining : ℕ}
    (ih : (agent.iterations task plan remaining).Adds EngineeringState.trace
      (fun report more => report.status = "completed" ∧ report.plan = some plan ∧
        Tested (toolCalls more))
      fun more => Unpassed (toolCalls more))
    (result : ToolResult) (failed : List EngineeringEvent)
    (behind : ∀ last corrected calls, EachPass last calls →
      EachPass last (toolCalls failed ++ ("engineering.correct", corrected) :: calls))
    (unpassed : Unpassed (toolCalls failed)) :
    (do agent.correct task plan result
        agent.iterations task plan remaining).Adds EngineeringState.trace
      (fun report more => report.status = "completed" ∧ report.plan = some plan ∧
        Tested (toolCalls (failed ++ more)))
      fun more => Unpassed (toolCalls (failed ++ more)) := by
  refine Adds.bind (agent.correct_adds task plan result) ?_ ?_
  · intro more none
    rw [toolCalls_append, none, List.append_nil]
    exact unpassed
  · intro _ correction ⟨corrected, called⟩
    refine ih.mono ?_ ?_
    · intro report more ⟨completed, planned, tested⟩
      refine ⟨completed, planned, ?_⟩
      rw [toolCalls_append, toolCalls_append, called]
      obtain ⟨earlier, implementation, targeted, broader, calls, passed⟩ := tested.ending
      refine ⟨⟨toolCalls failed ++ ("engineering.correct", corrected) :: earlier,
        implementation, targeted, broader, ?_, passed⟩, behind _ corrected _ tested.once⟩
      rw [calls]
      simp
    · intro more unpassed
      rw [toolCalls_append, toolCalls_append, called]
      exact behind _ corrected _ unpassed

/-- The loop returns behind tests that pass, and no tests pass before. -/
theorem iterations_adds (task : EngineeringTask) (plan : EngineeringPlan) (remaining : ℕ) :
    (agent.iterations task plan remaining).Adds EngineeringState.trace
      (fun report more => report.status = "completed" ∧ report.plan = some plan ∧
        Tested (toolCalls more))
      fun more => Unpassed (toolCalls more) := by
  induction remaining with
  | zero => exact Adds.throw trivial
  | succ remaining ih =>
      refine Steady.bind (Steady.modify fun _ => rfl) ?_
      intro _
      refine Silent.bind agent.guard_silent trivial ?_
      intro _
      refine agent.callTool_bind trivial ?_
      intro implementation
      have alone : Unpassed [("engineering.implement", implementation)] :=
        ⟨fun _ passed => passed, trivial⟩
      refine Silent.bind (agent.recordChanges_silent implementation) alone ?_
      intro changes
      refine Steady.bind (append_steady _) ?_
      intro _
      refine Silent.bind agent.enforceFileLimit_silent alone ?_
      intro _
      refine agent.callTool_bind alone ?_
      intro targeted
      have both : Unpassed [("engineering.implement", implementation),
          ("engineering.test.targeted", targeted)] :=
        ⟨fun _ passed => passed, fun _ passed => passed, trivial⟩
      refine Steady.bind (Steady.modify fun _ => rfl) ?_
      intro _
      split
      · rename_i failed
        refine agent.again_adds ih targeted [.tool _ implementation, .tool _ targeted] ?_ both
        intro last corrected calls each
        exact each.behind_targeted implementation failed corrected
      · rename_i passed
        refine Steady.bind (append_steady _) ?_
        intro _
        refine agent.callTool_bind both ?_
        intro broader
        refine Steady.bind (Steady.modify fun _ => rfl) ?_
        intro _
        split
        · rename_i failed
          have all : Unpassed [("engineering.implement", implementation),
              ("engineering.test.targeted", targeted), ("engineering.test.broader", broader)] :=
            ⟨fun _ passes => failed passes.2.2, fun _ passes => passes,
              fun _ passes => passes, trivial⟩
          refine agent.again_adds ih broader
            [.tool _ implementation, .tool _ targeted, .tool _ broader] ?_ all
          intro last corrected calls each
          exact each.behind_broader implementation targeted failed corrected
        · rename_i passedToo
          refine Steady.bind (append_steady _) ?_
          intro _
          refine Steady.bind (append_steady _) ?_
          intro _
          refine Steady.bind Steady.get ?_
          intro state
          refine Adds.pure ⟨rfl, rfl, ?_⟩
          refine { ending := ?ending, once := ?once }
          case ending =>
            exact ⟨[], implementation, targeted, broader, rfl, not_not.mp passed,
              not_not.mp passedToo⟩
          case once =>
            exact ⟨fun _ _ => rfl, fun _ passes => passes.elim, fun _ passes => passes.elim,
              trivial⟩

theorem attempt_adds (task : EngineeringTask) :
    (agent.attempt task).Adds EngineeringState.trace Reports
      fun more => Unpassed (toolCalls more) := by
  refine Silent.bind agent.guard_silent trivial ?_
  intro _
  refine Steady.bind (append_steady _) ?_
  intro _
  refine Silent.bind agent.guard_silent trivial ?_
  intro _
  refine await_bind trivial ?_
  intro context
  refine Steady.bind (append_steady _) ?_
  intro _
  refine Silent.bind agent.guard_silent trivial ?_
  intro _
  refine await_bind trivial ?_
  intro snapshot
  refine Steady.bind (append_steady _) ?_
  intro _
  refine Steady.bind (append_steady _) ?_
  intro _
  refine Steady.bind (append_steady _) ?_
  intro _
  refine Steady.bind (append_steady _) ?_
  intro _
  refine Steady.bind (append_steady _) ?_
  intro _
  refine Silent.bind agent.guard_silent trivial ?_
  intro _
  refine await_bind trivial ?_
  intro plan
  refine Steady.bind (Steady.modify fun _ => rfl) ?_
  intro _
  refine Steady.bind (append_steady _) ?_
  intro _
  refine Silent.bind agent.guard_silent trivial ?_
  intro _
  refine await_bind trivial ?_
  intro ⟨valid, reason⟩
  refine Steady.bind (append_steady _) ?_
  intro _
  cases valid with
  | false => exact Adds.throw trivial
  | true =>
      refine (agent.iterations_adds task plan agent.limits.maxIterations).mono ?_ ?_
      · intro report more ⟨completed, planned, tested⟩
        refine { completed := fun _ => ⟨tested, ?_⟩, escalated := fun other => ?_ }
        · exact ⟨plan, [.retrieved, .inspected, .planned plan], more, planned, rfl, rfl⟩
        · exact absurd completed other
      · intro more unpassed
        exact unpassed

theorem run_reports (task : EngineeringTask) (start : EngineeringState σ) :
    (agent.run task).Ends start (fun report after => Reports report after.trace)
      fun _ after => Unpassed (toolCalls after.trace) := by
  unfold run
  simp only [ends_bind, ends_modify, ends_tryCatch]
  unfold Ends await
  refine ((agent.attempt_adds task) _).mono ?_ ?_
  · intro report after ⟨more, grown, reports⟩
    rw [grown]
    exact reports
  · intro exception state ⟨more, grown, unpassed⟩
    have escaped : Unpassed (toolCalls state.trace) := by
      rw [grown]
      exact unpassed
    cases exception with
    | raised error => exact escaped
    | escalation message =>
        have differs : "escalated" ≠ "completed" := by decide
        exact
          { completed := fun reported => absurd reported differs
            escalated := fun _ => escaped }

/-- A run that reports `completed` has validated its plan before any tool call and
ends with an implementation and both test stages, all answered with success, exactly
when the tools never answer both stages with success behind an implementation that they
have not answered so. -/
theorem completed_iff_passesImplemented {task : EngineeringTask}
    {start after : EngineeringState σ} {report : EngineeringReport}
    (returned : agent.run task start = .ok report after) :
    (report.status = "completed" →
        ∃ plan, report.plan = some plan ∧ ImplementedAndTested plan after.trace) ↔
      PassesImplemented (toolCalls after.trace) :=
  ((agent.run_reports task start).of_ok returned).implementedAndTested_iff

end EngineeringAgent

/-! ### A tool that does not implement -/

/-- The tests pass, whatever `engineering.implement` answers. -/
def fixtureAgent (implemented : ExecutionStatus) : EngineeringAgent Unit Unit Unit where
  retriever := fun _ world => (world, .ok ())
  inspector := fun repository world =>
    (world, .ok { repository := repository, files := ["fixture.py"] })
  planner := fun task _ _ world =>
    (world, .ok
      { objective := task.objective
        rationale := "reuse the existing fixture abstraction"
        affectedComponents := ["fixture.py"]
        reuseCandidates := ["fixture.py"]
        steps := ["modify fixture.py"]
        validation := ["targeted tests", "broader tests"] })
  validator := fun _ _ _ world => (world, .ok (true, "accepted"))
  tools := fun request world =>
    (world, .ok
      { status := if request.tool = "engineering.implement" then implemented else .success })
  monotonic := fun world => (world, 0)
  text := fun _ => ""
  repr := fun text => "'" ++ text ++ "'"
  fileChange? := fun _ => none
  iterate := fun _ => .ok []

def featureTask : EngineeringTask :=
  { objective := "add feature", repository := "eis", id := ⟨1⟩ }

def completesWith (implemented : ExecutionStatus) : Bool :=
  match (fixtureAgent implemented).run featureTask { world := () } with
  | .ok report after =>
      decide (report.status = "completed" ∧
        (toolCalls after.trace).map (fun call => (call.1, call.2.status)) =
          [("engineering.implement", implemented), ("engineering.test.targeted", .success),
            ("engineering.test.broader", .success)])
  | .error _ _ => false

theorem fixture_completes (implemented : ExecutionStatus)
    (evaluated : completesWith implemented = true) :
    ∃ report after,
      (fixtureAgent implemented).run featureTask { world := () } = .ok report after ∧
      report.status = "completed" ∧ ∀ earlier implementation later,
        toolCalls after.trace = earlier ++ ("engineering.implement", implementation) :: later →
          implementation.status = implemented := by
  unfold completesWith at evaluated
  cases returned : (fixtureAgent implemented).run featureTask { world := () } with
  | error exception after =>
      rw [returned] at evaluated
      cases evaluated
  | ok report after =>
      rw [returned] at evaluated
      obtain ⟨completed, calls⟩ := of_decide_eq_true evaluated
      refine ⟨report, after, rfl, completed, ?_⟩
      intro earlier implementation later split
      have member : ("engineering.implement", implementation.status) ∈
          (toolCalls after.trace).map fun call => (call.1, call.2.status) := by
        rw [split]
        simp
      rw [calls] at member
      simpa using member

theorem completed_iff_passesImplemented_fixture :
    ∃ report after, (fixtureAgent .success).run featureTask { world := () } = .ok report after ∧
      report.status = "completed" ∧
      ∃ plan, report.plan = some plan ∧ ImplementedAndTested plan after.trace := by
  obtain ⟨report, after, returned, completed, answered⟩ :=
    fixture_completes .success (by decide +kernel)
  have implemented : PassesImplemented (toolCalls after.trace) := by
    intro earlier implementation later split _
    exact answered earlier implementation later split
  exact ⟨report, after, returned, completed,
    ((fixtureAgent .success).completed_iff_passesImplemented returned).mpr implemented completed⟩

/-- The implementation fails, and the report says `completed`. -/
theorem completed_without_implementation :
    ∃ report after, (fixtureAgent .failed).run featureTask { world := () } = .ok report after ∧
      report.status = "completed" ∧
      ¬ ∃ plan, report.plan = some plan ∧ ImplementedAndTested plan after.trace := by
  obtain ⟨report, after, returned, completed, answered⟩ :=
    fixture_completes .failed (by decide +kernel)
  refine ⟨report, after, returned, completed, ?_⟩
  intro ⟨plan, _, done⟩
  obtain ⟨earlier, implementation, targeted, broader, calls, succeeded, passed⟩ := done.tested
  rw [answered earlier implementation _ calls] at succeeded
  cases succeeded

end Eis.Engineering
