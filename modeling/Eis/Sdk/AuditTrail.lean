import Eis.Foundation.Run
import Eis.Sdk.TaskStatus

/-!
# What the audit history says of a call

Each operation that reaches a handler records how the handler has ended in its own way:
`run_agent` and `execute` know success only, `execute_engineering` and `orchestrate`
catch what is an `Exception`.
-/

set_option autoImplicit false

namespace Eis.Sdk

open Program

variable {η ω ε : Type}

inductive Operation (η ω ε : Type) where
  | registerProduct (product : Product)
  | registerProductNamed (id : UUID) (name : String) (purpose : Option String)
  | addKnowledge (item : KnowledgeItem)
  | addKnowledgeContent (id : UUID) (content : String) (source title : Option String)
  | remember (id : UUID) (content : String) (metadata : Option Dict)
  | createTask (id : UUID) (objective : String) (input : Value)
  | registerAgent (name : String) (handler : η)
  | runAgent (name : String) (task : Task)
  | registerTool (name : String) (handler : η)
  | execute (name : String) (args : List Value) (kwargs : Dict)
  | evaluateIdea (subject : String) (evaluator : EvaluatorAdapter η ω ε)
  | executeEngineering (task : Task) (engineer : Engineer η ω ε)
  | orchestrate (workflow : String) (task : Task) (runner : Runner η ω ε)

/-- An operation that has reached its handler: the session in which the handler ends,
the exception or the success that is its outcome, and whether the operation catches an
`Exception`. -/
structure Reached (η ω ε : Type) where
  action : String
  last : Session η ω
  outcome : Except (SdkException ε) Bool
  catches : Bool

namespace Application

variable (app : Application η ω ε)

def after (session : Session η ω) : Operation η ω ε → Session η ω
  | .registerProduct product => (app.registerProduct product).final session
  | .registerProductNamed id name purpose =>
      (app.registerProductNamed id name purpose).final session
  | .addKnowledge item => (app.addKnowledge item).final session
  | .addKnowledgeContent id content source title =>
      (app.addKnowledgeContent id content source title).final session
  | .remember id content metadata => (app.remember id content metadata).final session
  | .createTask id objective input => (app.createTask id objective input).final session
  | .registerAgent name handler => (app.registerAgent name handler).final session
  | .runAgent name task => (app.runAgent name task).final session
  | .registerTool name handler => (app.registerTool name handler).final session
  | .execute name args kwargs => (app.execute name args kwargs).final session
  | .evaluateIdea subject evaluator => (app.evaluateIdea subject evaluator).final session
  | .executeEngineering task engineer => (app.executeEngineering task engineer).final session
  | .orchestrate workflow task runner => (app.orchestrate workflow task runner).final session

def started (task : Task) (session : Session η ω) : Session η ω :=
  (app.recordAudit "engineering.execute" "started" (some task.id.str) none none none :
    SdkProgram η ω ε PUnit).final session

def engineered (result : Value) : Except (SdkException ε) Bool :=
  (app.outcome result).map fun outcome =>
    decide (outcome.1 ≠ "failed" ∧ outcome.1 ≠ "escalated")

def reached (session : Session η ω) : Operation η ω ε → Option (Reached η ω ε)
  | .runAgent name task =>
      (session.eis.agents.get? name).map fun handler =>
        let (last, outcome) :=
          handled (Session.running task.id) (app.agent handler task) session
        { action := "agent.run"
          last := last
          outcome := outcome.map fun result => (app.agentResult name task result).completed
          catches := false }
  | .execute name args kwargs =>
      (session.eis.tools.get? name).map fun handler =>
        let (last, outcome) := handled id (app.tool handler args kwargs) session
        { action := "tool.execute"
          last := last
          outcome := outcome.map fun result => (app.executionResult name result).success
          catches := false }
  | .executeEngineering task engineer =>
      let (last, outcome) := handled id (engineer.call task) (app.started task session)
      some
        { action := "engineering.execute"
          last := last
          outcome := outcome.bind app.engineered
          catches := true }
  | .orchestrate workflow task runner =>
      if Text.strip workflow = "" then none
      else
        let (last, outcome) := handled id (runner.call workflow task) session
        some
          { action := "workflow.run"
            last := last
            outcome := outcome.map fun _ => true
            catches := true }
  | _ => none

end Application

/-- `except Exception` takes the exception, and `str` of it returns. -/
def Application.reportsException (app : Application η ω ε) (exception : SdkException ε) : Bool :=
  app.catchesException exception && (app.message exception).isOk

def Recorded (action result : String) (before after : Session η ω) : Prop :=
  ∃ entry, after.eis.audit = before.eis.audit ++ [entry] ∧ entry.action = action ∧
    entry.result = result

/-- What stands in the history behind the handler: `success` for whatever is returned,
`failed` for an exception that is caught and has a text, and nothing for any other. -/
def Reached.Records (app : Application η ω ε) (reached : Reached η ω ε)
    (after : Session η ω) : Prop :=
  match reached.outcome with
  | .ok _ => Recorded reached.action "success" reached.last after
  | .error exception =>
      if reached.catches && app.reportsException exception then
        Recorded reached.action "failed" reached.last after
      else after.eis.audit = reached.last.eis.audit

namespace Application

variable {app : Application η ω ε} {session last : Session η ω}

theorem recorded (action result : String) (taskId agent target failure : Option String)
    (session : Session η ω) :
    Recorded action result session ((app.recordAudit action result taskId agent target failure :
      SdkProgram η ω ε PUnit).final session) :=
  ⟨_, rfl, rfl, rfl⟩

theorem runAgent_records {name : String} {handler : η} {task : Task}
    {outcome : Except (SdkException ε) Value}
    (registered : session.eis.agents.get? name = some handler)
    (through : handled (Session.running task.id) (app.agent handler task) session =
      (last, outcome)) :
    Reached.Records app
      { action := "agent.run"
        last := last
        outcome := outcome.map fun result => (app.agentResult name task result).completed
        catches := false }
      ((app.runAgent name task).final session) := by
  rcases ok : app.agent handler task session with ⟨called, exception | returned⟩
  · rw [handled_of_raised ok] at through
    cases through
    rw [final_of_error (runAgent_of_raised registered ok)]
    rfl
  · have settled := settle_of_handled ok through
    cases outcome with
    | ok value =>
        have concluded := (runAgent_of_returned registered ok).trans (bind_of_ok settled)
        rw [final_of_ok (concluded.trans rfl)]
        exact ⟨_, rfl, rfl, rfl⟩
    | error exception =>
        rw [final_of_error ((runAgent_of_returned registered ok).trans (bind_of_error settled))]
        rfl

theorem execute_records {name : String} {handler : η} {args : List Value} {kwargs : Dict}
    {outcome : Except (SdkException ε) Value}
    (registered : session.eis.tools.get? name = some handler)
    (through : handled id (app.tool handler args kwargs) session = (last, outcome)) :
    Reached.Records app
      { action := "tool.execute"
        last := last
        outcome := outcome.map fun result => (app.executionResult name result).success
        catches := false }
      ((app.execute name args kwargs).final session) := by
  have reached : app.execute name args kwargs session =
      ((invoke (app.tool handler args kwargs) >>= settle) >>= fun result => do
        app.recordAudit "tool.execute" "success" none none (some name) none
        pure (app.executionResult name result) : SdkProgram η ω ε ExecutionResult) session := by
    unfold execute
    rw [bind_of_ok (rfl : (get : SdkProgram η ω ε _) session = .ok session session)]
    simp only [registered, bind_assoc]
  have settled := invoke_of_handled through
  cases outcome with
  | ok value =>
      rw [final_of_ok ((reached.trans (bind_of_ok settled)).trans rfl)]
      exact ⟨_, rfl, rfl, rfl⟩
  | error exception =>
      rw [final_of_error (reached.trans (bind_of_error settled))]
      rfl

/-- The branch `except Exception` of an operation, with the result that it makes of the
text of the exception. -/
def recordFailure {α : Type} (app : Application η ω ε) (action : String)
    (taskId target : Option String) (result : String → α) (exception : SdkException ε) :
    SdkProgram η ω ε α :=
  if app.catchesException exception then do
    let message ← lift (app.message exception)
    app.recordAudit action "failed" taskId none target (some message)
    pure (result message)
  else throw exception

theorem recordFailure_records {α : Type} {attempt : SdkProgram η ω ε α}
    {exception : SdkException ε} (action : String) (taskId target : Option String)
    (result : String → α) (raised : attempt session = .error exception last) :
    Reached.Records app
      { action := action, last := last, outcome := .error exception, catches := true }
      ((tryCatch attempt (app.recordFailure action taskId target result)).final session) := by
  have caught : tryCatch attempt (app.recordFailure action taskId target result) session =
      app.recordFailure action taskId target result exception last := tryCatch_of_error raised
  unfold Reached.Records
  simp only [Bool.true_and]
  by_cases catches : app.catchesException exception = true
  · have branch : app.recordFailure action taskId target result exception = _ := if_pos catches
    rw [branch] at caught
    cases said : app.message exception with
    | ok message =>
        have reports : app.reportsException exception = true := by
          simp [reportsException, catches, said, Except.isOk, Except.toBool]
        rw [said] at caught
        rw [if_pos reports, final_of_ok (caught.trans rfl)]
        exact ⟨_, rfl, rfl, rfl⟩
    | error other =>
        have silent : ¬ app.reportsException exception = true := by
          simp [reportsException, said, Except.isOk, Except.toBool]
        rw [said] at caught
        rw [if_neg silent, final_of_error (caught.trans rfl)]
  · have branch : app.recordFailure action taskId target result exception = _ := if_neg catches
    have silent : ¬ app.reportsException exception = true := by
      simp [reportsException, catches]
    rw [branch] at caught
    rw [if_neg silent, final_of_error (caught.trans rfl)]

def reportEngineering (app : Application η ω ε) (task : Task) (result : Value) :
    SdkProgram η ω ε EngineeringResult := do
  let (status, summary) ← lift (app.outcome result)
  app.recordAudit "engineering.execute" "success" (some task.id.str) none none none
  pure { task := task, status := status, summary := summary, raw := result }

theorem executeEngineering_records {task : Task} {engineer : Engineer η ω ε}
    {outcome : Except (SdkException ε) Value}
    (through : handled id (engineer.call task) (app.started task session) = (last, outcome)) :
    Reached.Records app
      { action := "engineering.execute"
        last := last
        outcome := outcome.bind app.engineered
        catches := true }
      ((app.executeEngineering task engineer).final session) := by
  have settled := invoke_of_handled through
  have attempted : (app.executeEngineering task engineer).final session =
      (tryCatch ((invoke (engineer.call task) >>= settle) >>= app.reportEngineering task)
        (app.recordFailure "engineering.execute" (some task.id.str) none fun message =>
          { task := task, status := "failed", summary := message })).final
        (app.started task session) := by
    rw [bind_assoc]
    rfl
  rw [attempted]
  cases outcome with
  | error exception => exact recordFailure_records _ _ _ _ (bind_of_error settled)
  | ok value =>
      have returned : ((invoke (engineer.call task) >>= settle) >>= app.reportEngineering task)
          (app.started task session) = app.reportEngineering task value last :=
        bind_of_ok settled
      show Reached.Records app { outcome := app.engineered value, .. } _
      unfold engineered
      cases judged : app.outcome value with
      | error exception =>
          have reported : app.reportEngineering task value last = .error exception last := by
            unfold reportEngineering
            rw [judged]
            rfl
          exact recordFailure_records _ _ _ _ (returned.trans reported)
      | ok outcome =>
          have reports : ∃ result after, app.reportEngineering task value last = .ok result after ∧
              Recorded "engineering.execute" "success" last after := by
            unfold reportEngineering
            rw [judged]
            exact ⟨_, _, rfl, _, rfl, rfl, rfl⟩
          obtain ⟨result, after, reported, recorded⟩ := reports
          rw [final_of_ok (tryCatch_of_ok (returned.trans reported))]
          exact recorded

def reportWorkflow (app : Application η ω ε) (workflow : String) (task : Task) (output : Value) :
    SdkProgram η ω ε WorkflowResult := do
  app.recordAudit "workflow.run" "success" (some task.id.str) none (some workflow) none
  pure { workflow := workflow, success := true, output := output }

theorem orchestrate_records {workflow : String} {task : Task} {runner : Runner η ω ε}
    {outcome : Except (SdkException ε) Value} (named : Text.strip workflow ≠ "")
    (through : handled id (runner.call workflow task) session = (last, outcome)) :
    Reached.Records app
      { action := "workflow.run"
        last := last
        outcome := outcome.map fun _ => true
        catches := true }
      ((app.orchestrate workflow task runner).final session) := by
  have settled := invoke_of_handled through
  have attempted : app.orchestrate workflow task runner =
      tryCatch ((invoke (runner.call workflow task) >>= settle) >>=
          app.reportWorkflow workflow task)
        (app.recordFailure "workflow.run" (some task.id.str) (some workflow) fun message =>
          { workflow := workflow, success := false, error := some message }) := by
    unfold orchestrate
    rw [if_neg named, bind_assoc]
    rfl
  rw [attempted]
  cases outcome with
  | error exception => exact recordFailure_records _ _ _ _ (bind_of_error settled)
  | ok value =>
      have returned : ((invoke (runner.call workflow task) >>= settle) >>=
          app.reportWorkflow workflow task) session = app.reportWorkflow workflow task value last :=
        bind_of_ok settled
      rw [final_of_ok (tryCatch_of_ok (returned.trans rfl))]
      exact ⟨_, rfl, rfl, rfl⟩

theorem reached_records {operation : Operation η ω ε} {reached : Reached η ω ε}
    (found : app.reached session operation = some reached) :
    reached.Records app (app.after session operation) := by
  cases operation with
  | runAgent name task =>
      obtain ⟨handler, registered, rfl⟩ := Option.map_eq_some_iff.mp found
      exact runAgent_records registered rfl
  | execute name args kwargs =>
      obtain ⟨handler, registered, rfl⟩ := Option.map_eq_some_iff.mp found
      exact execute_records registered rfl
  | executeEngineering task engineer =>
      obtain rfl := Option.some.inj found
      exact executeEngineering_records rfl
  | orchestrate workflow task runner =>
      obtain ⟨named, called⟩ := Option.ite_none_left_eq_some.mp found
      obtain rfl := Option.some.inj called
      exact orchestrate_records named rfl
  | _ => cases found

/-! ## Whole histories -/

/-- A call that has reached its handler leaves one entry behind it, under its action, and
that says `success` exactly when the operation has succeeded. -/
def HonestEntry (app : Application η ω ε) (session : Session η ω)
    (operation : Operation η ω ε) : Prop :=
  ∀ reached, app.reached session operation = some reached →
    ∃ entry, (app.after session operation).eis.audit = reached.last.eis.audit ++ [entry] ∧
      entry.action = reached.action ∧ (entry.result = "success" ↔ reached.outcome = .ok true)

/-- The handler succeeds, or it raises an `Exception` with a text that the operation
catches. -/
def Recordable (app : Application η ω ε) (session : Session η ω)
    (operation : Operation η ω ε) : Prop :=
  ∀ reached, app.reached session operation = some reached →
    match reached.outcome with
    | .ok succeeded => succeeded = true
    | .error exception => reached.catches = true ∧ app.reportsException exception = true

theorem honestEntry_iff_recordable (operation : Operation η ω ε) :
    app.HonestEntry session operation ↔ app.Recordable session operation := by
  refine forall_congr' fun reached => forall_congr' fun found => ?_
  have records := reached_records found
  unfold Reached.Records at records
  cases ended : reached.outcome with
  | ok succeeded =>
      rw [ended] at records
      obtain ⟨entry, grown, action, result⟩ := records
      constructor
      · rintro ⟨other, grown', _, honest⟩
        obtain rfl : entry = other := by simpa using grown.symm.trans grown'
        simpa using honest.mp result
      · rintro rfl
        exact ⟨entry, grown, action, iff_of_true result rfl⟩
  | error exception =>
      rw [ended] at records
      cases caught : reached.catches && app.reportsException exception with
      | true =>
          simp only [caught, if_true] at records
          obtain ⟨entry, grown, action, result⟩ := records
          refine iff_of_true ⟨entry, grown, action, iff_of_false ?_ nofun⟩ (by simpa using caught)
          rw [result]
          decide
      | false =>
          simp only [caught, Bool.false_eq_true, if_false] at records
          refine iff_of_false ?_ (by simpa using caught)
          rintro ⟨entry, grown, _⟩
          simp [records] at grown

def afterAll (app : Application η ω ε) (session : Session η ω)
    (operations : List (Operation η ω ε)) : Session η ω :=
  operations.foldl app.after session

/-- For every sequence of operations: each entry is honest exactly when each handler
succeeds or raises what its operation catches. -/
theorem audit_honest_iff (app : Application η ω ε) (session : Session η ω)
    (operations : List (Operation η ω ε)) :
    Transition.Preceded
        (fun operation past => app.HonestEntry (app.afterAll session past) operation)
        operations ↔
      Transition.Preceded
        (fun operation past => app.Recordable (app.afterAll session past) operation)
        operations := by
  refine Transition.Preceded.congr ?_
  intro past operation later _
  exact honestEntry_iff_recordable operation

end Application

/-! ### A failure that is recorded as a success -/

def incompleteApp : Application Unit Unit String :=
  { raisingApp "KeyError" with
    agent := fun _ _ session => (session, .ok (.value (.object "result")))
    agentResult? := fun _ => some
      { agent := "writer", task := summaryTask, error := some "out of ideas" } }

/-- The agent has not completed its task, and the history says `success`. -/
theorem failure_recorded_as_success :
    (∃ result after, incompleteApp.runAgent "writer" summaryTask writerSession =
        .ok result after ∧ result.completed = false ∧
        after.eis.audit.map AuditEntry.result = ["success"]) ∧
      ¬ Transition.Preceded
        (fun operation past =>
          incompleteApp.HonestEntry (incompleteApp.afterAll writerSession past) operation)
        [.runAgent "writer" summaryTask] := by
  refine ⟨⟨_, _, rfl, rfl, rfl⟩, ?_⟩
  intro honest
  have own := honest [] (.runAgent "writer" summaryTask) [] rfl
  have recordable := (Application.honestEntry_iff_recordable _).mp own _ rfl
  exact nomatch recordable

end Eis.Sdk
