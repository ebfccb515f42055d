import Eis.Sdk.Handlers

/-!
# The status of a task behind `run_agent`

A handler that returns leaves its task completed or failed.  When it raises,
`run_agent` writes no result any more, and takes a `KeyError` for its own.
-/

set_option autoImplicit false

namespace Eis.Sdk

open Program

variable {η ω ε : Type}

namespace Session

/-- `task_result(task_id).status` -/
def status (session : Session η ω) (taskId : UUID) : Option TaskStatus :=
  (session.eis.taskResult taskId).map TaskResult.status

def store (session : Session η ω) (result : TaskResult) : Session η ω :=
  { session with eis := session.eis.store result }

/-- The mark of `run_agent` behind the call of the handler. -/
def running (taskId : UUID) (session : Session η ω) : Session η ω :=
  session.store { taskId := taskId, status := .running }

theorem status_store (session : Session η ω) (result : TaskResult) :
    (session.store result).status result.taskId = some result.status := by
  unfold status store EIS.store EIS.taskResult
  rw [OrderedDict.get?_setItem, if_pos rfl]
  rfl

end Session

namespace Application

variable (app : Application η ω ε)

def HandlerRaises (handler : η) (task : Task) (session : Session η ω) : Prop :=
  ∃ exception,
    (handled (Session.running task.id) (app.agent handler task) session).2 = .error exception

/-- What a caller of `run_agent` may rely on when the call is over. -/
structure SettlesTask (name : String) (handler : η) (task : Task) (session : Session η ω) :
    Prop where
  terminal :
    ((app.runAgent name task).final session).status task.id = some .completed ∨
      ((app.runAgent name task).final session).status task.id = some .failed
  raised : app.HandlerRaises handler task session →
    ((app.runAgent name task).final session).status task.id = some .failed
  reported : ∀ exception after,
    app.runAgent name task session = .error exception after → exception ≠ unknownAgent name

/-- The handler returns, or it fails the task itself before it raises: at once, and no
`KeyError`, or while it is awaited, and nothing that says that the agent is unknown. -/
def LeavesFailed (name : String) (handler : η) (task : Task) (session : Session η ω) : Prop :=
  match app.agent handler task session with
  | (called, .error exception) =>
      called.status task.id = some .failed ∧ app.catchesKeyError exception = false
  | (_, .ok (.value _)) => True
  | (called, .ok (.awaitable wait)) =>
      match wait (called.running task.id) with
      | (ended, .error exception) =>
          ended.status task.id = some .failed ∧ exception ≠ unknownAgent name
      | (_, .ok _) => True

/-- What `run_agent` does with the result of the handler. -/
def conclude (name : String) (task : Task) (result : Value) :
    SdkProgram η ω ε AgentResult := do
  let agentResult := app.agentResult name task result
  change fun eis => eis.store
    { taskId := task.id
      status := if agentResult.completed then .completed else .failed
      output := agentResult.output
      error := agentResult.error }
  app.recordAudit "agent.run" "success" (some task.id.str) (some name) none none
  pure agentResult

section RunAgent
variable {app} {name : String} {handler : η} {task : Task} {session called : Session η ω}

theorem runAgent_of_raised (registered : session.eis.agents.get? name = some handler)
    {exception : SdkException ε}
    (raised : app.agent handler task session = (called, .error exception)) :
    app.runAgent name task session =
      .error (if app.catchesKeyError exception then unknownAgent name else exception) called := by
  unfold runAgent
  rw [bind_of_ok (rfl : (get : SdkProgram η ω ε _) session = .ok session session)]
  simp only [registered]
  refine bind_of_error ((tryCatch_of_error (invoke_of_error raised)).trans ?_)
  split
  · rfl
  · rfl

theorem runAgent_of_returned (registered : session.eis.agents.get? name = some handler)
    {returned : Returned η ω ε}
    (ok : app.agent handler task session = (called, .ok returned)) :
    app.runAgent name task session =
      (settle returned >>= app.conclude name task : SdkProgram η ω ε AgentResult)
        (called.running task.id) := by
  unfold runAgent
  rw [bind_of_ok (rfl : (get : SdkProgram η ω ε _) session = .ok session session)]
  simp only [registered]
  rw [bind_of_ok (tryCatch_of_ok (invoke_of_ok ok))]
  exact bind_of_ok rfl

theorem conclude_ends (name : String) (task : Task) (result : Value) (session : Session η ω) :
    ∃ after, app.conclude name task result session = .ok (app.agentResult name task result) after ∧
      after.status task.id =
        some (if (app.agentResult name task result).completed then .completed else .failed) :=
  ⟨_, rfl, Session.status_store session _⟩

theorem settlesTask_of_concluded {result : Value} {last : Session η ω}
    (concluded : app.runAgent name task session = app.conclude name task result last)
    (returned : ¬ app.HandlerRaises handler task session) :
    app.SettlesTask name handler task session := by
  obtain ⟨after, ended, status⟩ := app.conclude_ends name task result last
  have final : (app.runAgent name task).final session = after := by
    unfold Program.final
    rw [concluded, ended]
  refine
    { terminal := ?terminal
      raised := fun raised => absurd raised returned
      reported := ?reported }
  case terminal =>
    rw [final, status]
    split
    · exact Or.inl rfl
    · exact Or.inr rfl
  case reported =>
    intro exception _ raised
    rw [concluded, ended] at raised
    cases raised

theorem settlesTask_iff_of_raised {exception : SdkException ε} {after : Session η ω}
    (ended : app.runAgent name task session = .error exception after)
    (raised : app.HandlerRaises handler task session) :
    app.SettlesTask name handler task session ↔
      after.status task.id = some .failed ∧ exception ≠ unknownAgent name := by
  have final : (app.runAgent name task).final session = after := by
    unfold Program.final
    rw [ended]
  constructor
  · intro settles
    exact ⟨final ▸ settles.raised raised, settles.reported exception after ended⟩
  · rintro ⟨failed, other⟩
    have status : ((app.runAgent name task).final session).status task.id = some .failed := by
      rw [final]
      exact failed
    refine ⟨Or.inr status, fun _ => status, ?_⟩
    intro exception' after' ended'
    rw [ended] at ended'
    cases ended'
    exact other

end RunAgent

/-- For every handler that is registered: `run_agent` leaves the task settled and names
no registered agent unknown exactly when the handler returns or fails the task itself. -/
theorem run_agent_settles_iff {name : String} {handler : η} {task : Task}
    {session : Session η ω} (registered : session.eis.agents.get? name = some handler) :
    app.SettlesTask name handler task session ↔ app.LeavesFailed name handler task session := by
  unfold LeavesFailed
  rcases ok : app.agent handler task session with ⟨called, exception | value | wait⟩
  · have raised : app.HandlerRaises handler task session :=
      ⟨exception, congrArg Prod.snd (handled_of_raised ok)⟩
    rw [settlesTask_iff_of_raised (runAgent_of_raised registered ok) raised]
    refine and_congr_right fun _ => ?_
    cases catches : app.catchesKeyError exception with
    | true => simp
    | false =>
        refine iff_of_true ?_ rfl
        rintro rfl
        cases catches
  · refine iff_of_true (settlesTask_of_concluded (runAgent_of_returned registered ok) ?_) trivial
    rintro ⟨exception, raised⟩
    rw [handled_of_value ok] at raised
    cases raised
  · have ended := runAgent_of_returned registered ok
    rcases waited : wait (called.running task.id) with ⟨last, exception | value⟩
    · have raised : app.HandlerRaises handler task session :=
        ⟨exception, congrArg Prod.snd ((handled_of_awaitable ok).trans waited)⟩
      simp only [waited]
      exact settlesTask_iff_of_raised (ended.trans (bind_of_error (invoke_of_error waited))) raised
    · simp only [waited]
      refine iff_of_true (settlesTask_of_concluded
        (ended.trans (bind_of_ok (invoke_of_ok waited))) ?_) trivial
      rintro ⟨exception, raised⟩
      rw [handled_of_awaitable ok, waited] at raised
      cases raised

end Application

/-! ### A handler that misses a key of its own -/

def raisingApp (exception : String) : Application Unit Unit String where
  agent := fun _ _ session => (session, .error (.raised exception))
  tool := fun _ _ _ session => (session, .error (.raised exception))
  now := fun world => (world, "2026-01-01T00:00:00+00:00")
  agentResult? := fun _ => none
  executionResult? := fun _ => none
  evaluationResult? := fun _ => none
  attr := fun _ _ => .ok none
  text := fun _ => .ok ""
  isKeyError := fun error => decide (error = "KeyError")
  isException := fun _ => true
  message := fun _ => .ok ""

def summaryTask : Task := { objective := "write a summary", id := ⟨1⟩ }

def writerSession : Session Unit Unit where
  eis :=
    { agents := Table.empty.upsert ("writer", ())
      tasks := Table.empty.upsert (summaryTask.id, summaryTask)
      results := Table.empty.upsert
        (summaryTask.id, { taskId := summaryTask.id, status := .queued }) }
  world := ()

theorem run_agent_settles_iff_writer :
    (raisingApp "KeyError").SettlesTask "writer" () summaryTask writerSession ↔
      (raisingApp "KeyError").LeavesFailed "writer" () summaryTask writerSession :=
  (raisingApp "KeyError").run_agent_settles_iff rfl

/-- The handler's `KeyError` is reported as an unknown agent, and the task that it has
failed in stays queued. -/
theorem writer_reported_unknown :
    writerSession.eis.agents.get? "writer" = some () ∧
      (raisingApp "KeyError").HandlerRaises () summaryTask writerSession ∧
      (∃ after, (raisingApp "KeyError").runAgent "writer" summaryTask writerSession =
        .error (.keyError "unknown agent: writer") after ∧
          after.status summaryTask.id = some .queued) ∧
      ¬ (raisingApp "KeyError").SettlesTask "writer" () summaryTask writerSession := by
  have registered : writerSession.eis.agents.get? "writer" = some () := rfl
  have raised : (raisingApp "KeyError").agent () summaryTask writerSession =
      (writerSession, .error (.raised "KeyError")) := rfl
  have catches : (raisingApp "KeyError").catchesKeyError (.raised "KeyError") = true := by decide
  have ended := Application.runAgent_of_raised registered raised
  rw [if_pos catches] at ended
  refine ⟨registered, ⟨_, rfl⟩, ⟨writerSession, ended, rfl⟩, ?_⟩
  intro settles
  exact settles.reported _ _ ended rfl

end Eis.Sdk
