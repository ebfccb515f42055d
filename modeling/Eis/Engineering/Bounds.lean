import Eis.Engineering.Completion
import Eis.Foundation.Run

/-!
# How long a run can get

A run of the agent stays within its iterations and its calls, whatever the
collaborators answer, and its report counts the calls that were made.
-/

set_option autoImplicit false

namespace Eis.Engineering

open Eis.Tools (ToolResult)
open Program

def EngineeringEvent.isCall : EngineeringEvent → Bool
  | .tool _ _ => true
  | .analyzed => true
  | _ => false

def EngineeringEvent.isImplement : EngineeringEvent → Bool
  | .tool request _ => decide (request.tool = "engineering.implement")
  | _ => false

def EngineeringEvent.Follows (plan : EngineeringPlan) : EngineeringEvent → Prop
  | .tool request _ => ("plan", .plan plan) ∈ request.arguments
  | _ => False

def Accepted (event : EngineeringEvent) (past : List EngineeringEvent) : Prop :=
  event.isImplement = true → ∃ plan, event.Follows plan ∧ .validated plan true ∈ past

def stops : List String :=
  ["maximum tool-call limit reached", "maximum execution time reached"]

namespace EngineeringAgent

variable {κ σ ε : Type} (agent : EngineeringAgent κ σ ε)

inductive Raises : EngineeringException ε → Prop where
  | retriever {objective : String} {world next : σ} {exception : EngineeringException ε} :
      agent.retriever objective world = (next, .error exception) → Raises exception
  | inspector {repository : String} {world next : σ} {exception : EngineeringException ε} :
      agent.inspector repository world = (next, .error exception) → Raises exception
  | planner {task : EngineeringTask} {snapshot : RepositorySnapshot} {context : κ}
      {world next : σ} {exception : EngineeringException ε} :
      agent.planner task snapshot context world = (next, .error exception) → Raises exception
  | validator {task : EngineeringTask} {snapshot : RepositorySnapshot} {plan : EngineeringPlan}
      {world next : σ} {exception : EngineeringException ε} :
      agent.validator task snapshot plan world = (next, .error exception) → Raises exception
  | tool {request : EngineeringToolRequest} {world next : σ}
      {exception : EngineeringException ε} :
      agent.tools request world = (next, .error exception) → Raises exception
  | analyzer {analyzer : ToolResult → Call σ (EngineeringException ε) String}
      {result : ToolResult} {world next : σ} {exception : EngineeringException ε} :
      analyzer ∈ agent.failureAnalyzer → analyzer result world = (next, .error exception) →
        Raises exception
  | record {tracker : ChangeTracker σ (EngineeringException ε)} {change : FileChange}
      {world next : σ} {exception : EngineeringException ε} :
      tracker ∈ agent.changeTracker → tracker.record change world = (next, .error exception) →
        Raises exception
  | changes {tracker : ChangeTracker σ (EngineeringException ε)} {world next : σ}
      {exception : EngineeringException ε} :
      tracker ∈ agent.changeTracker → tracker.changes world = (next, .error exception) →
        Raises exception

/-! ## How the parts of a run end -/

section Ends
variable {s : EngineeringState σ}

theorem await_ends {α : Type} {call : Call σ (EngineeringException ε) α}
    {events : α → List EngineeringEvent} {post : α → EngineeringState σ → Prop}
    {raised : EngineeringException ε → EngineeringState σ → Prop}
    (returned : ∀ value world, post value
      { s with world := world, trace := s.trace ++ events value })
    (raising : ∀ exception world, call s.world = (world, .error exception) →
      raised exception { s with world := world }) :
    (await call events).Ends s post raised := by
  unfold Ends await
  rcases answer : call s.world with ⟨world, exception | value⟩
  · exact raising exception world answer
  · exact returned value world

theorem guard_ends {post : PUnit → EngineeringState σ → Prop}
    {raised : EngineeringException ε → EngineeringState σ → Prop}
    (passed : s.calls < agent.limits.maxToolCalls → ∀ world, post ⟨⟩ { s with world := world })
    (stopped : ∀ message ∈ stops, ∀ world,
      raised (.escalation message) { s with world := world }) :
    agent.guard.Ends s post raised := by
  unfold guard
  rw [ends_bind, ends_get]
  split
  · exact stopped _ (by simp [stops]) s.world
  · rename_i within
    rw [ends_bind]
    refine await_ends ?_ (fun _ _ never => nomatch never)
    intro now world
    rw [List.append_nil]
    split
    · exact stopped _ (by simp [stops]) world
    · exact passed (not_le.mp within) world

theorem callTool_ends {name : String} {arguments : List (String × Argument)}
    {post : ToolResult → EngineeringState σ → Prop}
    {raised : EngineeringException ε → EngineeringState σ → Prop}
    (answered : s.calls < agent.limits.maxToolCalls → ∀ result world, post result
      { s with
        world := world
        calls := s.calls + 1
        trace := s.trace ++ [.tool ⟨name, arguments⟩ result] })
    (stopped : ∀ message ∈ stops, ∀ world,
      raised (.escalation message) { s with world := world })
    (raising : ∀ exception world, agent.Raises exception →
      raised exception { s with world := world, calls := s.calls + 1 }) :
    (agent.callTool name arguments).Ends s post raised := by
  unfold callTool
  rw [ends_bind]
  refine agent.guard_ends ?_ stopped
  intro within world
  rw [ends_bind, ends_modify]
  refine await_ends ?_ ?_
  · exact answered within
  · intro exception world answer
    exact raising exception world (.tool answer)

end Ends

/-! ## What stands throughout a run -/

/-- It says nothing of the world, the records, the tests and the failures, and a call
that is no implementation does not end it. -/
structure Standing (motive : EngineeringState σ → Prop)
    (raised : EngineeringException ε → Prop) : Prop where
  ignores : ∀ s world records tests failures, motive s →
    motive { s with world := world, records := records, tests := tests, failures := failures }
  called : ∀ s event, event.isCall = true → event.isImplement = false → motive s →
    s.calls < agent.limits.maxToolCalls →
      motive { s with calls := s.calls + 1, trace := s.trace ++ [event] }
  unanswered : ∀ s exception, agent.Raises exception → motive s →
    motive { s with calls := s.calls + 1 }
  raises : ∀ exception, agent.Raises exception → raised exception
  escalates : ∀ message, message ≠ "maximum changed-file limit reached" →
    raised (.escalation message)

namespace Standing

variable {agent} {motive : EngineeringState σ → Prop} {raised : EngineeringException ε → Prop}

theorem stopped (standing : agent.Standing motive raised) {s : EngineeringState σ}
    (holds : motive s) : ∀ message ∈ stops, ∀ world,
      raised (.escalation message) ∧ motive { s with world := world } := by
  intro message listed world
  refine ⟨standing.escalates message ?_, standing.ignores s world _ _ _ holds⟩
  rintro rfl
  exact absurd listed (by decide)

theorem guard (standing : agent.Standing motive raised) : agent.guard.Keeps motive raised := by
  intro s holds
  exact agent.guard_ends (fun _ world => standing.ignores s world _ _ _ holds)
    (standing.stopped holds)

theorem append (standing : agent.Standing motive raised) (record : ChangeRecord) :
    (append record : EngineeringProgram σ ε PUnit).Keeps motive raised :=
  Keeps.modify fun s holds => standing.ignores s s.world _ s.tests s.failures holds

theorem callTool (standing : agent.Standing motive raised) {name : String}
    (other : name ≠ "engineering.implement") (arguments : List (String × Argument)) :
    (agent.callTool name arguments).Keeps motive raised := by
  intro s holds
  refine agent.callTool_ends ?_ (standing.stopped holds) ?_
  · intro within result world
    exact standing.called _ (.tool ⟨name, arguments⟩ result) rfl (decide_eq_false other)
      (standing.ignores s world _ _ _ holds) within
  · intro exception world raises
    exact ⟨standing.raises exception raises, standing.unanswered _ exception raises
      (standing.ignores s world _ _ _ holds)⟩

theorem failure (standing : agent.Standing motive raised) (result : ToolResult) :
    (agent.failure result).Keeps motive raised := by
  unfold EngineeringAgent.failure
  cases given : agent.failureAnalyzer with
  | none => exact Keeps.pure
  | some analyzer =>
      intro s holds
      rw [ends_bind]
      refine agent.guard_ends ?_ (standing.stopped holds)
      intro within world
      rw [ends_bind, ends_modify]
      refine await_ends ?_ ?_
      · intro failure world'
        exact standing.called _ .analyzed rfl rfl (standing.ignores s world' _ _ _ holds) within
      · intro exception world' answer
        have raises : agent.Raises exception := .analyzer given answer
        exact ⟨standing.raises exception raises, standing.unanswered _ exception raises
          (standing.ignores s world' _ _ _ holds)⟩

theorem correct (standing : agent.Standing motive raised) (task : EngineeringTask)
    (plan : EngineeringPlan) (result : ToolResult) :
    (agent.correct task plan result).Keeps motive raised := by
  refine Keeps.bind (standing.failure result) ?_
  intro failure
  refine Keeps.bind (Keeps.modify fun s holds =>
    standing.ignores s s.world s.records s.tests _ holds) ?_
  intro _
  refine Keeps.bind (standing.append _) ?_
  intro _
  refine Keeps.bind Keeps.get ?_
  intro state
  split
  · exact Keeps.throw (standing.escalates _ (by decide))
  · refine Keeps.bind (standing.callTool (by decide) _) ?_
    intro _
    exact standing.append _

end Standing

/-! ## The loop in two phases -/

def implementPhase (task : EngineeringTask) (plan : EngineeringPlan) :
    EngineeringProgram σ ε (List FileChange) := do
  modify fun state => { state with iterations := state.iterations + 1 }
  agent.guard
  let implementation ← agent.callTool "engineering.implement"
    [("task", .text task.objective), ("repository", .text task.repository),
      ("plan", .plan plan)]
  let changes ← agent.recordChanges implementation
  append { phase := .implement, changes := changes }
  agent.enforceFileLimit
  pure changes

def testPhases (task : EngineeringTask) (plan : EngineeringPlan) (changes : List FileChange)
    (again : EngineeringProgram σ ε EngineeringReport) :
    EngineeringProgram σ ε EngineeringReport := do
  let targeted ← agent.callTool "engineering.test.targeted"
    [("repository", .text task.repository), ("plan", .plan plan)]
  modify fun state => { state with tests := state.tests ++ ["targeted tests"] }
  if targeted.status ≠ .success then do
    agent.correct task plan targeted
    again
  else do
    append { phase := .targetedTests, detail := "passed" }
    let broader ← agent.callTool "engineering.test.broader"
      [("repository", .text task.repository), ("plan", .plan plan)]
    modify fun state => { state with tests := state.tests ++ ["broader tests"] }
    if broader.status ≠ .success then do
      agent.correct task plan broader
      again
    else do
      append { phase := .broaderTests, detail := "passed" }
      append { phase := .report, detail := "implementation verified" }
      let state ← get
      pure (agent.completed task plan changes state)

theorem iterations_succ (task : EngineeringTask) (plan : EngineeringPlan) (remaining : ℕ) :
    agent.iterations task plan (remaining + 1) = (do
      let changes ← agent.implementPhase task plan
      agent.testPhases task plan changes (agent.iterations task plan remaining)) := by
  simp only [iterations, implementPhase, testPhases, bind_assoc, pure_bind]

theorem testPhases_ends {motive : EngineeringState σ → Prop}
    {raised : EngineeringException ε → Prop} {post : EngineeringReport → EngineeringState σ → Prop}
    {raises : EngineeringException ε → EngineeringState σ → Prop}
    {again : EngineeringProgram σ ε EngineeringReport} {task : EngineeringTask}
    {plan : EngineeringPlan} {changes : List FileChange}
    (standing : agent.Standing motive raised)
    (escaped : ∀ exception s, raised exception → motive s → raises exception s)
    (next : ∀ s, motive s → again.Ends s post raises)
    (done : ∀ s, motive s → post (agent.completed task plan changes s) s)
    {s : EngineeringState σ} (holds : motive s) :
    (agent.testPhases task plan changes again).Ends s post raises := by
  have corrected : ∀ result s, motive s → (do
      agent.correct task plan result
      again).Ends s post raises := by
    intro result s holds
    exact (standing.correct task plan result).followed holds escaped fun _ t kept => next t kept
  unfold testPhases
  refine (standing.callTool (by decide) _).followed holds escaped ?_
  intro targeted t holds
  have noted :=
    standing.ignores t t.world t.records (t.tests ++ ["targeted tests"]) t.failures holds
  rw [ends_bind, ends_modify]
  split
  · exact corrected targeted _ noted
  · refine (standing.append _).followed noted escaped ?_
    intro _ t holds
    refine (standing.callTool (by decide) _).followed holds escaped ?_
    intro broader t holds
    have noted :=
      standing.ignores t t.world t.records (t.tests ++ ["broader tests"]) t.failures holds
    rw [ends_bind, ends_modify]
    split
    · exact corrected broader _ noted
    · refine (standing.append _).followed noted escaped ?_
      intro _ t holds
      refine (standing.append _).followed holds escaped ?_
      intro _ t holds
      exact done t holds

/-! ## Before the loop -/

/-- What stands before the loop: the other collaborators are called, and no plan is
followed yet. -/
structure Opening (motive : EngineeringState σ → Prop)
    (raised : EngineeringException ε → Prop) : Prop where
  ignores : ∀ s world records plan, motive s →
    motive { s with world := world, records := records, plan := plan }
  noted : ∀ s event, event.isCall = false → motive s →
    motive { s with trace := s.trace ++ [event] }
  raises : ∀ exception, agent.Raises exception → raised exception
  escalates : ∀ message, message ≠ "maximum changed-file limit reached" →
    raised (.escalation message)

namespace Opening

variable {agent} {motive : EngineeringState σ → Prop} {raised : EngineeringException ε → Prop}

theorem guard (opening : agent.Opening motive raised) : agent.guard.Keeps motive raised := by
  intro s holds
  refine agent.guard_ends (fun _ world => opening.ignores s world _ _ holds) ?_
  intro message listed world
  refine ⟨opening.escalates message ?_, opening.ignores s world _ _ holds⟩
  rintro rfl
  exact absurd listed (by decide)

theorem append (opening : agent.Opening motive raised) (record : ChangeRecord) :
    (append record : EngineeringProgram σ ε PUnit).Keeps motive raised :=
  Keeps.modify fun s holds => opening.ignores s s.world _ s.plan holds

theorem await (opening : agent.Opening motive raised) {α : Type}
    {call : Call σ (EngineeringException ε) α} {event : α → EngineeringEvent}
    (quiet : ∀ value, (event value).isCall = false)
    (raises : ∀ world next exception, call world = (next, .error exception) →
      agent.Raises exception) :
    (await call fun value => [event value]).Keeps motive raised := by
  intro s holds
  refine await_ends ?_ ?_
  · intro value world
    exact opening.noted _ _ (quiet value) (opening.ignores s world _ _ holds)
  · intro exception world answer
    exact ⟨opening.raises exception (raises _ _ exception answer),
      opening.ignores s world _ _ holds⟩

end Opening

theorem attempt_ends {motive : EngineeringState σ → Prop}
    {raised : EngineeringException ε → Prop} {post : EngineeringReport → EngineeringState σ → Prop}
    {raises : EngineeringException ε → EngineeringState σ → Prop} {task : EngineeringTask}
    (opening : agent.Opening motive raised)
    (escaped : ∀ exception s, raised exception → motive s → raises exception s)
    (loop : ∀ plan s, motive s → .validated plan true ∈ s.trace →
      (agent.iterations task plan agent.limits.maxIterations).Ends s post raises)
    {s : EngineeringState σ} (holds : motive s) :
    (agent.attempt task).Ends s post raises := by
  unfold attempt
  refine opening.guard.followed holds escaped ?_
  intro _ s holds
  refine (opening.append _).followed holds escaped ?_
  intro _ s holds
  refine opening.guard.followed holds escaped ?_
  intro _ s holds
  refine (opening.await (fun _ => rfl) fun _ _ _ answer => .retriever answer).followed holds
    escaped ?_
  intro context s holds
  refine (opening.append _).followed holds escaped ?_
  intro _ s holds
  refine opening.guard.followed holds escaped ?_
  intro _ s holds
  refine (opening.await (fun _ => rfl) fun _ _ _ answer => .inspector answer).followed holds
    escaped ?_
  intro snapshot s holds
  refine (opening.append _).followed holds escaped ?_
  intro _ s holds
  refine (opening.append _).followed holds escaped ?_
  intro _ s holds
  refine (opening.append _).followed holds escaped ?_
  intro _ s holds
  refine (opening.append _).followed holds escaped ?_
  intro _ s holds
  refine (opening.append _).followed holds escaped ?_
  intro _ s holds
  refine opening.guard.followed holds escaped ?_
  intro _ s holds
  refine (opening.await (fun _ => rfl) fun _ _ _ answer => .planner answer).followed holds
    escaped ?_
  intro plan s holds
  rw [ends_bind, ends_modify]
  refine (opening.append _).followed (opening.ignores s s.world s.records _ holds) escaped ?_
  intro _ s holds
  refine opening.guard.followed holds escaped ?_
  intro _ s holds
  rw [ends_bind]
  refine await_ends ?_ ?_
  · intro ⟨valid, reason⟩ world
    have judged := opening.noted _ (.validated plan valid) rfl
      (opening.ignores s world s.records s.plan holds)
    rw [ends_bind]
    unfold append
    rw [ends_modify]
    cases valid with
    | false =>
        refine escaped _ _ (opening.escalates _ ?_) (opening.ignores _ _ _ _ judged)
        intro same
        have first := congrArg (fun text => text.toList.head?) same
        simp at first
    | true =>
        exact loop plan _ (opening.ignores _ _ _ _ judged) (by simp)
  · intro exception world answer
    exact escaped _ _ (opening.raises exception (.validator answer))
      (opening.ignores s world _ _ holds)

/-! ## Limits -/

/-- Two kinds of exceptions leave the parts of a run when no collaborator raises: its
own escalations, and those of a value that is no iterable. -/
def Expected (exception : EngineeringException ε) : Prop :=
  (∃ message, exception = .escalation message) ∨ ∃ value, agent.items value = .error exception

/-- The counter counts the calls, both counters are within the limits, and behind each
implementation there are its iteration and a plan that was accepted. -/
structure WithinLimits (s : EngineeringState σ) : Prop where
  counted : s.trace.countP EngineeringEvent.isCall = s.calls
  calls : s.calls ≤ agent.limits.maxToolCalls
  implemented : s.trace.countP EngineeringEvent.isImplement ≤ s.iterations
  iterations : s.iterations ≤ agent.limits.maxIterations
  accepted : Transition.Preceded Accepted s.trace

structure Iterating (plan : EngineeringPlan) (k : ℕ) (s : EngineeringState σ) : Prop
    extends WithinLimits agent s where
  current : s.iterations = k
  planned : .validated plan true ∈ s.trace

section Limits
variable {agent} {s : EngineeringState σ} {plan : EngineeringPlan} {k : ℕ}

theorem WithinLimits.noted (within : agent.WithinLimits s) {event : EngineeringEvent}
    (quiet : event.isCall = false) (other : event.isImplement = false) :
    agent.WithinLimits { s with trace := s.trace ++ [event] } where
  counted := by simp [within.counted, quiet]
  calls := within.calls
  implemented := by simpa [other] using within.implemented
  iterations := within.iterations
  accepted := by
    refine within.accepted.snoc ?_
    intro implement
    rw [other] at implement
    cases implement

theorem Iterating.called (iterating : agent.Iterating plan k s) {event : EngineeringEvent}
    (call : event.isCall = true) (within : s.calls < agent.limits.maxToolCalls)
    (room : event.isImplement = true → s.trace.countP EngineeringEvent.isImplement < k)
    (follows : event.isImplement = true → event.Follows plan) :
    agent.Iterating plan k { s with calls := s.calls + 1, trace := s.trace ++ [event] } where
  counted := by simp [iterating.counted, call]
  calls := within
  implemented := by
    have before := iterating.implemented
    rw [iterating.current] at before
    rw [List.countP_append, List.countP_singleton, iterating.current]
    split
    · exact room ‹_›
    · exact before
  iterations := iterating.iterations
  accepted := iterating.accepted.snoc fun implement =>
    ⟨plan, follows implement, iterating.planned⟩
  current := iterating.current
  planned := List.mem_append_left _ iterating.planned

theorem Iterating.standing (never : ∀ exception, ¬ agent.Raises exception) :
    agent.Standing (agent.Iterating plan k) agent.Expected where
  ignores := fun _ _ _ _ _ iterating => { iterating with }
  called := by
    intro s event call other iterating within
    have never : event.isImplement ≠ true := by simp [other]
    exact iterating.called call within (fun implement => absurd implement never)
      fun implement => absurd implement never
  unanswered := fun _ exception raises => absurd raises (never exception)
  raises := fun exception raises => absurd raises (never exception)
  escalates := fun message _ => Or.inl ⟨message, rfl⟩

theorem recordItems_iterating (never : ∀ exception, ¬ agent.Raises exception)
    (items : List Value) :
    (agent.recordItems items).Keeps (agent.Iterating plan k) agent.Expected := by
  induction items with
  | nil => exact Keeps.pure
  | cons item rest ih =>
      unfold recordItems
      cases agent.changeOf item with
      | none => exact ih
      | some change =>
          have recorded : (agent.record change).Keeps (agent.Iterating plan k) agent.Expected := by
            unfold record
            cases given : agent.changeTracker with
            | none => exact Keeps.modify fun _ iterating => { iterating with }
            | some tracker =>
                refine Keeps.bind ?_ fun _ => Keeps.pure
                intro s iterating
                refine await_ends (fun _ world => ?_) fun exception _ answer => ?_
                · rw [List.append_nil]
                  exact { iterating with }
                · exact absurd (.record given answer) (never exception)
          exact recorded.bind fun _ => ih.bind fun _ => Keeps.pure

theorem recordChanges_iterating (never : ∀ exception, ¬ agent.Raises exception)
    (result : ToolResult) :
    (agent.recordChanges result).Keeps (agent.Iterating plan k) agent.Expected := by
  unfold recordChanges
  cases iterated : agent.items (rawChanges result.output) with
  | error exception => exact Keeps.throw (Or.inr ⟨_, iterated⟩)
  | ok items => exact recordItems_iterating never items

theorem enforceFileLimit_iterating (never : ∀ exception, ¬ agent.Raises exception) :
    agent.enforceFileLimit.Keeps (agent.Iterating plan k) agent.Expected := by
  have asked : agent.changes.Keeps (agent.Iterating plan k) agent.Expected := by
    unfold changes
    cases given : agent.changeTracker with
    | none => exact Keeps.get.bind fun _ => Keeps.pure
    | some tracker =>
        intro s iterating
        refine await_ends (fun _ world => ?_) fun exception _ answer => ?_
        · rw [List.append_nil]
          exact { iterating with }
        · exact absurd (.changes given answer) (never exception)
  refine asked.bind fun changes => ?_
  split
  · exact Keeps.throw (Or.inl ⟨_, rfl⟩)
  · exact Keeps.pure

structure Ready (agent : EngineeringAgent κ σ ε) (plan : EngineeringPlan) (remaining : ℕ)
    (s : EngineeringState σ) : Prop extends WithinLimits agent s where
  left : s.iterations + remaining = agent.limits.maxIterations
  planned : .validated plan true ∈ s.trace

theorem implementPhase_ends (never : ∀ exception, ¬ agent.Raises exception)
    (task : EngineeringTask) {remaining : ℕ} (ready : agent.Ready plan (remaining + 1) s) :
    (agent.implementPhase task plan).Ends s
      (fun _ t => agent.Iterating plan (s.iterations + 1) t)
      fun exception t => agent.Expected exception ∧ agent.WithinLimits t := by
  have standing : agent.Standing (agent.Iterating plan (s.iterations + 1)) agent.Expected :=
    Iterating.standing never
  have left := ready.left
  have implemented := ready.implemented
  have started :
      agent.Iterating plan (s.iterations + 1) { s with iterations := s.iterations + 1 } :=
    { counted := ready.counted
      calls := ready.calls
      implemented := Nat.le_succ_of_le implemented
      iterations := by
        show s.iterations + 1 ≤ _
        omega
      accepted := ready.accepted
      current := rfl
      planned := ready.planned }
  unfold implementPhase
  rw [ends_bind, ends_modify, ends_bind]
  refine agent.guard_ends ?_ fun message listed world => ?_
  · intro _ world
    rw [ends_bind]
    refine agent.callTool_ends ?_ (fun message listed world => ?_) fun exception _ raises => ?_
    · intro within implementation world
      have current : agent.Iterating plan (s.iterations + 1)
          { s with world := world, iterations := s.iterations + 1 } := { started with }
      refine Keeps.followed (recordChanges_iterating never implementation)
        (current.called rfl within (fun _ => Nat.lt_succ_of_le implemented)
          fun _ => by simp [EngineeringEvent.Follows])
        (fun _ _ expected kept => ⟨expected, kept.toWithinLimits⟩) ?_
      intro changes t kept
      refine (standing.append _).followed kept
        (fun _ _ expected kept => ⟨expected, kept.toWithinLimits⟩) ?_
      intro _ t kept
      refine (enforceFileLimit_iterating never).followed kept
        (fun _ _ expected kept => ⟨expected, kept.toWithinLimits⟩) ?_
      intro _ t kept
      exact kept
    · exact ⟨Or.inl ⟨message, rfl⟩, { started.toWithinLimits with }⟩
    · exact absurd raises (never exception)
  · exact ⟨Or.inl ⟨message, rfl⟩, { started.toWithinLimits with }⟩

structure Counts (report : EngineeringReport) (s : EngineeringState σ) : Prop where
  toolCalls : report.toolCalls = s.calls
  iterations : report.iterations = s.iterations

theorem iterations_ends (never : ∀ exception, ¬ agent.Raises exception)
    (task : EngineeringTask) (remaining : ℕ) (ready : agent.Ready plan remaining s) :
    (agent.iterations task plan remaining).Ends s
      (fun report t => Counts report t ∧ agent.WithinLimits t)
      fun exception t => agent.Expected exception ∧ agent.WithinLimits t := by
  induction remaining generalizing s with
  | zero => exact ⟨Or.inl ⟨_, rfl⟩, ready.toWithinLimits⟩
  | succ remaining ih =>
      rw [iterations_succ, ends_bind]
      refine (implementPhase_ends never task ready).mono ?_ fun _ _ raised => raised
      intro changes t iterating
      refine agent.testPhases_ends (Iterating.standing never)
        (fun _ _ expected kept => ⟨expected, kept.toWithinLimits⟩) ?_ ?_ iterating
      · intro u kept
        refine ih { kept with left := ?_ }
        rw [kept.current, ← ready.left]
        omega
      · intro u kept
        exact ⟨⟨rfl, rfl⟩, kept.toWithinLimits⟩

theorem isImplement_of_quiet {event : EngineeringEvent} (quiet : event.isCall = false) :
    event.isImplement = false := by
  cases event with
  | tool request result => cases quiet
  | _ => rfl

theorem opening_withinLimits (never : ∀ exception, ¬ agent.Raises exception) :
    agent.Opening (fun s => agent.WithinLimits s ∧ s.iterations = 0) agent.Expected where
  ignores := fun _ _ _ _ ⟨within, unbegun⟩ => ⟨{ within with }, unbegun⟩
  noted := fun _ _ quiet ⟨within, unbegun⟩ =>
    ⟨within.noted quiet (isImplement_of_quiet quiet), unbegun⟩
  raises := fun exception raises => absurd raises (never exception)
  escalates := fun message _ => Or.inl ⟨message, rfl⟩

theorem attempt_withinLimits (never : ∀ exception, ¬ agent.Raises exception)
    (task : EngineeringTask) (within : agent.WithinLimits s) (unbegun : s.iterations = 0) :
    (agent.attempt task).Ends s
      (fun report t => Counts report t ∧ agent.WithinLimits t)
      fun exception t => agent.Expected exception ∧ agent.WithinLimits t := by
  refine agent.attempt_ends (opening_withinLimits never)
    (fun _ _ expected kept => ⟨expected, kept.1⟩) ?_ ⟨within, unbegun⟩
  intro plan s ⟨within, unbegun⟩ planned
  exact iterations_ends never task agent.limits.maxIterations
    { within with left := by simp [unbegun], planned := planned }

end Limits

/-- The report of a run within its limits. -/
structure BoundedReport (report : EngineeringReport) (after : EngineeringState σ) : Prop
    extends WithinLimits agent after where
  toolCalls : report.toolCalls = after.trace.countP EngineeringEvent.isCall
  bounded : report.toolCalls ≤ agent.limits.maxToolCalls
  iterated : report.iterations = after.iterations

/-- When no collaborator raises, a run stays within its limits.  It raises nothing but
what the value that a tool reports as its changes raises when it is iterated over. -/
theorem run_within_limits (never : ∀ exception, ¬ agent.Raises exception)
    (task : EngineeringTask) (start : EngineeringState σ) :
    (agent.run task).Ends start (fun report after => agent.BoundedReport report after)
      fun exception after => agent.WithinLimits after ∧
        ∃ value, agent.items value = .error exception := by
  have reported : ∀ {report : EngineeringReport} {after : EngineeringState σ},
      Counts report after → agent.WithinLimits after → agent.BoundedReport report after := by
    intro report after counts within
    exact
      { within with
        toolCalls := counts.toolCalls.trans within.counted.symm
        bounded := counts.toolCalls.trans_le within.calls
        iterated := counts.iterations }
  unfold run
  simp only [ends_bind, ends_modify, ends_tryCatch]
  refine await_ends ?_ fun _ _ never => nomatch never
  intro started world
  have fresh : agent.WithinLimits
      { world := world, items := start.items, started := started, trace := [] ++ [] } :=
    ⟨rfl, Nat.zero_le _, Nat.zero_le _, Nat.zero_le _, Transition.Preceded.nil⟩
  refine (attempt_withinLimits never task fresh rfl).mono ?_ ?_
  · intro report after ⟨counts, within⟩
    exact reported counts within
  · intro exception after ⟨expected, within⟩
    cases exception with
    | raised error =>
        rcases expected with ⟨_, other⟩ | unexpected
        · cases other
        · exact ⟨within, unexpected⟩
    | escalation message => exact reported ⟨rfl, rfl⟩ { within with }

end EngineeringAgent

theorem fixtureAgent_never_raises (implemented : Eis.Tools.ExecutionStatus) :
    ∀ exception, ¬ (fixtureAgent implemented).Raises exception := by
  intro exception raises
  cases raises with
  | retriever answer => exact nomatch answer
  | inspector answer => exact nomatch answer
  | planner answer => exact nomatch answer
  | validator answer => exact nomatch answer
  | tool answer => exact nomatch answer
  | analyzer given _ => exact nomatch given
  | record given _ => exact nomatch given
  | changes given _ => exact nomatch given

theorem run_within_limits_fixture :
    ((fixtureAgent .failed).run featureTask).Ends { world := () }
      (fun report after => (fixtureAgent .failed).BoundedReport report after)
      fun exception after => (fixtureAgent .failed).WithinLimits after ∧
        ∃ value, (fixtureAgent .failed).items value = .error exception :=
  (fixtureAgent .failed).run_within_limits (fixtureAgent_never_raises .failed) featureTask
    { world := () }

end Eis.Engineering
