import Mathlib.Data.List.DropRight
import Eis.Sdk.AuditTrail

/-!
# The audit history and its windows

What happens to a session happens through the operations of the facade, with whatever the
handlers do inside them, or to the world alone.
-/

set_option autoImplicit false

namespace Eis.Sdk

open Program

variable {η ω ε : Type}

/-- `entries[start:]` -/
def sliceFrom {α : Type} (entries : List α) (start : ℤ) : List α :=
  if start < 0 then entries.drop (entries.length - start.natAbs) else entries.drop start.natAbs

def EIS.auditHistory (eis : EIS η) (limit : Option ℤ) : List AuditEntry :=
  match limit with
  | none => eis.audit
  | some limit => sliceFrom eis.audit (-limit)

/-! ## Runs of operations -/

/-- A handler that an operation calls: the session in which it does, and what the facade
does between the call and the wait. -/
structure Calling (η ω ε : Type) where
  start : Session η ω
  mark : Session η ω → Session η ω
  call : HandlerCall η ω ε

namespace Application

variable (app : Application η ω ε)

def calling (session : Session η ω) : Operation η ω ε → Option (Calling η ω ε)
  | .runAgent name task =>
      (session.eis.agents.get? name).map fun handler =>
        ⟨session, Session.running task.id, app.agent handler task⟩
  | .execute name args kwargs =>
      (session.eis.tools.get? name).map fun handler => ⟨session, id, app.tool handler args kwargs⟩
  | .evaluateIdea subject evaluator =>
      if Text.strip subject = "" then none else some ⟨session, id, evaluator.call subject⟩
  | .executeEngineering task engineer =>
      some ⟨app.started task session, id, engineer.call task⟩
  | .orchestrate workflow task runner =>
      if Text.strip workflow = "" then none else some ⟨session, id, runner.call workflow task⟩
  | _ => none

/-- From the first session to the second one the handler has the word: in its call, or
while it is awaited. -/
inductive Span (session : Session η ω) (operation : Operation η ω ε) :
    Session η ω → Session η ω → Prop where
  | called {calling : Calling η ω ε} (found : app.calling session operation = some calling) :
      Span session operation calling.start (calling.call calling.start).1
  | awaited {calling : Calling η ω ε} {called : Session η ω}
      {wait : Call (Session η ω) (SdkException ε) Value}
      (found : app.calling session operation = some calling)
      (returned : calling.call calling.start = (called, .ok (.awaitable wait))) :
      Span session operation (calling.mark called) (wait (calling.mark called)).1

/-- A run of operations, each with the runs that its handler is made of. -/
inductive Acts : Session η ω → Session η ω → Prop where
  | refl (session : Session η ω) : Acts session session
  | elsewhere (session : Session η ω) (world : ω) : Acts session { session with world := world }
  | operate (session : Session η ω) (operation : Operation η ω ε)
      (inside : ∀ start last, Span app session operation start last → Acts start last) :
      Acts session (app.after session operation)
  | trans {s t u : Session η ω} (first : Acts s t) (second : Acts t u) : Acts s u

end Application

/-! ## The history grows -/

def Grown (before after : Session η ω) : Prop :=
  before.eis.auditHistory none <+: after.eis.auditHistory none

namespace Grown

variable {s t u : Session η ω}

theorem refl (s : Session η ω) : Grown s s := List.prefix_refl _

theorem trans (first : Grown s t) (second : Grown t u) : Grown s u :=
  List.IsPrefix.trans first second

theorem of_eq (same : t.eis.audit = s.eis.audit) : Grown s t := by
  show s.eis.audit <+: t.eis.audit
  rw [same]

theorem of_recorded {action result : String} (recorded : Recorded action result s t) :
    Grown s t := by
  obtain ⟨entry, grown, _⟩ := recorded
  show s.eis.audit <+: t.eis.audit
  rw [grown]
  exact List.prefix_append _ _

end Grown

namespace Application

variable {app : Application η ω ε} {session last : Session η ω}

theorem grown_of_records {reached : Reached η ω ε} (records : reached.Records app last) :
    Grown reached.last last := by
  unfold Reached.Records at records
  cases ended : reached.outcome with
  | ok succeeded =>
      rw [ended] at records
      exact Grown.of_recorded records
  | error exception =>
      simp only [ended] at records
      split at records
      · exact Grown.of_recorded records
      · exact Grown.of_eq records

theorem handled_grown {operation : Operation η ω ε} {calling : Calling η ω ε}
    (found : app.calling session operation = some calling)
    (marked : ∀ s, Grown s (calling.mark s))
    (inside : ∀ start last, Span app session operation start last → Grown start last) :
    Grown calling.start (handled calling.mark calling.call calling.start).1 := by
  have called := inside _ _ (Span.called found)
  unfold handled
  rcases ended : calling.call calling.start with ⟨after, exception | value | wait⟩
  · rwa [ended] at called
  · rw [ended] at called
    exact called.trans (marked after)
  · rw [ended] at called
    exact (called.trans (marked after)).trans (inside _ _ (Span.awaited found ended))

def reportIdea (app : Application η ω ε) (subject : String) (result : Value) :
    SdkProgram η ω ε EvaluationResult :=
  match app.isEvaluationResult result with
  | none => throw (.typeError "evaluator must return EvaluationResult")
  | some result => do
      app.recordAudit "idea.evaluate" "success" none none (some subject) none
      pure result

theorem reportIdea_grown (subject : String) (result : Value) (session : Session η ω) :
    Grown session ((app.reportIdea subject result).final session) := by
  unfold reportIdea
  cases app.isEvaluationResult result with
  | none => exact Grown.refl session
  | some own => exact Grown.of_recorded (app.recorded "idea.evaluate" "success" _ _ _ _ session)

theorem evaluateIdea_grown {subject : String} {evaluator : EvaluatorAdapter η ω ε}
    (inside : ∀ start last,
      Span app session (.evaluateIdea subject evaluator) start last → Grown start last) :
    Grown session ((app.evaluateIdea subject evaluator).final session) := by
  by_cases blank : Text.strip subject = ""
  · refine Grown.of_eq ?_
    unfold evaluateIdea
    rw [if_pos blank]
    rfl
  · have found : app.calling session (.evaluateIdea subject evaluator) =
        some ⟨session, id, evaluator.call subject⟩ := if_neg blank
    have grown := handled_grown found Grown.refl inside
    have called : app.evaluateIdea subject evaluator session =
        ((invoke (evaluator.call subject) >>= settle) >>= app.reportIdea subject) session := by
      unfold evaluateIdea
      rw [if_neg blank]
      simp only [bind_assoc]
      rfl
    rcases through : handled id (evaluator.call subject) session with ⟨last, outcome⟩
    have settled := invoke_of_handled through
    rw [through] at grown
    cases outcome with
    | error exception =>
        rw [final_of_error (called.trans (bind_of_error settled))]
        exact grown
    | ok value =>
        have reported : Grown last ((app.reportIdea subject value).final last) :=
          reportIdea_grown subject value last
        unfold Program.final at reported ⊢
        rw [called, bind_of_ok settled]
        exact grown.trans reported

theorem checked_grown {α : Type} {blank : Prop} [Decidable blank] {exception : SdkException ε}
    {program : SdkProgram η ω ε α} (grown : Grown session (program.final session)) :
    Grown session ((if blank then throw exception else program).final session) := by
  split
  · exact Grown.refl session
  · exact grown

theorem reached_grown {operation : Operation η ω ε} {calling : Calling η ω ε}
    {reached : Reached η ω ε} (found : app.calling session operation = some calling)
    (reaches : app.reached session operation = some reached)
    (last : reached.last = (handled calling.mark calling.call calling.start).1)
    (started : Grown session calling.start) (marked : ∀ s, Grown s (calling.mark s))
    (inside : ∀ start last, Span app session operation start last → Grown start last) :
    Grown session (app.after session operation) := by
  have grown := handled_grown found marked inside
  rw [← last] at grown
  exact (started.trans grown).trans (grown_of_records (reached_records reaches))

theorem runAgent_grown {name : String} {task : Task}
    (inside : ∀ start last,
      Span app session (.runAgent name task) start last → Grown start last) :
    Grown session (app.after session (.runAgent name task)) := by
  cases registered : session.eis.agents.get? name with
  | some handler =>
      have found : app.calling session (.runAgent name task) =
          some ⟨session, Session.running task.id, app.agent handler task⟩ := by
        simp only [calling, registered, Option.map_some]
      obtain ⟨reached, reaches, last⟩ : ∃ reached,
          app.reached session (.runAgent name task) = some reached ∧ reached.last =
            (handled (Session.running task.id) (app.agent handler task) session).1 := by
        simp only [Application.reached, registered, Option.map_some]
        exact ⟨_, rfl, rfl⟩
      exact reached_grown found reaches last (Grown.refl session) (fun _ => Grown.of_eq rfl)
        inside
  | none =>
      have unknown : app.runAgent name task session =
          .error (if app.catchesKeyError (.keyError name) then unknownAgent name
            else .keyError name) session := by
        unfold runAgent
        rw [bind_of_ok (rfl : (get : SdkProgram η ω ε _) session = .ok session session)]
        simp only [registered]
        exact bind_of_error (tryCatch_of_error rfl)
      exact Grown.of_eq (congrArg (fun s => s.eis.audit) (final_of_error unknown))

theorem execute_grown {name : String} {args : List Value} {kwargs : Dict}
    (inside : ∀ start last,
      Span app session (.execute name args kwargs) start last → Grown start last) :
    Grown session (app.after session (.execute name args kwargs)) := by
  cases registered : session.eis.tools.get? name with
  | some handler =>
      have found : app.calling session (.execute name args kwargs) =
          some ⟨session, id, app.tool handler args kwargs⟩ := by
        simp only [calling, registered, Option.map_some]
      obtain ⟨reached, reaches, last⟩ : ∃ reached,
          app.reached session (.execute name args kwargs) = some reached ∧
            reached.last = (handled id (app.tool handler args kwargs) session).1 := by
        simp only [Application.reached, registered, Option.map_some]
        exact ⟨_, rfl, rfl⟩
      exact reached_grown found reaches last (Grown.refl session) Grown.refl inside
  | none =>
      have unknown : app.execute name args kwargs session =
          .error (.keyError ("unknown tool: " ++ name)) session := by
        unfold execute
        rw [bind_of_ok (rfl : (get : SdkProgram η ω ε _) session = .ok session session)]
        simp only [registered]
        rfl
      exact Grown.of_eq (congrArg (fun s => s.eis.audit) (final_of_error unknown))

theorem orchestrate_grown {workflow : String} {task : Task} {runner : Runner η ω ε}
    (inside : ∀ start last,
      Span app session (.orchestrate workflow task runner) start last → Grown start last) :
    Grown session (app.after session (.orchestrate workflow task runner)) := by
  by_cases blank : Text.strip workflow = ""
  · show Grown session ((app.orchestrate workflow task runner).final session)
    unfold orchestrate
    rw [if_pos blank]
    exact Grown.refl session
  · refine reached_grown (if_neg blank) (if_neg blank) rfl (Grown.refl session) Grown.refl inside

theorem after_grown (session : Session η ω) (operation : Operation η ω ε)
    (inside : ∀ start last, Span app session operation start last → Grown start last) :
    Grown session (app.after session operation) := by
  cases operation with
  | registerProduct product => exact List.prefix_append _ _
  | registerProductNamed id name purpose =>
      cases purpose with
      | none => exact Grown.refl session
      | some purpose => exact List.prefix_append _ _
  | addKnowledge item => exact List.prefix_append _ _
  | addKnowledgeContent id content source title =>
      cases source with
      | none => exact Grown.refl session
      | some source => exact List.prefix_append _ _
  | remember id content metadata => exact checked_grown (List.prefix_append _ _)
  | createTask id objective input => exact checked_grown (List.prefix_append _ _)
  | registerAgent name handler => exact checked_grown (List.prefix_append _ _)
  | registerTool name handler => exact checked_grown (List.prefix_append _ _)
  | evaluateIdea subject evaluator => exact evaluateIdea_grown inside
  | runAgent name task => exact runAgent_grown inside
  | execute name args kwargs => exact execute_grown inside
  | executeEngineering task engineer =>
      exact reached_grown rfl rfl rfl (List.prefix_append _ _) Grown.refl inside
  | orchestrate workflow task runner => exact orchestrate_grown inside

theorem Acts.of_uncalled {operation : Operation η ω ε}
    (uncalled : app.calling session operation = none) :
    app.Acts session (app.after session operation) := by
  refine .operate session operation fun start last span => ?_
  cases span with
  | called found => exact absurd (uncalled.symm.trans found) (by simp)
  | awaited found _ => exact absurd (uncalled.symm.trans found) (by simp)

theorem Acts.grown {s t : Session η ω} (acts : app.Acts s t) : Grown s t := by
  induction acts with
  | refl session => exact Grown.refl session
  | elsewhere session world => exact Grown.of_eq rfl
  | operate session operation _ ih => exact after_grown session operation ih
  | trans _ _ first second => exact first.trans second

end Application

/-! ## Windows -/

/-- The history has grown at its end only, and its window is its last `n` entries. -/
structure Windowed (before after : Session η ω) (n : ℕ) : Prop where
  grown : Grown before after
  window : after.eis.auditHistory (some n) = (after.eis.auditHistory none).rtake n

theorem auditHistory_window_iff (eis : EIS η) (n : ℕ) :
    eis.auditHistory (some n) = (eis.auditHistory none).rtake n ↔
      1 ≤ n ∨ eis.auditHistory none = [] := by
  show sliceFrom eis.audit (-(n : ℤ)) = eis.audit.rtake n ↔ 1 ≤ n ∨ eis.audit = []
  cases n with
  | zero => simp [sliceFrom]
  | succ n =>
      refine iff_of_true ?_ (.inl (Nat.le_add_left 1 n))
      unfold sliceFrom List.rtake
      rw [if_pos (by omega)]
      congr 2

/-- For every run of operations and every limit that is not negative: the history is grown
and the window right exactly when the limit is not zero or the history is empty. -/
theorem audit_windows_iff {app : Application η ω ε} {s t : Session η ω} (acts : app.Acts s t)
    (n : ℕ) : Windowed s t n ↔ 1 ≤ n ∨ t.eis.auditHistory none = [] := by
  constructor
  · exact fun windowed => (auditHistory_window_iff t.eis n).mp windowed.window
  · exact fun holds => ⟨acts.grown, (auditHistory_window_iff t.eis n).mpr holds⟩

/-! ### The newest zero entries -/

def reviewerSession : Session Unit Unit :=
  (raisingApp "KeyError").after writerSession (.registerAgent "reviewer" ())

theorem reviewerSession_acts : (raisingApp "KeyError").Acts writerSession reviewerSession :=
  .of_uncalled rfl

theorem audit_windows_iff_reviewer :
    Windowed writerSession reviewerSession 0 ↔
      1 ≤ 0 ∨ reviewerSession.eis.auditHistory none = [] :=
  audit_windows_iff reviewerSession_acts 0

/-- The window of no entries is the whole history. -/
theorem whole_history_for_limit_zero :
    (raisingApp "KeyError").Acts writerSession reviewerSession ∧
      (reviewerSession.eis.auditHistory (some 0)).map AuditEntry.action = ["agent.register"] ∧
      ¬ Windowed writerSession reviewerSession 0 := by
  refine ⟨reviewerSession_acts, rfl, fun windowed => ?_⟩
  have emptied := (auditHistory_window_iff reviewerSession.eis 0).mp windowed.window
  have recorded : reviewerSession.eis.auditHistory none ≠ [] := List.cons_ne_nil _ _
  exact recorded (emptied.resolve_left (by decide))

end Eis.Sdk
