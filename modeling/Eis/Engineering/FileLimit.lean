import Mathlib.Data.Finset.Card
import Mathlib.Data.Finset.Dedup
import Eis.Engineering.Bounds

/-!
# What the changed-file limit counts

The tracker of an agent lives on from run to run and is fed by
`engineering.implement` alone.  So the limit speaks of the files of all runs so far, and
not of those that `engineering.correct` reports.
-/

set_option autoImplicit false

namespace Eis.Engineering

open Eis.Tools (ToolResult)
open Program Transition

def fileLimitReached : String := "maximum changed-file limit reached"

/-! ## The tracker as a set of paths -/

structure Tracks (items : List FileChange) (paths : Finset String) : Prop where
  nodup : (items.map FileChange.path).Nodup
  paths : (items.map FileChange.path).toFinset = paths

namespace Tracks

variable {items : List FileChange} {paths : Finset String}

theorem length (tracks : Tracks items paths) : items.length = paths.card := by
  rw [← tracks.paths, List.toFinset_card_of_nodup tracks.nodup, List.length_map]

theorem recordItem (tracks : Tracks items paths) (change : FileChange) :
    Tracks (EngineeringAgent.recordItem items change) (insert change.path paths) := by
  unfold EngineeringAgent.recordItem
  split
  · rename_i known
    have held : change.path ∈ paths := by
      rw [← tracks.paths]
      exact List.mem_toFinset.mpr known
    rwa [Finset.insert_eq_of_mem held]
  · rename_i unknown
    refine { nodup := ?nodup, paths := ?paths }
    case nodup =>
      rw [List.map_append]
      exact List.Nodup.append tracks.nodup (List.nodup_singleton _) (by simpa using unknown)
    case paths =>
      rw [List.map_append, List.toFinset_append, tracks.paths, Finset.union_comm]
      rfl

theorem recordAll (tracks : Tracks items paths) (changes : List FileChange) :
    Tracks (changes.foldl EngineeringAgent.recordItem items)
      (paths ∪ (changes.map FileChange.path).toFinset) := by
  induction changes generalizing items paths with
  | nil => simpa using tracks
  | cons change rest ih =>
      have onwards := ih (tracks.recordItem change)
      rwa [Finset.insert_union, ← Finset.union_insert, ← List.toFinset_cons] at onwards

end Tracks

namespace EngineeringAgent

variable {κ σ ε : Type} (agent : EngineeringAgent κ σ ε)

/-! ## What the tools report -/

/-- The changes that a result reports; there are none when they cannot be iterated over. -/
def reported (result : ToolResult) : List FileChange :=
  match agent.items (rawChanges result.output) with
  | .ok items => items.filterMap agent.changeOf
  | .error _ => []

def reportedPaths (names : List String) (trace : List EngineeringEvent) : Finset String :=
  ((toolCalls trace).flatMap fun call =>
    if call.1 ∈ names then (agent.reported call.2).map FileChange.path else []).toFinset

abbrev implementedPaths (trace : List EngineeringEvent) : Finset String :=
  agent.reportedPaths ["engineering.implement"] trace

abbrev changedPaths (trace : List EngineeringEvent) : Finset String :=
  agent.reportedPaths ["engineering.implement", "engineering.correct"] trace

theorem reportedPaths_append (names : List String) (first second : List EngineeringEvent) :
    agent.reportedPaths names (first ++ second) =
      agent.reportedPaths names first ∪ agent.reportedPaths names second := by
  simp only [reportedPaths, toolCalls_append, List.flatMap_append, List.toFinset_append]

theorem implementedPaths_append (first second : List EngineeringEvent) :
    agent.implementedPaths (first ++ second) =
      agent.implementedPaths first ∪ agent.implementedPaths second :=
  agent.reportedPaths_append _ first second

theorem implementedPaths_other {event : EngineeringEvent} (other : event.isImplement = false) :
    agent.implementedPaths [event] = ∅ := by
  cases event with
  | tool request result =>
      have differs : request.tool ≠ "engineering.implement" := of_decide_eq_false other
      simp [reportedPaths, toolCalls, EngineeringEvent.tool?, differs]
  | _ => rfl

theorem implementedPaths_implement (arguments : List (String × Argument)) (result : ToolResult) :
    agent.implementedPaths [.tool ⟨"engineering.implement", arguments⟩ result] =
      ((agent.reported result).map FileChange.path).toFinset := by
  simp [reportedPaths, toolCalls, EngineeringEvent.tool?]

/-! ## One run -/

/-- The limit is the agent's own: nobody else raises its escalation. -/
structure OwnLimit : Prop where
  raises : ∀ exception, agent.Raises exception → exception ≠ .escalation fileLimitReached
  iterated : ∀ value, agent.items value ≠ .error (.escalation fileLimitReached)

/-- The tracker holds the paths of the earlier runs and of this one's implementations. -/
def Tracked (earlier : Finset String) (s : EngineeringState σ) : Prop :=
  Tracks s.items (earlier ∪ agent.implementedPaths s.trace)

def Implementing (trace : List EngineeringEvent) : Prop :=
  ∃ calls result items, toolCalls trace = calls ++ [("engineering.implement", result)] ∧
    agent.items (rawChanges result.output) = .ok items

def Exceeding (s : EngineeringState σ) : Prop :=
  agent.Implementing s.trace ∧ agent.limits.maxFilesChanged < s.items.length

structure Fits (earlier : Finset String) (s : EngineeringState σ) : Prop where
  tracked : agent.Tracked earlier s
  fits : s.items.length ≤ agent.limits.maxFilesChanged

structure Heading (earlier : Finset String) (s : EngineeringState σ) : Prop where
  tracked : agent.Tracked earlier s
  fits : toolCalls s.trace = [] ∨ s.items.length ≤ agent.limits.maxFilesChanged

/-- How a part of a run may raise: with the escalation of the limit exactly where the
limit is exceeded. -/
structure Stopped (earlier : Finset String) (exception : EngineeringException ε)
    (s : EngineeringState σ) : Prop where
  tracked : agent.Tracked earlier s
  exceeded : exception = .escalation fileLimitReached ↔ agent.Exceeding s

section OneRun
variable {agent} {earlier : Finset String} {s : EngineeringState σ}

theorem Heading.not_exceeding (heading : agent.Heading earlier s) : ¬ agent.Exceeding s := by
  rintro ⟨⟨calls, result, items, last, _⟩, exceeds⟩
  rcases heading.fits with none | fits
  · simp [none] at last
  · omega

theorem Fits.heading (fits : agent.Fits earlier s) : agent.Heading earlier s :=
  ⟨fits.tracked, Or.inr fits.fits⟩

theorem Heading.stopped (heading : agent.Heading earlier s) {exception : EngineeringException ε}
    (other : exception ≠ .escalation fileLimitReached) : agent.Stopped earlier exception s :=
  ⟨heading.tracked, iff_of_false other heading.not_exceeding⟩

theorem escalation_ne {message : String} (other : message ≠ fileLimitReached) :
    (.escalation message : EngineeringException ε) ≠ .escalation fileLimitReached := by
  intro same
  cases same
  exact other rfl

theorem Tracked.other (tracked : agent.Tracked earlier s) {event : EngineeringEvent}
    (other : event.isImplement = false) :
    agent.Tracked earlier { s with trace := s.trace ++ [event] } := by
  have same : agent.implementedPaths (s.trace ++ [event]) = agent.implementedPaths s.trace := by
    rw [implementedPaths_append, agent.implementedPaths_other other, Finset.union_empty]
  show Tracks s.items (earlier ∪ agent.implementedPaths (s.trace ++ [event]))
  rwa [same]

theorem Fits.standing (own : agent.OwnLimit) :
    agent.Standing (agent.Fits earlier) fun exception =>
      exception ≠ .escalation fileLimitReached where
  ignores := fun _ _ _ _ _ fits => { fits with }
  called := fun _ _ _ other fits _ => ⟨fits.tracked.other other, fits.fits⟩
  unanswered := fun _ _ _ fits => { fits with }
  raises := own.raises
  escalates := fun _ other => escalation_ne other

theorem opening_tracked (own : agent.OwnLimit) :
    agent.Opening (fun s => agent.Tracked earlier s ∧ toolCalls s.trace = []) fun exception =>
      exception ≠ .escalation fileLimitReached where
  ignores := fun _ _ _ _ opening => opening
  noted := by
    intro s event quiet ⟨tracked, uncalled⟩
    refine ⟨tracked.other (isImplement_of_quiet quiet), ?_⟩
    rw [toolCalls_append, uncalled]
    cases event with
    | tool request result => cases quiet
    | _ => rfl
  raises := own.raises
  escalates := fun _ other => escalation_ne other

theorem recordItems_ends (default : agent.changeTracker = none) (values : List Value)
    (s : EngineeringState σ) :
    (agent.recordItems values).Ends s
      (fun _ t => t =
        { s with items := (values.filterMap agent.changeOf).foldl recordItem s.items })
      fun _ _ => False := by
  induction values generalizing s with
  | nil => rfl
  | cons value rest ih =>
      unfold recordItems
      cases change : agent.changeOf value with
      | none =>
          rw [List.filterMap_cons_none change]
          exact ih s
      | some change' =>
          have recorded : agent.record change' =
              modify fun state => { state with items := recordItem state.items change' } := by
            unfold record
            rw [default]
          simp only [recorded, ends_bind, ends_modify]
          refine (ih _).mono ?_ fun _ _ never => never
          intro changes t grown
          rw [List.filterMap_cons_some change, List.foldl_cons]
          exact grown

theorem recordChanges_ends (default : agent.changeTracker = none) {result : ToolResult}
    {arguments : List (String × Argument)} {trace : List EngineeringEvent}
    (called : s.trace = trace ++ [.tool ⟨"engineering.implement", arguments⟩ result])
    (tracked : agent.Tracked earlier { s with trace := trace }) :
    (agent.recordChanges result).Ends s
      (fun _ t => t.trace = s.trace ∧ agent.Implementing t.trace ∧ agent.Tracked earlier t)
      fun exception t => t = s ∧ agent.Tracked earlier t ∧ ¬ agent.Implementing t.trace ∧
        agent.items (rawChanges result.output) = .error exception := by
  have last : toolCalls s.trace = toolCalls trace ++ [("engineering.implement", result)] := by
    rw [called, toolCalls_append]
    rfl
  have paths : agent.implementedPaths s.trace = agent.implementedPaths trace ∪
      ((agent.reported result).map FileChange.path).toFinset := by
    rw [called, implementedPaths_append, implementedPaths_implement]
  unfold recordChanges
  cases iterated : agent.items (rawChanges result.output) with
  | error exception =>
      have nothing : agent.reported result = [] := by
        unfold reported
        rw [iterated]
      refine ⟨rfl, ?_, ?_, rfl⟩
      · unfold Tracked
        rw [paths, nothing, List.map_nil, List.toFinset_nil, Finset.union_empty]
        exact tracked
      · rintro ⟨calls, other, items, ending, readable⟩
        obtain ⟨_, same⟩ := List.append_inj' (last.symm.trans ending) rfl
        cases same
        rw [iterated] at readable
        cases readable
  | ok values =>
      have changes : agent.reported result = values.filterMap agent.changeOf := by
        unfold reported
        rw [iterated]
      refine (recordItems_ends default values s).mono ?_ fun _ _ never => never.elim
      rintro _ t rfl
      refine ⟨rfl, ⟨_, result, values, last, iterated⟩, ?_⟩
      unfold Tracked
      rw [paths, changes, ← Finset.union_assoc]
      exact Tracks.recordAll tracked _

theorem implementPhase_fits (default : agent.changeTracker = none) (own : agent.OwnLimit)
    (task : EngineeringTask) (plan : EngineeringPlan) (heading : agent.Heading earlier s) :
    (agent.implementPhase task plan).Ends s (fun _ t => agent.Fits earlier t)
      (agent.Stopped earlier) := by
  have other : ∀ message ∈ stops, (.escalation message : EngineeringException ε) ≠
      .escalation fileLimitReached := by
    intro message listed
    refine escalation_ne ?_
    rintro rfl
    exact absurd listed (by decide)
  unfold implementPhase
  rw [ends_bind, ends_modify, ends_bind]
  refine agent.guard_ends ?_ fun message listed world => ?_
  · intro _ world
    rw [ends_bind]
    refine agent.callTool_ends ?_ (fun message listed world => ?_) fun exception world raises => ?_
    · intro _ implementation world
      rw [ends_bind]
      refine Ends.mono (recordChanges_ends default rfl heading.tracked) ?_ ?_
      · intro changes t ⟨_, implementing, tracked⟩
        unfold append enforceFileLimit EngineeringAgent.changes
        simp only [ends_bind, ends_modify, default]
        rw [ends_get, ends_pure]
        split
        · rename_i exceeds
          exact ⟨tracked, iff_of_true rfl ⟨implementing, exceeds⟩⟩
        · rename_i within
          exact ⟨tracked, not_lt.mp within⟩
      · rintro exception t ⟨_, tracked, unreadable, iterated⟩
        refine ⟨tracked, iff_of_false ?_ fun exceeding => unreadable exceeding.1⟩
        rintro rfl
        exact own.iterated _ iterated
    · refine Heading.stopped ?_ (other message listed)
      exact ⟨heading.tracked, heading.fits⟩
    · refine Heading.stopped ?_ (own.raises exception raises)
      exact ⟨heading.tracked, heading.fits⟩
  · refine Heading.stopped ?_ (other message listed)
    exact ⟨heading.tracked, heading.fits⟩

/-- A report is `completed` only behind the check, and it names the limit exactly where
the limit is exceeded. -/
structure Checked (agent : EngineeringAgent κ σ ε) (earlier : Finset String)
    (report : EngineeringReport) (s : EngineeringState σ) : Prop where
  tracked : agent.Tracked earlier s
  completed : report.status = "completed" → s.items.length ≤ agent.limits.maxFilesChanged
  exceeded : report.escalationReason = some fileLimitReached ↔ agent.Exceeding s

theorem iterations_checked (default : agent.changeTracker = none) (own : agent.OwnLimit)
    (task : EngineeringTask) (plan : EngineeringPlan) (remaining : ℕ)
    (heading : agent.Heading earlier s) :
    (agent.iterations task plan remaining).Ends s (agent.Checked earlier)
      (agent.Stopped earlier) := by
  induction remaining generalizing s with
  | zero => exact heading.stopped (escalation_ne (by decide))
  | succ remaining ih =>
      rw [iterations_succ, ends_bind]
      refine (implementPhase_fits default own task plan heading).mono ?_ fun _ _ stopped => stopped
      intro changes t fits
      refine agent.testPhases_ends (Fits.standing own)
        (fun _ _ other fits => fits.heading.stopped other) (fun u fits => ih fits.heading) ?_ fits
      intro u fits
      exact ⟨fits.tracked, fun _ => fits.fits, iff_of_false nofun fits.heading.not_exceeding⟩

theorem run_checked (default : agent.changeTracker = none) (own : agent.OwnLimit)
    (task : EngineeringTask) (start : EngineeringState σ) (tracks : Tracks start.items earlier) :
    (agent.run task).Ends start (agent.Checked earlier)
      fun _ after => agent.Tracked earlier after ∧ ¬ agent.Exceeding after := by
  unfold run
  simp only [ends_bind, ends_modify, ends_tryCatch]
  refine await_ends ?_ fun _ _ never => nomatch never
  intro started world
  have fresh : agent.Tracked earlier
      { world := world, items := start.items, started := started, trace := [] ++ [] } := by
    unfold Tracked
    rwa [show agent.implementedPaths ([] ++ []) = ∅ from rfl, Finset.union_empty]
  have attempted : (agent.attempt task).Ends
      { world := world, items := start.items, started := started, trace := [] ++ [] }
      (agent.Checked earlier) (agent.Stopped earlier) := by
    refine agent.attempt_ends (opening_tracked own) ?_ ?_ ⟨fresh, rfl⟩
    · intro exception s other ⟨tracked, uncalled⟩
      exact Heading.stopped ⟨tracked, Or.inl uncalled⟩ other
    · intro plan s ⟨tracked, uncalled⟩ _
      exact iterations_checked default own task plan _ ⟨tracked, Or.inl uncalled⟩
  refine attempted.mono (fun _ _ checked => checked) ?_
  intro exception after stopped
  cases exception with
  | raised error =>
      exact ⟨stopped.tracked, fun exceeding => nomatch stopped.exceeded.mpr exceeding⟩
  | escalation message =>
      have named : some message = some fileLimitReached ↔ agent.Exceeding after := by
        rw [← stopped.exceeded]
        simp
      have unfinished : "escalated" ≠ "completed" := by decide
      exact ⟨stopped.tracked, fun completed => absurd completed unfinished, named⟩

end OneRun

/-! ## Runs of one agent -/

structure Outcome where
  report : Option EngineeringReport
  trace : List EngineeringEvent

def runStep (before : EngineeringState σ) (outcome : Outcome) (after : EngineeringState σ) :
    Prop :=
  ∃ task world, match agent.run task { before with world := world } with
    | .ok report ended => outcome = ⟨some report, ended.trace⟩ ∧ after = ended
    | .error _ ended => outcome = ⟨none, ended.trace⟩ ∧ after = ended

/-- The report goes by the files that the run itself has changed. -/
structure PerRun (outcome : Outcome) : Prop where
  limited : ∀ report, outcome.report = some report →
    report.escalationReason = some fileLimitReached →
      agent.limits.maxFilesChanged < (agent.changedPaths outcome.trace).card
  completed : ∀ report, outcome.report = some report → report.status = "completed" →
    (agent.changedPaths outcome.trace).card ≤ agent.limits.maxFilesChanged

def trackedPaths (past : List Outcome) (outcome : Outcome) : Finset String :=
  agent.implementedPaths (past.flatMap Outcome.trace ++ outcome.trace)

/-- Where the limit decides, the paths of the tracker and those of the run itself are on
the same side of it. -/
structure SameSide (past : List Outcome) (outcome : Outcome) : Prop where
  stopped : agent.Implementing outcome.trace →
    agent.limits.maxFilesChanged < (agent.trackedPaths past outcome).card →
      agent.limits.maxFilesChanged < (agent.changedPaths outcome.trace).card
  passed : ∀ earlier implementation later,
    toolCalls outcome.trace = earlier ++ ("engineering.implement", implementation) :: later →
      TestsPass later →
        agent.limits.maxFilesChanged < (agent.changedPaths outcome.trace).card →
          agent.limits.maxFilesChanged < (agent.trackedPaths past outcome).card

section Runs
variable {agent} {earlier : Finset String} {past : List Outcome}

theorem Tracked.length {s : EngineeringState σ} (tracked : agent.Tracked earlier s)
    (known : earlier = agent.implementedPaths (past.flatMap Outcome.trace))
    (report : Option EngineeringReport) :
    s.items.length = (agent.trackedPaths past ⟨report, s.trace⟩).card := by
  rw [Tracks.length tracked, known, ← implementedPaths_append]
  rfl

theorem Checked.perRun_iff {report : EngineeringReport} {s : EngineeringState σ}
    (checked : agent.Checked earlier report s) (reports : Reports report s.trace)
    (known : earlier = agent.implementedPaths (past.flatMap Outcome.trace)) :
    agent.PerRun ⟨some report, s.trace⟩ ↔ agent.SameSide past ⟨some report, s.trace⟩ := by
  have counted := checked.tracked.length known (some report)
  constructor
  · intro perRun
    refine { stopped := fun implementing exceeds => ?stopped, passed := ?passed }
    case stopped =>
      refine perRun.limited report rfl (checked.exceeded.mpr ⟨implementing, ?_⟩)
      rwa [counted]
    case passed =>
      intro calls implementation later split passed own
      by_cases completed : report.status = "completed"
      · exact absurd own (not_lt.mpr (perRun.completed report rfl completed))
      · exact ((reports.escalated completed).of_split split passed).elim
  · intro sameSide
    refine { limited := ?limited, completed := ?completed }
    case limited =>
      intro _ returned limited
      obtain rfl := Option.some.inj returned
      obtain ⟨implementing, exceeds⟩ := checked.exceeded.mp limited
      exact sameSide.stopped implementing (counted ▸ exceeds)
    case completed =>
      intro _ returned completed
      obtain rfl := Option.some.inj returned
      obtain ⟨calls, implementation, targeted, broader, split, passed, passedToo⟩ :=
        (reports.completed completed).1.ending
      by_contra own
      have tracked := sameSide.passed calls implementation _ split ⟨⟨rfl, passed⟩, rfl, passedToo⟩
        (not_le.mp own)
      rw [← counted] at tracked
      exact absurd (checked.completed completed) (not_le.mpr tracked)

theorem sameSide_of_raised {s : EngineeringState σ} (tracked : agent.Tracked earlier s)
    (within : ¬ agent.Exceeding s) (unpassed : Unpassed (toolCalls s.trace))
    (known : earlier = agent.implementedPaths (past.flatMap Outcome.trace)) :
    agent.SameSide past ⟨none, s.trace⟩ where
  stopped := by
    intro implementing exceeds
    rw [← tracked.length known none] at exceeds
    exact absurd ⟨implementing, exceeds⟩ within
  passed := by
    intro calls implementation later split passed
    exact (unpassed.of_split split passed).elim

theorem runStep_perRun (default : agent.changeTracker = none) (own : agent.OwnLimit)
    {before after : EngineeringState σ} {outcome : Outcome}
    (tracks : Tracks before.items (agent.implementedPaths (past.flatMap Outcome.trace)))
    (ran : agent.runStep before outcome after) :
    Tracks after.items (agent.implementedPaths ((past ++ [outcome]).flatMap Outcome.trace)) ∧
      (agent.PerRun outcome ↔ agent.SameSide past outcome) := by
  have joined : ∀ report (s : EngineeringState σ),
      (past ++ [(⟨report, s.trace⟩ : Outcome)]).flatMap Outcome.trace =
        past.flatMap Outcome.trace ++ s.trace := by
    simp
  obtain ⟨task, world, ended⟩ := ran
  have checked := run_checked default own task { before with world := world } tracks
  have reports := agent.run_reports task { before with world := world }
  unfold Ends at checked reports
  split at ended
  · rename_i report s returned
    obtain ⟨rfl, rfl⟩ := ended
    rw [returned] at checked reports
    refine ⟨?_, checked.perRun_iff reports rfl⟩
    rw [joined, implementedPaths_append]
    exact checked.tracked
  · rename_i exception s raised
    obtain ⟨rfl, rfl⟩ := ended
    rw [raised] at checked reports
    obtain ⟨tracked, within⟩ := checked
    refine ⟨?_, iff_of_true ⟨nofun, nofun⟩ (sameSide_of_raised tracked within reports rfl)⟩
    rw [joined, implementedPaths_append]
    exact tracked

end Runs

/-- Over all runs of an agent with its own tracker: the limit speaks of the files of
each run exactly when in each run the tracker and the run itself are on the same side. -/
theorem file_limit_per_run_iff (default : agent.changeTracker = none) (own : agent.OwnLimit)
    {world : σ} {outcomes : List Outcome} {final : EngineeringState σ}
    (runs : Run agent.runStep { world := world } outcomes final) :
    (∀ outcome ∈ outcomes, agent.PerRun outcome) ↔
      Preceded (fun outcome past => agent.SameSide past outcome) outcomes := by
  have each : Tracks final.items (agent.implementedPaths (outcomes.flatMap Outcome.trace)) ∧
      Preceded (fun outcome past => agent.PerRun outcome ↔ agent.SameSide past outcome)
        outcomes := by
    refine runs.trace_invariant
      (motive := fun outcomes (s : EngineeringState σ) =>
        Tracks s.items (agent.implementedPaths (outcomes.flatMap Outcome.trace)) ∧
          Preceded (fun outcome past => agent.PerRun outcome ↔ agent.SameSide past outcome)
            outcomes) ?_ ?_
    · exact ⟨⟨List.nodup_nil, rfl⟩, Preceded.nil⟩
    · intro past before outcome after ⟨tracks, each⟩ ran
      obtain ⟨tracks', agree⟩ := runStep_perRun default own tracks ran
      exact ⟨tracks', each.snoc agree⟩
  rw [← Preceded.forall_mem_iff]
  exact each.2.congr

end EngineeringAgent

/-! ### A second run that pays for the first -/

open EngineeringAgent

def modulePath : ℕ → String
  | 0 => "parser.py"
  | _ => "printer.py"

def moduleAgent : EngineeringAgent Unit ℕ Unit where
  retriever := fun _ world => (world, .ok ())
  inspector := fun repository world => (world, .ok { repository := repository })
  planner := fun task _ _ world =>
    (world, .ok
      { objective := task.objective
        rationale := "one module a run"
        affectedComponents := []
        reuseCandidates := []
        steps := ["add the module"]
        validation := ["targeted tests"] })
  validator := fun _ _ _ world => (world, .ok (true, "accepted"))
  tools := fun request world =>
    if request.tool = "engineering.implement" then
      (world + 1, .ok
        { status := .success
          output := .dict [("changes", .list [.dict [("path", .str (modulePath world))]])] })
    else (world, .ok { status := .success })
  limits := { (fixtureAgent .success).limits with maxFilesChanged := ⟨1, Nat.one_pos⟩ }
  monotonic := fun world => (world, 0)
  text := fun _ => ""
  repr := fun text => "'" ++ text ++ "'"
  fileChange? := fun _ => none
  iterate := fun _ => .ok []

theorem moduleAgent_own : moduleAgent.OwnLimit where
  raises := by
    intro exception raises
    cases raises with
    | retriever answer => exact nomatch answer
    | inspector answer => exact nomatch answer
    | planner answer => exact nomatch answer
    | validator answer => exact nomatch answer
    | @tool request world _ _ answer =>
        by_cases implement : request.tool = "engineering.implement"
        · simp [moduleAgent, implement] at answer
        · simp [moduleAgent, implement] at answer
    | analyzer given _ => exact nomatch given
    | record given _ => exact nomatch given
    | changes given _ => exact nomatch given
  iterated := by
    intro value
    cases value <;> exact nofun

def secondStopped : Bool :=
  match moduleAgent.run featureTask { world := 0 } with
  | .error _ _ => false
  | .ok first middle =>
      match moduleAgent.run featureTask { middle with world := middle.world } with
      | .error _ _ => false
      | .ok second final =>
          decide (first.status = "completed" ∧
            second.escalationReason = some fileLimitReached ∧
            (moduleAgent.changedPaths final.trace).card = 1)

theorem second_stopped :
    ∃ first second final, Run moduleAgent.runStep { world := 0 } [first, second] final ∧
      ∃ report, second.report = some report ∧
        report.escalationReason = some fileLimitReached ∧
        (moduleAgent.changedPaths second.trace).card = 1 := by
  have evaluated : secondStopped = true := by decide +kernel
  unfold secondStopped at evaluated
  split at evaluated
  · cases evaluated
  · rename_i first middle returned
    split at evaluated
    · cases evaluated
    · rename_i second final returned'
      obtain ⟨_, stopped, one⟩ := of_decide_eq_true evaluated
      refine ⟨⟨some first, middle.trace⟩, ⟨some second, final.trace⟩, final, ?_, second, rfl,
        stopped, one⟩
      have start : moduleAgent.runStep { world := 0 } ⟨some first, middle.trace⟩ middle := by
        refine ⟨featureTask, 0, ?_⟩
        rw [returned]
        exact ⟨rfl, rfl⟩
      refine (Run.single start).snoc ⟨featureTask, middle.world, ?_⟩
      rw [returned']
      exact ⟨rfl, rfl⟩

theorem file_limit_per_run_iff_modules :
    ∃ first second final, Run moduleAgent.runStep { world := 0 } [first, second] final ∧
      ((∀ outcome ∈ [first, second], moduleAgent.PerRun outcome) ↔
        Preceded (fun outcome past => moduleAgent.SameSide past outcome) [first, second]) := by
  obtain ⟨first, second, final, runs, _⟩ := second_stopped
  exact ⟨first, second, final, runs,
    moduleAgent.file_limit_per_run_iff rfl moduleAgent_own runs⟩

/-- One file is not more than the limit of one, and the second run ends with it. -/
theorem limit_counts_earlier_run :
    ∃ first second final, Run moduleAgent.runStep { world := 0 } [first, second] final ∧
      (∃ report, second.report = some report ∧
        report.escalationReason = some fileLimitReached ∧
        (moduleAgent.changedPaths second.trace).card ≤ moduleAgent.limits.maxFilesChanged) ∧
      ¬ ∀ outcome ∈ [first, second], moduleAgent.PerRun outcome := by
  obtain ⟨first, second, final, runs, report, returned, stopped, one⟩ := second_stopped
  refine ⟨first, second, final, runs, ⟨report, returned, stopped, one.le⟩, ?_⟩
  intro each
  have perRun := each second (by simp)
  have exceeds := perRun.limited report returned stopped
  rw [one] at exceeds
  exact absurd exceeds (by decide)

end Eis.Engineering
