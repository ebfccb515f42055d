import Mathlib.Data.List.Nodup
import Eis.Specialized.Runtime

/-!
# What a coordination keeps

Outputs are retained by kind: each kind keeps the output of its last assignment,
and every assignment's agent is asked about each retained output of another kind.
-/

set_option autoImplicit false

namespace Eis.Specialized

variable {σ ε ω : Type}

def Asking.question (asking : Asking ω) : AgentKind × AgentKind × ω :=
  (asking.challenger, asking.target, asking.output)

def questions (results : List (AgentKind × ω)) (challenger : AgentKind) :
    List (AgentKind × AgentKind × ω) :=
  (results.filter fun result => decide (result.1 ≠ challenger)).map fun result =>
    (challenger, result.1, result.2)

def retained (ran : List (AgentAssignment × ω)) : OrderedDict AgentKind ω :=
  OrderedDict.collect (fun entry => entry.1.agent) Prod.snd ran

theorem retained_snoc (ran : List (AgentAssignment × ω)) (assignment : AgentAssignment)
    (output : ω) : retained (ran ++ [(assignment, output)]) =
      (retained ran).setItem assignment.agent output :=
  OrderedDict.collect_append_singleton _ _ ran (assignment, output)

theorem get?_retained (ran : List (AgentAssignment × ω)) (kind : AgentKind) :
    (retained ran).get? kind =
      (ran.reverse.find? fun entry => decide (entry.1.agent = kind)).map Prod.snd :=
  OrderedDict.get?_collect _ _ ran kind

/-- With one assignment for each kind every output stays. -/
theorem get?_retained_of_nodup {ran : List (AgentAssignment × ω)}
    (distinct : (ran.map fun entry => entry.1.agent).Nodup)
    {entry : AgentAssignment × ω} (member : entry ∈ ran) :
    (retained ran).get? entry.1.agent = some entry.2 := by
  have found : (ran.reverse.find? fun other => decide (other.1.agent = entry.1.agent)) =
      some entry := by
    cases search : ran.reverse.find? fun other => decide (other.1.agent = entry.1.agent) with
    | none =>
        have absent := List.find?_eq_none.mp search entry (List.mem_reverse.mpr member)
        simp at absent
    | some other =>
        have same : other.1.agent = entry.1.agent := by simpa using List.find?_some search
        have present : other ∈ ran := List.mem_reverse.mp (List.mem_of_find?_eq_some search)
        rw [List.inj_on_of_nodup_map distinct present member same]
  rw [get?_retained, found]
  rfl

namespace AgentOrchestrator

theorem ends_await {α : Type} (call : Call σ ε α) (record : α → Progress σ ω → Progress σ ω)
    (progress : Progress σ ω) :
    (await call record).Ends progress
      (fun value after => ∃ world, after = record value { progress with world := world })
      fun _ _ => True := by
  unfold Program.Ends await
  cases called : call progress.world with
  | mk world outcome =>
      cases outcome with
      | error exception => trivial
      | ok value => exact ⟨world, rfl⟩

/-- The assignments behind have run, and nobody has been asked. -/
structure Worked (behind : List AgentAssignment) (results : OrderedDict AgentKind ω)
    (progress : Progress σ ω) : Prop where
  ran : progress.ran.map Prod.fst = behind
  unasked : progress.asked = []
  results : results = retained progress.ran

theorem work_ends (orchestrator : AgentOrchestrator σ ε ω) {behind : List AgentAssignment}
    {results : OrderedDict AgentKind ω} {progress : Progress σ ω}
    (worked : Worked behind results progress) (assignment : AgentAssignment) :
    (orchestrator.work results assignment).Ends progress (Worked (behind ++ [assignment]))
      fun _ _ => True := by
  obtain ⟨ran, unasked, kept⟩ := worked
  unfold work
  rw [Program.ends_bind]
  refine (ends_await _ _ _).mono ?_ (fun _ _ _ => trivial)
  intro agent created ⟨world, same⟩
  subst same
  rw [Program.ends_bind]
  refine (ends_await _ _ _).mono ?_ (fun _ _ _ => trivial)
  intro output after ⟨world', same⟩
  subst same
  rw [Program.ends_pure]
  refine { ran := ?ran, unasked := unasked, results := ?results }
  case ran =>
    rw [List.map_append, ran]
    rfl
  case results =>
    rw [kept]
    exact (retained_snoc _ _ _).symm

/-- Since the outputs are in, these questions have been asked and nothing has run. -/
structure Reviewed (ran : List (AgentAssignment × ω))
    (asked : List (AgentKind × AgentKind × ω)) (challenges : List AgentChallenge)
    (progress : Progress σ ω) : Prop where
  ran : progress.ran = ran
  asked : progress.asked.map Asking.question = asked
  challenges : challenges = progress.asked.filterMap Asking.challenge

section Review
variable {ran : List (AgentAssignment × ω)} {asked : List (AgentKind × AgentKind × ω)}
variable {challenges : List AgentChallenge} {progress : Progress σ ω}

theorem confront_ends (agent : SpecializedAgent σ ε ω) (challenger : AgentKind)
    (reviewed : Reviewed ran asked challenges progress) (result : AgentKind × ω) :
    (confront agent challenger challenges result).Ends progress
      (Reviewed ran (asked ++ questions [result] challenger)) fun _ _ => True := by
  unfold confront
  by_cases own : result.1 = challenger
  · have nothing : questions [result] challenger = [] := by simp [questions, own]
    rw [if_pos own, Program.ends_pure, nothing, List.append_nil]
    exact reviewed
  · have one : questions [result] challenger = [(challenger, result.1, result.2)] := by
      simp [questions, own]
    obtain ⟨same, questioned, answered⟩ := reviewed
    rw [if_neg own, Program.ends_bind, one]
    refine (ends_await _ _ _).mono ?_ (fun _ _ _ => trivial)
    intro challenge after ⟨world, next⟩
    subst next
    rw [Program.ends_pure]
    refine { ran := same, asked := ?asked, challenges := ?challenges }
    case asked =>
      rw [List.map_append, questioned]
      rfl
    case challenges =>
      rw [List.filterMap_append, answered]
      cases challenge <;> rfl

theorem questions_append (before after : List (AgentKind × ω)) (challenger : AgentKind) :
    questions (before ++ after) challenger =
      questions before challenger ++ questions after challenger := by
  simp [questions]

theorem review_ends (orchestrator : AgentOrchestrator σ ε ω)
    (results : OrderedDict AgentKind ω) (reviewed : Reviewed ran asked challenges progress)
    (assignment : AgentAssignment) :
    (orchestrator.review results challenges assignment).Ends progress
      (Reviewed ran (asked ++ questions results.rows assignment.agent)) fun _ _ => True := by
  unfold review
  rw [Program.ends_bind]
  refine (ends_await _ _ _).mono ?_ (fun _ _ _ => trivial)
  intro agent created ⟨world, same⟩
  subst same
  refine Program.ends_foldlM
    (fun behind => Reviewed ran (asked ++ questions behind assignment.agent)) ?turn
    results.rows ?start
  case turn =>
    intro behind result challenges after holds
    rw [questions_append, ← List.append_assoc]
    exact confront_ends agent assignment.agent holds result
  case start =>
    exact
      { ran := reviewed.ran
        asked := by simpa [questions] using reviewed.asked
        challenges := reviewed.challenges }

end Review

/-- What a coordination within the limit comes to. -/
structure Coordinated (assignments : List AgentAssignment) (result : CoordinationResult ω)
    (after : Progress σ ω) : Prop where
  ran : after.ran.map Prod.fst = assignments
  kept : ∀ kind, result.results.get? kind =
    (after.ran.reverse.find? fun entry => decide (entry.1.agent = kind)).map Prod.snd
  distinct : (assignments.map AgentAssignment.agent).Nodup →
    ∀ entry ∈ after.ran, result.results.get? entry.1.agent = some entry.2
  asked : after.asked.map Asking.question =
    assignments.flatMap fun assignment => questions result.results.rows assignment.agent
  challenges : result.challenges = after.asked.filterMap Asking.challenge
  assignments : result.assignments = assignments
  unescalated : result.escalated = false

theorem coordinated_of_reviewed {assignments : List AgentAssignment}
    {ran : List (AgentAssignment × ω)} {challenges : List AgentChallenge}
    {after : Progress σ ω} (all : ran.map Prod.fst = assignments)
    (reviewed : Reviewed ran
      (assignments.flatMap fun assignment => questions (retained ran).rows assignment.agent)
      challenges after) :
    Coordinated assignments
      { assignments := assignments, results := retained ran, challenges := challenges }
      after := by
  obtain ⟨same, asked, answered⟩ := reviewed
  subst same
  refine
    { ran := all
      kept := get?_retained after.ran
      distinct := ?distinct
      asked := asked
      challenges := answered
      assignments := rfl
      unescalated := rfl }
  case distinct =>
    intro distinct entry member
    apply get?_retained_of_nodup ?_ member
    rw [← all, List.map_map] at distinct
    exact distinct

/-- Within the limit every assignment runs once and in order, each kind keeps the
output of its last assignment, and the agent of each assignment is asked once about
every output kept under another kind; all that they object to is kept. -/
theorem coordinated (orchestrator : AgentOrchestrator σ ε ω)
    (assignments : List AgentAssignment)
    (within : (assignments.length : ℤ) ≤ orchestrator.maxAssignments) (world : σ) :
    (orchestrator.run assignments).Ends { world := world }
      (Coordinated assignments) fun _ _ => True := by
  have worked : Program.Ends (assignments.foldlM orchestrator.work Table.empty)
      { world := world } (Worked assignments) fun _ _ => True :=
    Program.ends_foldlM Worked (fun _ assignment _ _ worked =>
      work_ends orchestrator worked assignment) assignments
      { ran := rfl, unasked := rfl, results := rfl }
  have inside : ¬ orchestrator.maxAssignments < (assignments.length : ℤ) := by omega
  unfold run
  rw [if_neg inside, Program.ends_bind]
  refine worked.mono ?_ (fun _ _ _ => trivial)
  intro results middle ⟨all, unasked, same⟩
  subst same
  rw [Program.ends_bind]
  have reviewed : Program.Ends
      (assignments.foldlM (orchestrator.review (retained middle.ran)) []) middle
      (Reviewed middle.ran (assignments.flatMap fun assignment =>
        questions (retained middle.ran).rows assignment.agent)) fun _ _ => True := by
    refine Program.ends_foldlM
      (fun behind => Reviewed middle.ran (behind.flatMap fun assignment =>
        questions (retained middle.ran).rows assignment.agent)) ?turn assignments ?start
    case turn =>
      intro behind assignment challenges progress holds
      rw [List.flatMap_append, List.flatMap_singleton]
      exact review_ends orchestrator _ holds assignment
    case start =>
      exact { ran := rfl, asked := by rw [unasked]; rfl, challenges := by rw [unasked]; rfl }
  refine reviewed.mono ?_ (fun _ _ _ => trivial)
  intro challenges after holds
  exact coordinated_of_reviewed all holds

/-! ## Two assignments for one kind -/

def echo : Runner Unit Empty String where
  call _ objective _ := fun world => (world, .ok objective)
  challenge := some fun challenger target _ => fun world =>
    (world, .ok (some { challenger := challenger, target := target, claim := "review" }))

def pair : AgentOrchestrator Unit Empty String where
  create := echo.create
  maxAssignments := 2
  positive := by decide

def assignmentTo (agent : AgentKind) (objective : String) (id : BitVec 128) :
    AgentAssignment where
  agent := agent
  objective := objective
  id := ⟨id⟩

theorem coordinated_pair :
    ((2 : ℕ) : ℤ) ≤ pair.maxAssignments ∧
      (pair.run [assignmentTo .research "one" 1, assignmentTo .analysis "two" 2]).Ends
        { world := () }
        (Coordinated [assignmentTo .research "one" 1, assignmentTo .analysis "two" 2])
        fun _ _ => True :=
  ⟨by decide, coordinated pair [assignmentTo .research "one" 1, assignmentTo .analysis "two" 2]
    (by decide) ()⟩

/-- The first output is answered and then lost. -/
theorem repeated_kind_loses_output :
    ∃ result after, pair.run [assignmentTo .research "one" 1, assignmentTo .research "two" 2]
        { world := () } = .ok result after ∧
      after.ran.map Prod.snd = ["one", "two"] ∧
      ¬ ∀ entry ∈ after.ran, entry.2 ∈ result.results.rows.map Prod.snd := by
  refine ⟨_, _, rfl, rfl, ?_⟩
  intro kept
  have lost := kept _ List.mem_cons_self
  revert lost
  decide

end AgentOrchestrator

end Eis.Specialized
