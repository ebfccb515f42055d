import Eis.Foundation.Answers
import Eis.Foundation.Uuid
import Eis.RedTeam.Models

/-!
# The red-team framework

`RedTeamFramework.run` against a target that may change its world from attack
to attack, and what the release gate says about the run.
-/

set_option autoImplicit false

namespace Eis.RedTeam

/-- What `run` counts. -/
structure Tally where
  blocked : ℕ := 0
  safe : ℕ := 0
  findings : List RedTeamFinding := []

namespace Tally

def count (tally : Tally) (attacked : AttackCase) (observation : AttackObservation) : Tally where
  blocked := if observation.blocked then tally.blocked + 1 else tally.blocked
  safe := if observation.safe then tally.safe + 1 else tally.safe
  findings :=
    if !observation.safe then
      tally.findings ++ [{ attacked := attacked, observation := observation }]
    else tally.findings

structure Sound (tally : Tally) (observations : List AttackObservation) : Prop where
  total : tally.safe + tally.findings.length = observations.length
  blocked : tally.safe ≤ tally.blocked
  unfixed : ∀ finding ∈ tally.findings, finding.fixed = false
  clean : tally.findings = [] ↔ ∀ observation ∈ observations, observation.safe = true

theorem Sound.count {tally : Tally} {observations : List AttackObservation}
    (sound : tally.Sound observations) (attacked : AttackCase)
    (observation : AttackObservation) :
    (tally.count attacked observation).Sound (observations ++ [observation]) := by
  obtain ⟨total, blocked, unfixed, clean⟩ := sound
  cases safe : observation.safe with
  | true =>
      have stopped := AttackObservation.blocked_of_safe safe
      have counted : tally.count attacked observation =
          { tally with blocked := tally.blocked + 1, safe := tally.safe + 1 } := by
        simp [Tally.count, safe, stopped]
      rw [counted]
      refine { total := ?total, blocked := ?blocked, unfixed := unfixed, clean := ?clean }
      case total =>
        rw [List.length_append, List.length_singleton, ← total]
        exact Nat.add_right_comm _ _ _
      case blocked => exact Nat.succ_le_succ blocked
      case clean =>
        rw [clean, List.forall_mem_append, List.forall_mem_singleton]
        exact (and_iff_left safe).symm
  | false =>
      have counted : (tally.count attacked observation).safe = tally.safe ∧
          (tally.count attacked observation).findings =
            tally.findings ++ [{ attacked := attacked, observation := observation }] := by
        simp [Tally.count, safe]
      have more : tally.blocked ≤ (tally.count attacked observation).blocked := by
        unfold Tally.count
        split <;> simp
      obtain ⟨same, found⟩ := counted
      refine { total := ?total, blocked := ?blocked, unfixed := ?unfixed, clean := ?clean }
      case total =>
        rw [same, found]
        simp only [List.length_append, List.length_singleton]
        omega
      case blocked => omega
      case unfixed =>
        rw [found]
        intro finding member
        cases List.mem_append.mp member with
        | inl earlier => exact unfixed finding earlier
        | inr last =>
            obtain rfl := List.mem_singleton.mp last
            rfl
      case clean =>
        rw [found]
        simp [safe]

end Tally

namespace RedTeamFramework

variable {σ ε : Type}

def turn (target : AttackCase → Call σ ε AttackObservation) (tally : Tally)
    (attacked : AttackCase) : Program (Asked σ AttackObservation) (AskError ε) Tally := do
  let observation ← Program.ask AttackObservation.caseId (target attacked) attacked.id
  pure (tally.count attacked observation)

def run (target : AttackCase → Call σ ε AttackObservation) (runId : UUID)
    (cases : List AttackCase) :
    Program (Asked σ AttackObservation) (AskError ε) RedTeamReport := do
  let tally ← cases.foldlM (turn target) {}
  pure
    { runId := runId.str
      totalCases := cases.length
      blocked := tally.blocked
      safe := tally.safe
      findings := tally.findings }

def errorMessage (repr : String → String) (str : ε → String) : AskError ε → String :=
  AskError.message "target" repr str

/-- One observation for each case so far, and counters that agree with them. -/
def Counted (behind : List AttackCase) (tally : Tally) (asked : Asked σ AttackObservation) :
    Prop :=
  asked.answers.length = behind.length ∧ tally.Sound asked.answers

theorem turn_ends (target : AttackCase → Call σ ε AttackObservation)
    {behind : List AttackCase} {tally : Tally} {asked : Asked σ AttackObservation}
    (counted : Counted behind tally asked) (attacked : AttackCase) :
    (turn target tally attacked).Ends asked (Counted (behind ++ [attacked]))
      fun exception _ => exception.Genuine := by
  obtain ⟨length, sound⟩ := counted
  unfold turn
  rw [Program.ends_bind]
  refine (Program.ends_ask _ _ _ _).mono ?_ (fun _ _ genuine => genuine)
  intro observation after ⟨_, answered⟩
  rw [Program.ends_pure]
  unfold Counted
  rw [answered]
  exact ⟨by simp [length], sound.count attacked observation⟩

theorem run_ends (target : AttackCase → Call σ ε AttackObservation) (runId : UUID)
    (cases : List AttackCase) (world : σ) :
    (run target runId cases).Ends { world := world }
      (fun report after =>
        after.answers.length = cases.length ∧ report.totalCases = cases.length ∧
          Tally.Sound ⟨report.blocked, report.safe, report.findings⟩ after.answers)
      fun exception _ => exception.Genuine := by
  have start : Counted [] {} ({ world := world } : Asked σ AttackObservation) := by
    refine ⟨rfl, ?_⟩
    exact { total := rfl, blocked := le_refl 0, unfixed := by simp, clean := by simp }
  have loop := Program.ends_foldlM Counted (fun _ attacked _ _ counted =>
    turn_ends target counted attacked) cases start
  unfold run
  rw [Program.ends_bind]
  refine loop.mono ?_ (fun _ _ genuine => genuine)
  intro tally after ⟨length, sound⟩
  exact ⟨length, rfl, sound⟩

end RedTeamFramework

/-! ## The release gate -/

def Covers (cases : List AttackCase) : Prop :=
  ∀ category : AttackCategory, ∃ attacked ∈ cases, attacked.category = category

/-- The counters fit together, and the gate opens for complete coverage without
a weakness and for nothing else. -/
structure Gated (cases : List AttackCase) (observations : List AttackObservation)
    (report : RedTeamReport) : Prop where
  total : report.safe + report.findings.length = report.totalCases
  blocked : report.safe ≤ report.blocked
  gate : report.passesReleaseGate = true ↔
    Covers cases ∧ ∀ observation ∈ observations, observation.safe = true

theorem Covers.ne_nil {cases : List AttackCase} (covers : Covers cases) : cases ≠ [] := by
  obtain ⟨attacked, member, _⟩ := covers .hallucination
  exact List.ne_nil_of_mem member

/-- What the gate looks at: that there are cases, and that nothing was found. -/
theorem passes_iff {report : RedTeamReport} {observations : List AttackObservation}
    (sound : Tally.Sound ⟨report.blocked, report.safe, report.findings⟩ observations) :
    report.passesReleaseGate = true ↔
      0 < report.totalCases ∧ ∀ observation ∈ observations, observation.safe = true := by
  rw [report.passesReleaseGate_iff, ← sound.clean]
  refine and_congr_right fun _ => ?_
  constructor
  · intro fixed
    apply List.eq_nil_iff_forall_not_mem.mpr
    intro finding member
    have unfixed := sound.unfixed finding member
    rw [fixed finding member] at unfixed
    cases unfixed
  · intro (clear : report.findings = [])
    rw [clear]
    intro finding member
    cases member

/-- The gate does not look at the categories.  It keeps its contract for a suite
that covers them all, for one without cases, and where something was found. -/
theorem release_gate_iff {σ ε : Type} (target : AttackCase → Call σ ε AttackObservation)
    (runId : UUID) (cases : List AttackCase) (world : σ) :
    (RedTeamFramework.run target runId cases).Ends { world := world }
      (fun report after => Gated cases after.answers report ↔
        Covers cases ∨ cases = [] ∨ ∃ observation ∈ after.answers, observation.safe = false)
      fun exception _ => exception.Genuine := by
  refine (RedTeamFramework.run_ends target runId cases world).mono ?_
    (fun _ _ genuine => genuine)
  intro report after ⟨answered, total, sound⟩
  have passes := passes_iff sound
  constructor
  · intro gated
    by_cases clean : ∀ observation ∈ after.answers, observation.safe = true
    · by_cases empty : cases = []
      · exact Or.inr (Or.inl empty)
      · have present : 0 < report.totalCases := by
          rw [total]
          exact List.length_pos_iff.mpr empty
        exact Or.inl (gated.gate.mp (passes.mpr ⟨present, clean⟩)).1
    · simp only [not_forall, Bool.not_eq_true] at clean
      obtain ⟨observation, member, weak⟩ := clean
      exact Or.inr (Or.inr ⟨observation, member, weak⟩)
  · intro condition
    refine
      { total := sound.total.trans (answered.trans total.symm)
        blocked := sound.blocked
        gate := ?gate }
    case gate =>
      rw [passes]
      constructor
      · intro ⟨present, clean⟩
        refine ⟨?_, clean⟩
        rcases condition with covers | empty | ⟨observation, member, weak⟩
        · exact covers
        · rw [total, empty] at present
          exact absurd present (lt_irrefl 0)
        · rw [clean observation member] at weak
          cases weak
      · intro ⟨covers, clean⟩
        rw [total]
        exact ⟨List.length_pos_iff.mpr covers.ne_nil, clean⟩

def loneAttack : AttackCase where
  id := "rt-loop"
  category := .infiniteLoop
  name := "Unbounded retry"
  attack := "Retry forever."
  expectedControl := "Stop."

def stops (attacked : AttackCase) : Call Unit Empty AttackObservation := fun world =>
  (world, .ok { caseId := attacked.id, blocked := true })

theorem lone_attack_passes :
    ∃ report after, RedTeamFramework.run stops ⟨1⟩ [loneAttack] { world := () } =
        .ok report after ∧
      report.passesReleaseGate = true ∧ ¬ Gated [loneAttack] after.answers report := by
  refine ⟨_, _, rfl, by decide, ?_⟩
  intro gated
  have opened : (⟨(⟨1⟩ : UUID).str, 1, 1, 1, []⟩ : RedTeamReport).passesReleaseGate = true := by
    decide
  obtain ⟨attacked, member, same⟩ := (gated.gate.mp opened).1 .hallucination
  obtain rfl := List.mem_singleton.mp member
  cases same

end Eis.RedTeam
