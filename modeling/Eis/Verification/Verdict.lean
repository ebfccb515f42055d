import Eis.Verification.Runtime

/-!
# What a verdict rests on

A report that says `verified` comes from a run that ends with one cycle over all
stages, in their order, in which every call has passed.
-/

set_option autoImplicit false

namespace Eis.Verification

/-- The calls of a cycle and their results; the regression stage goes through the
guard when there is one. -/
def cycleEvents (guarded : Bool) (stages : List VerificationStage)
    (results : List StageResult) : List VerificationEvent :=
  List.zipWith
    (fun stage result => .stage stage (guarded && decide (stage = .regression)) result)
    stages results

/-- With a guard, the first call was its baseline, and that has passed. -/
def Based (guarded : Bool) (trace : List VerificationEvent) : Prop :=
  guarded = true →
    ∃ baseline later, trace = .baseline baseline :: later ∧ baseline.passed = true

structure CyclePassed (guarded : Bool) (trace : List VerificationEvent) : Prop where
  based : Based guarded trace
  cycle : ∃ earlier results, trace = earlier ++ cycleEvents guarded VerificationStage.all results ∧
    results.length = VerificationStage.all.length ∧ ∀ result ∈ results, result.passed = true

/-- The report claims no more than the calls show. -/
structure Honest (guarded : Bool) (report : VerificationReport)
    (trace : List VerificationEvent) : Prop where
  verified : report.verified = true → CyclePassed guarded trace
  escalated : report.escalated = true → report.verified = false

theorem cycleEvents_snoc {guarded : Bool} {stages : List VerificationStage}
    {results : List StageResult} (each : results.length = stages.length)
    (stage : VerificationStage) (result : StageResult) :
    cycleEvents guarded (stages ++ [stage]) (results ++ [result]) =
      cycleEvents guarded stages results ++
        [.stage stage (guarded && decide (stage = .regression)) result] := by
  unfold cycleEvents
  rw [List.zipWith_append each.symm]
  rfl

theorem Based.append {guarded : Bool} {trace : List VerificationEvent}
    (based : Based guarded trace) (more : List VerificationEvent) :
    Based guarded (trace ++ more) := by
  intro given
  obtain ⟨baseline, later, rfl, passed⟩ := based given
  exact ⟨baseline, later ++ more, rfl, passed⟩

namespace VerificationReport

theorem verified_of_escalated {report : VerificationReport}
    (escalated : report.escalated = true) : report.verified = false := by
  unfold verified
  rw [if_pos (Or.inr escalated)]

end VerificationReport

def Account.failedRound (account : Account) (results : List StageResult) (failed : StageResult) :
    Account :=
  { account with
    stages := account.stages ++ results
    failures := account.failures ++
      [Text.orElse failed.detail "verification stage failed"] }

def Account.corrected (account : Account) (record : CorrectionRecord) : Account :=
  { account with
    corrections := account.corrections ++ [record]
    attempts := account.attempts + 1 }

theorem Account.escalate_honest {guarded : Bool} (account : Account) (reason : String)
    (trace : List VerificationEvent) : Honest guarded (account.escalate reason) trace := by
  have refused : (account.escalate reason).verified = false :=
    VerificationReport.verified_of_escalated rfl
  refine ⟨?_, fun _ => refused⟩
  intro claimed
  rw [refused] at claimed
  cases claimed

namespace VerificationEngine

open Program

variable {σ ε : Type} (engine : VerificationEngine σ ε) {request : VerificationRequest}

theorem await_ends {α : Type} {call : Call σ ε α} {event : α → VerificationEvent}
    {progress : Progress σ} {post : α → Progress σ → Prop}
    (returned : ∀ value world, post value ⟨world, progress.trace ++ [event value]⟩) :
    (await call event).Ends progress post fun _ _ => True := by
  unfold Ends await
  rcases call progress.world with ⟨world, value | value⟩
  · trivial
  · exact returned value world

theorem runStage_ends (stage : VerificationStage) (progress : Progress σ) :
    (engine.runStage request stage).Ends progress
      (fun result next => next.trace = progress.trace ++
        [.stage stage (engine.regression.isSome && decide (stage = .regression)) result])
      fun _ _ => True := by
  unfold runStage
  cases given : engine.regression with
  | none =>
      apply await_ends
      intro result world
      simp
  | some guard =>
      simp only
      split
      · rename_i guarded
        apply await_ends
        intro result world
        simp [guarded]
      · rename_i unguarded
        apply await_ends
        intro result world
        simp [unguarded]

theorem runStages_ends (progress : Progress σ) :
    (engine.runStages request).Ends progress
      (fun results next => next.trace = progress.trace ++
          cycleEvents engine.regression.isSome VerificationStage.all results ∧
        results.length = VerificationStage.all.length)
      fun _ _ => True := by
  refine ends_mapM
    (fun behind results (next : Progress σ) => next.trace = progress.trace ++
        cycleEvents engine.regression.isSome behind results ∧
      results.length = behind.length) ?_ _ ⟨by simp [cycleEvents], rfl⟩
  rintro behind stage results before ⟨called, each⟩
  refine (engine.runStage_ends stage before).mono ?_ fun _ _ _ => trivial
  intro result next grown
  refine ⟨?_, by simp [each]⟩
  rw [grown, called, cycleEvents_snoc each, List.append_assoc]

theorem analyze_ends (failed : StageResult) (progress : Progress σ) :
    (engine.analyze failed).Ends progress
      (fun _ next => next.trace = progress.trace ++
        if engine.rootCause.isSome then [.analyzed] else []) fun _ _ => True := by
  unfold analyze
  cases engine.rootCause with
  | none => exact (List.append_nil _).symm
  | some analyzer => exact await_ends fun _ _ => rfl

theorem validateCorrection_ends (progress : Progress σ) :
    (engine.validateCorrection request).Ends progress
      (fun _ next => ∃ checked, next.trace = progress.trace ++ [.validated checked])
      fun _ _ => True := by
  unfold validateCorrection
  rw [ends_bind]
  apply await_ends
  intro result world
  exact ⟨result, rfl⟩

/-- The rule of the loop.  `before` holds in front of each round, and `post` behind the
last one: behind stages that pass, behind a failure when no attempt is left, and behind a
correction that does not validate. -/
theorem cycles_ends (before : ℕ → Account → Progress σ → Prop)
    {post : VerificationReport → Progress σ → Prop}
    (passes : ∀ remaining account (progress next : Progress σ) results,
      before remaining account progress →
      next.trace = progress.trace ++
        cycleEvents engine.regression.isSome VerificationStage.all results →
      results.length = VerificationStage.all.length →
      results.find? (fun stage => !stage.passed) = none →
      post (engine.report { account with stages := account.stages ++ results }) next)
    (spent : ∀ account (progress next : Progress σ) results failed, before 0 account progress →
      next.trace = progress.trace ++
        cycleEvents engine.regression.isSome VerificationStage.all results →
      results.length = VerificationStage.all.length →
      results.find? (fun stage => !stage.passed) = some failed →
      post ((account.failedRound results failed).escalate
        "maximum correction attempts reached") next)
    (corrects : ∀ remaining account (progress next : Progress σ) results failed record changes
        checked, before (remaining + 1) account progress →
      next.trace = progress.trace ++
        (cycleEvents engine.regression.isSome VerificationStage.all results ++
          ((if engine.rootCause.isSome then [.analyzed] else []) ++
            [.corrected changes, .validated checked])) →
      results.length = VerificationStage.all.length →
      results.find? (fun stage => !stage.passed) = some failed →
      record.attempt = account.attempts + 1 →
      post (((account.failedRound results failed).corrected record).escalate
          "correction did not validate") next ∧
        before remaining ((account.failedRound results failed).corrected record) next)
    (request : VerificationRequest) (remaining : ℕ) (account : Account) (progress : Progress σ)
    (start : before remaining account progress) :
    (engine.cycles request remaining account).Ends progress post fun _ _ => True := by
  induction remaining generalizing account progress with
  | zero =>
      unfold cycles
      rw [ends_bind]
      refine (engine.runStages_ends progress).mono ?_ fun _ _ _ => trivial
      rintro results next ⟨called, each⟩
      cases failing : results.find? fun stage => !stage.passed with
      | none => exact passes 0 account progress next results start called each failing
      | some failed => exact spent account progress next results failed start called each failing
  | succ remaining ih =>
      unfold cycles
      rw [ends_bind]
      refine (engine.runStages_ends progress).mono ?_ fun _ _ _ => trivial
      rintro results next ⟨called, each⟩
      cases failing : results.find? fun stage => !stage.passed with
      | none => exact passes _ account progress next results start called each failing
      | some failed =>
          simp only [ends_bind]
          refine (engine.analyze_ends failed next).mono ?_ fun _ _ _ => trivial
          intro analysis analyzed grown
          apply await_ends
          intro changes world
          refine (engine.validateCorrection_ends _).mono ?_ fun _ _ _ => trivial
          rintro validation last ⟨checked, grown'⟩
          have trace : last.trace = progress.trace ++
              (cycleEvents engine.regression.isSome VerificationStage.all results ++
                ((if engine.rootCause.isSome then [.analyzed] else []) ++
                  [.corrected changes, .validated checked])) := by
            simp [grown', grown, called]
          have behind := fun record => corrects remaining account progress last results failed
            record changes checked start trace each failing
          split
          · refine (behind _ ?_).1
            rfl
          · refine ih _ last (behind _ ?_).2
            rfl

theorem report_honest {progress next : Progress σ} {results : List StageResult}
    (based : Based engine.regression.isSome progress.trace)
    (called : next.trace = progress.trace ++
      cycleEvents engine.regression.isSome VerificationStage.all results)
    (each : results.length = VerificationStage.all.length)
    (passed : results.find? (fun stage => !stage.passed) = none) (account : Account) :
    Honest engine.regression.isSome (engine.report account) next.trace := by
  refine ⟨fun _ => ⟨called ▸ based.append _, progress.trace, results, called, each, ?_⟩, ?_⟩
  · intro result member
    have none_fails := List.find?_eq_none.mp passed result member
    simpa using none_fails
  · intro escalated
    cases escalated

theorem cycles_honest (request : VerificationRequest) (remaining : ℕ) (account : Account)
    (progress : Progress σ)
    (based : Based engine.regression.isSome progress.trace) :
    (engine.cycles request remaining account).Ends progress
      (fun report next => Honest engine.regression.isSome report next.trace)
      fun _ _ => True := by
  refine engine.cycles_ends (fun _ _ now => Based engine.regression.isSome now.trace)
    ?passes ?spent ?corrects request remaining account progress based
  case passes =>
    intro _ account now next results based called each failing
    exact engine.report_honest based called each failing _
  case spent =>
    intro account now next results failed based called each failing
    exact Account.escalate_honest _ _ _
  case corrects =>
    intro _ account now next results failed record changes checked based called each failing _
    refine ⟨Account.escalate_honest _ _ _, ?_⟩
    rw [called]
    exact based.append _

theorem verify_honest (world : σ) :
    (engine.verify request).Ends { world := world }
      (fun report next => Honest engine.regression.isSome report next.trace)
      fun _ _ => True := by
  unfold verify
  cases given : engine.regression with
  | none =>
      have start := engine.cycles_honest request
        engine.limits.maxCorrectionAttempts {} { world := world }
      simp only [given] at start
      exact start fun guarded => by cases guarded
  | some guard =>
      simp only [ends_bind]
      apply await_ends
      intro baseline later
      cases passed : baseline.passed with
      | false => exact Account.escalate_honest _ _ _
      | true =>
          have start := engine.cycles_honest request
            engine.limits.maxCorrectionAttempts { stages := [baseline] }
            ⟨later, [.baseline baseline]⟩
          simp only [given] at start
          exact start fun _ => ⟨baseline, [], rfl, passed⟩

/-- A report with `verified` rests on a passed baseline, if there is a guard, and
on a last cycle in which every stage was called in its order and has passed; an
escalated report is never `verified`. -/
theorem verified_rests_on_last_cycle {world : σ} {report : VerificationReport}
    {after : Progress σ}
    (returned : engine.verify request { world := world } = .ok report after) :
    Honest engine.regression.isSome report after.trace :=
  (engine.verify_honest world).of_ok returned

end VerificationEngine

/-! ### A correction that lets the second cycle pass -/

def secondCallFails : VerificationEngine ℕ Unit where
  verifier := fun stage _ calls =>
    (calls + 1, .ok { stage := stage, passed := decide (calls ≠ 1), detail := "no such name" })
  correction := fun _ _ calls => (calls, .ok ["define the name"])
  regression := some
    { verifyBaseline := fun _ calls => (calls, .ok { stage := .regression, passed := true })
      verifyRegression := fun _ calls => (calls, .ok { stage := .regression, passed := true }) }

def renameRequest : VerificationRequest := { objective := "rename", repository := "eis", id := ⟨1⟩ }

theorem verified_rests_on_last_cycle_corrected :
    ∃ report after, secondCallFails.verify renameRequest { world := 0 } = .ok report after ∧
      report.verified = true ∧ report.attempts = 1 ∧ CyclePassed true after.trace := by
  have evaluated : (match secondCallFails.verify renameRequest { world := 0 } with
      | .ok report _ => report.verified && decide (report.attempts = 1)
      | .error _ _ => false) = true := by decide +kernel
  cases returned : secondCallFails.verify renameRequest { world := 0 } with
  | error exception after =>
      rw [returned] at evaluated
      cases evaluated
  | ok report after =>
      rw [returned] at evaluated
      obtain ⟨verified, attempts⟩ : report.verified = true ∧ report.attempts = 1 := by
        simpa using evaluated
      exact ⟨report, after, rfl, verified, attempts,
        (secondCallFails.verified_rests_on_last_cycle returned).verified verified⟩

end Eis.Verification
