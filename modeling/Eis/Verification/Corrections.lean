import Eis.Verification.Verdict

/-!
# What a bounded run of corrections leaves behind

When nobody raises, `verify` returns after as many cycles as the limit allows at
most, and its report counts, numbers and lists what was called.
-/

set_option autoImplicit false

namespace Eis.Verification

/-- A turn of the loop: what the stages have answered, and the changes of the
correction with the check behind it, when it came to one. -/
structure Round where
  results : List StageResult
  correction : Option (List String × StageResult) := none

namespace Round

def events (guarded analyzed : Bool) (round : Round) : List VerificationEvent :=
  cycleEvents guarded VerificationStage.all round.results ++
    match round.correction with
    | none => []
    | some (changes, checked) =>
        (if analyzed then [.analyzed] else []) ++ [.corrected changes, .validated checked]

def failure (round : Round) : Option String :=
  (round.results.find? fun stage => !stage.passed).map fun failed =>
    Text.orElse failed.detail "verification stage failed"

end Round

def VerificationEvent.isCorrection : VerificationEvent → Bool
  | .corrected _ => true
  | _ => false

def VerificationReport.account (report : VerificationReport) : Account where
  stages := report.stages
  corrections := report.corrections
  failures := report.failures
  attempts := report.attempts

/-- The account agrees with the calls: the baseline's, if there is a guard, and
those of the rounds. -/
structure Account.Tells (account : Account) (analyzed : Bool) (baseline : Option StageResult)
    (rounds : List Round) (trace : List VerificationEvent) : Prop where
  calls : trace = baseline.toList.map .baseline ++
    rounds.flatMap (Round.events baseline.isSome analyzed)
  complete : ∀ round ∈ rounds, round.results.length = VerificationStage.all.length
  corrected : rounds.countP (fun round => round.correction.isSome) = account.attempts
  numbered : account.corrections.map CorrectionRecord.attempt = List.range' 1 account.attempts
  failures : account.failures =
    (baseline.toList.filter fun result => !result.passed).map StageResult.detail ++
      rounds.filterMap Round.failure

structure BoundedAndRecorded {σ ε : Type} (engine : VerificationEngine σ ε)
    (report : VerificationReport) (trace : List VerificationEvent)
    (baseline : Option StageResult) (rounds : List Round) : Prop where
  guarded : baseline.isSome = engine.regression.isSome
  tells : report.account.Tells engine.rootCause.isSome baseline rounds trace
  cycles : rounds.length ≤ engine.limits.maxCorrectionAttempts + 1
  attempts : report.attempts ≤ engine.limits.maxCorrectionAttempts
  calls : trace.countP VerificationEvent.isCorrection = report.attempts
  records : report.corrections.length = report.attempts

/-! ## Rounds -/

theorem countP_cycleEvents (guarded : Bool) (stages : List VerificationStage)
    (results : List StageResult) :
    (cycleEvents guarded stages results).countP VerificationEvent.isCorrection = 0 := by
  rw [List.countP_eq_zero]
  intro event member
  obtain ⟨place, found⟩ := List.getElem?_of_mem member
  obtain ⟨stage, result, _, _, rfl⟩ := List.getElem?_zipWith_eq_some.mp found
  exact Bool.false_ne_true

theorem Round.countP_events (guarded analyzed : Bool) (round : Round) :
    (round.events guarded analyzed).countP VerificationEvent.isCorrection =
      if round.correction.isSome then 1 else 0 := by
  unfold events
  rw [List.countP_append, countP_cycleEvents, Nat.zero_add]
  cases round.correction with
  | none => rfl
  | some correction => cases analyzed <;> rfl

theorem countP_rounds (guarded analyzed : Bool) (rounds : List Round) :
    (rounds.flatMap (Round.events guarded analyzed)).countP VerificationEvent.isCorrection =
      rounds.countP fun round => round.correction.isSome := by
  induction rounds with
  | nil => rfl
  | cons round rest ih =>
      rw [List.flatMap_cons, List.countP_append, Round.countP_events, ih, List.countP_cons,
        Nat.add_comm]

namespace Account.Tells

variable {account : Account} {analyzed : Bool} {baseline : Option StageResult}
variable {rounds : List Round} {trace : List VerificationEvent}

theorem turn (tells : account.Tells analyzed baseline rounds trace) (round : Round)
    (next : Account)
    (complete : round.results.length = VerificationStage.all.length)
    (attempts : next.attempts = account.attempts + if round.correction.isSome then 1 else 0)
    (numbered : next.corrections.map CorrectionRecord.attempt = List.range' 1 next.attempts)
    (failures : next.failures = account.failures ++ round.failure.toList) :
    next.Tells analyzed baseline (rounds ++ [round])
      (trace ++ round.events baseline.isSome analyzed) where
  calls := by simp [tells.calls]
  complete := by
    intro one member
    rcases List.mem_append.mp member with former | last
    · exact tells.complete one former
    · rw [List.mem_singleton.mp last]
      exact complete
  corrected := by
    rw [List.countP_append, tells.corrected, attempts]
    simp [List.countP_cons]
  numbered := numbered
  failures := by
    rw [failures, tells.failures, List.filterMap_append]
    cases failed : round.failure <;> simp [failed]

theorem countP_corrections (tells : account.Tells analyzed baseline rounds trace) :
    trace.countP VerificationEvent.isCorrection = account.attempts := by
  rw [tells.calls, List.countP_append, countP_rounds, tells.corrected]
  cases baseline with
  | none => exact Nat.zero_add _
  | some result => exact Nat.zero_add _

theorem length_corrections (tells : account.Tells analyzed baseline rounds trace) :
    account.corrections.length = account.attempts := by
  have counted := congrArg List.length tells.numbered
  simpa using counted

end Account.Tells

/-! ## The engine -/

namespace VerificationEngine

open Program

variable {σ ε : Type} (engine : VerificationEngine σ ε) {request : VerificationRequest}

/-- No verifier, guard, analyzer or correction runner raises. -/
structure NeverRaises : Prop where
  verifier : ∀ stage request, (engine.verifier stage request).Returns
  correction : ∀ request analysis, (engine.correction request analysis).Returns
  rootCause : ∀ analyzer ∈ engine.rootCause, ∀ failed, (analyzer failed).Returns
  regression : ∀ guard ∈ engine.regression, ∀ request,
    (guard.verifyBaseline request).Returns ∧ (guard.verifyRegression request).Returns

section Returning
variable {engine}

theorem await_returns {α : Type} {call : Call σ ε α} {event : α → VerificationEvent}
    (returns : call.Returns) : (await call event).Returns := by
  intro progress
  obtain ⟨world, value, returned⟩ := returns progress.world
  unfold Ends await
  rw [returned]
  trivial

theorem runStage_returns (never : engine.NeverRaises) (stage : VerificationStage) :
    (engine.runStage request stage).Returns := by
  unfold runStage
  cases given : engine.regression with
  | none => exact await_returns (never.verifier stage request)
  | some guard =>
      simp only
      split
      · exact await_returns (never.regression guard given request).2
      · exact await_returns (never.verifier stage request)

theorem analyze_returns (never : engine.NeverRaises) (failed : StageResult) :
    (engine.analyze failed : Program (Progress σ) ε RootCauseAnalysis).Returns := by
  unfold analyze
  cases given : engine.rootCause with
  | none => exact Returns.pure
  | some analyzer => exact await_returns (never.rootCause analyzer given failed)

theorem cycles_returns (never : engine.NeverRaises) (remaining : ℕ) (account : Account) :
    (engine.cycles request remaining account).Returns := by
  induction remaining generalizing account with
  | zero =>
      unfold cycles
      refine (Returns.mapM (runStage_returns never) _).bind ?_
      intro results
      split
      · exact Returns.pure
      · exact Returns.pure
  | succ remaining ih =>
      unfold cycles
      refine (Returns.mapM (runStage_returns never) _).bind ?_
      intro results
      split
      · exact Returns.pure
      · rename_i failed _
        refine (analyze_returns never failed).bind fun analysis => ?_
        refine (await_returns (never.correction request analysis)).bind fun changes => ?_
        have checked : (engine.validateCorrection request).Returns :=
          (await_returns (never.verifier .code request)).bind fun _ => Returns.pure
        refine checked.bind fun validation => ?_
        split
        · exact Returns.pure
        · exact ih _

theorem verify_returns (never : engine.NeverRaises) : (engine.verify request).Returns := by
  unfold verify
  cases given : engine.regression with
  | none => exact cycles_returns never _ _
  | some guard =>
      refine (await_returns (never.regression guard given request).1).bind fun baseline => ?_
      simp only
      split
      · exact Returns.pure
      · exact cycles_returns never _ _

end Returning

theorem recorded_of_tells {report : VerificationReport} {trace : List VerificationEvent}
    {baseline : Option StageResult} {rounds : List Round}
    (guarded : baseline.isSome = engine.regression.isSome)
    (tells : report.account.Tells engine.rootCause.isSome baseline rounds trace)
    (attempts : report.attempts ≤ engine.limits.maxCorrectionAttempts)
    (cycles : rounds.length ≤ engine.limits.maxCorrectionAttempts + 1) :
    BoundedAndRecorded engine report trace baseline rounds where
  guarded := guarded
  tells := tells
  cycles := cycles
  attempts := attempts
  calls := tells.countP_corrections
  records := tells.length_corrections

section Loop
variable {baseline : Option StageResult} {rounds : List Round} {account : Account}
variable {progress next : Progress σ} {results : List StageResult}

theorem last_round {report : VerificationReport}
    (guarded : baseline.isSome = engine.regression.isSome)
    (tells : account.Tells engine.rootCause.isSome baseline rounds progress.trace)
    (turns : rounds.length = account.attempts)
    (within : account.attempts ≤ engine.limits.maxCorrectionAttempts)
    (called : next.trace = progress.trace ++
      cycleEvents engine.regression.isSome VerificationStage.all results)
    (each : results.length = VerificationStage.all.length)
    (corrections : report.corrections = account.corrections)
    (attempts : report.attempts = account.attempts)
    (failures : report.failures =
      account.failures ++ (Round.failure { results := results }).toList) :
    ∃ rounds, BoundedAndRecorded engine report next.trace baseline rounds := by
  have numbered : report.account.corrections.map CorrectionRecord.attempt =
      List.range' 1 report.account.attempts := by
    simpa [VerificationReport.account, corrections, attempts] using tells.numbered
  have told := tells.turn { results := results } report.account each attempts numbered failures
  have same : next.trace = progress.trace ++
      Round.events baseline.isSome engine.rootCause.isSome { results := results } := by
    simp [called, Round.events, guarded]
  rw [← same] at told
  refine ⟨_, engine.recorded_of_tells guarded told (attempts.trans_le within) ?_⟩
  rw [List.length_append, List.length_singleton, turns]
  exact Nat.succ_le_succ within

theorem next_round {following : Account} {changes : List String} {checked : StageResult}
    {record : CorrectionRecord} {failed : StageResult}
    (guarded : baseline.isSome = engine.regression.isSome)
    (tells : account.Tells engine.rootCause.isSome baseline rounds progress.trace)
    (called : next.trace = progress.trace ++
      (cycleEvents engine.regression.isSome VerificationStage.all results ++
        ((if engine.rootCause.isSome then [.analyzed] else []) ++
          [.corrected changes, .validated checked])))
    (each : results.length = VerificationStage.all.length)
    (failing : results.find? (fun stage => !stage.passed) = some failed)
    (corrections : following.corrections = account.corrections ++ [record])
    (number : record.attempt = account.attempts + 1)
    (attempts : following.attempts = account.attempts + 1)
    (failures : following.failures =
      account.failures ++ [Text.orElse failed.detail "verification stage failed"]) :
    following.Tells engine.rootCause.isSome baseline
      (rounds ++ [{ results := results, correction := some (changes, checked) }])
      next.trace := by
  have numbered : following.corrections.map CorrectionRecord.attempt =
      List.range' 1 following.attempts := by
    rw [corrections, attempts, List.map_append, tells.numbered, List.range'_1_concat,
      Nat.add_comm 1, ← number]
    rfl
  have told := tells.turn { results := results, correction := some (changes, checked) } following
    each attempts numbered (by simp [failures, Round.failure, failing])
  have same : next.trace = progress.trace ++ Round.events baseline.isSome
      engine.rootCause.isSome { results := results, correction := some (changes, checked) } := by
    rw [called, guarded]
    rfl
  rwa [← same] at told

end Loop

/-- The loop, from a point where each round so far has had its correction. -/
theorem cycles_recorded {baseline : Option StageResult}
    (guarded : baseline.isSome = engine.regression.isSome) (remaining : ℕ) (account : Account)
    (progress : Progress σ) (rounds : List Round)
    (tells : account.Tells engine.rootCause.isSome baseline rounds progress.trace)
    (turns : rounds.length = account.attempts)
    (left : account.attempts + remaining = engine.limits.maxCorrectionAttempts) :
    (engine.cycles request remaining account).Ends progress
      (fun report next => ∃ rounds, BoundedAndRecorded engine report next.trace baseline rounds)
      fun _ _ => True := by
  refine engine.cycles_ends
    (fun remaining account now => ∃ rounds : List Round,
      account.Tells engine.rootCause.isSome baseline rounds now.trace ∧
        rounds.length = account.attempts ∧
        account.attempts + remaining = engine.limits.maxCorrectionAttempts)
    ?passes ?spent ?corrects request remaining account progress ⟨rounds, tells, turns, left⟩
  case passes =>
    intro _ account now next results ⟨rounds, tells, turns, left⟩ called each passed
    exact engine.last_round guarded tells turns (Nat.le.intro left) called each rfl rfl
      (by simp [report, Round.failure, passed])
  case spent =>
    intro account now next results failed ⟨rounds, tells, turns, left⟩ called each failing
    exact engine.last_round guarded tells turns (Nat.le.intro left) called each rfl rfl
      (by simp [Account.escalate, Account.failedRound, Round.failure, failing])
  case corrects =>
    intro remaining account now next results failed record changes checked
      ⟨rounds, tells, turns, left⟩ called each failing number
    let round : Round := { results := results, correction := some (changes, checked) }
    have told : ((account.failedRound results failed).corrected record).Tells
        engine.rootCause.isSome baseline (rounds ++ [round]) next.trace :=
      engine.next_round guarded tells called each failing rfl number rfl rfl
    have more : (rounds ++ [round]).length = account.attempts + 1 := by
      rw [List.length_append, List.length_singleton, turns]
    have onwards : account.attempts + 1 + remaining = engine.limits.maxCorrectionAttempts := by
      omega
    refine ⟨⟨_, engine.recorded_of_tells guarded told ?_ ?_⟩, _, told, more, onwards⟩
    · exact Nat.le.intro onwards
    · rw [more]
      exact Nat.succ_le_succ (Nat.le.intro left)

theorem verify_recorded (world : σ) :
    (engine.verify request).Ends { world := world }
      (fun report next => ∃ baseline rounds,
        BoundedAndRecorded engine report next.trace baseline rounds)
      fun _ _ => True := by
  unfold verify
  cases given : engine.regression with
  | none =>
      have start : Account.Tells {} engine.rootCause.isSome none [] [] :=
        ⟨rfl, by simp, rfl, rfl, rfl⟩
      refine (engine.cycles_recorded (by rw [given]; rfl) _ {} _ [] start rfl
        (Nat.zero_add _)).mono ?_ fun _ _ _ => trivial
      intro report next recorded
      exact ⟨none, recorded⟩
  | some guard =>
      simp only [ends_bind]
      apply await_ends
      intro baseline later
      cases passed : baseline.passed with
      | false =>
          refine ⟨some baseline, [], engine.recorded_of_tells (by rw [given]; rfl) ?_
            (Nat.zero_le _) (Nat.zero_le _)⟩
          exact ⟨rfl, by simp, rfl, rfl, by simp [VerificationReport.account, passed,
            Account.escalate]⟩
      | true =>
          have start : Account.Tells { stages := [baseline] } engine.rootCause.isSome
              (some baseline) [] [.baseline baseline] :=
            ⟨rfl, by simp, rfl, rfl, by simp [passed]⟩
          refine (engine.cycles_recorded (by rw [given]; rfl) _ _ ⟨later, _⟩ [] start rfl
            (Nat.zero_add _)).mono ?_ fun _ _ _ => trivial
          intro report next recorded
          exact ⟨some baseline, recorded⟩

/-- When nobody raises, `verify` returns, within its limit, and its report accounts
for every call. -/
theorem bounded_and_recorded (never : engine.NeverRaises) (request : VerificationRequest)
    (world : σ) :
    ∃ report after baseline rounds,
      engine.verify request { world := world } = .ok report after ∧
        BoundedAndRecorded engine report after.trace baseline rounds := by
  obtain ⟨report, after, returned⟩ := (verify_returns never).ended { world := world }
  obtain ⟨baseline, rounds, recorded⟩ := (engine.verify_recorded world).of_ok returned
  exact ⟨report, after, baseline, rounds, returned, recorded⟩

end VerificationEngine

theorem secondCallFails_neverRaises : secondCallFails.NeverRaises where
  verifier := fun _ _ _ => ⟨_, _, rfl⟩
  correction := fun _ _ _ => ⟨_, _, rfl⟩
  rootCause := by
    intro analyzer given
    cases given
  regression := by
    intro guard given request
    obtain rfl := Option.some.inj given
    exact ⟨fun _ => ⟨_, _, rfl⟩, fun _ => ⟨_, _, rfl⟩⟩

theorem bounded_and_recorded_rename :
    ∃ report after baseline rounds,
      secondCallFails.verify renameRequest { world := 0 } = .ok report after ∧
        BoundedAndRecorded secondCallFails report after.trace baseline rounds :=
  secondCallFails.bounded_and_recorded secondCallFails_neverRaises renameRequest 0

end Eis.Verification
