import Eis.Models.Runtime

/-!
# Bounded retries and exact accounts

What a trace of events says about the calls, the traces and the usage ledger of
a `ReliableModel`: how often each call invoked the provider and with what
outcomes, and which responses were returned.
-/

set_option autoImplicit false

namespace Eis.Models

open Transition

variable {τ β ε : Type}

def InvocationOutcome.retryable : InvocationOutcome β ε → Bool
  | .timedOut => true
  | .modelError error => error.retryable
  | _ => false

def InvocationOutcome.result (provider : String) (operation : Operation) :
    InvocationOutcome β ε → CallResult β ε
  | .returned response => .returned response
  | .timedOut => .modelError (ReliableModel.modelTimeoutError provider operation)
  | .modelError error => .modelError error
  | .raised error => .raised error

section Trace
variable [DecidableEq τ]

def CallEvent.invokes (task : τ) : CallEvent τ β ε → Bool
  | .start other _ _ _ _ => decide (other = task)
  | .wake other => decide (other = task)
  | .settle _ _ _ => false

def CallEvent.outcome? (task : τ) : CallEvent τ β ε → Option (InvocationOutcome β ε)
  | .settle other outcome _ => if other = task then some outcome else none
  | _ => none

omit [DecidableEq τ] in
def CallEvent.success? : CallEvent τ β ε → Option (τ × Response β)
  | .settle task (.returned response) _ => some (task, response)
  | _ => none

def invocations (trace : List (CallEvent τ β ε)) (task : τ) : ℕ :=
  trace.countP (CallEvent.invokes task)

def outcomes (trace : List (CallEvent τ β ε)) (task : τ) : List (InvocationOutcome β ε) :=
  trace.filterMap (CallEvent.outcome? task)

end Trace

def successes (trace : List (CallEvent τ β ε)) : List (τ × Response β) :=
  trace.filterMap CallEvent.success?

structure ReliableLaw [DecidableEq τ] (policy : RetryPolicy) (provider : String)
    (trace : List (CallEvent τ β ε)) (s : ReliableModel τ β ε) : Prop where
  bounded : ∀ task, s.calls task ≠ .fresh →
    1 ≤ invocations trace task ∧ invocations trace task ≤ policy.maxAttempts
  repeated : ∀ task i, i + 1 < invocations trace task →
    ∃ outcome, (outcomes trace task)[i]? = some outcome ∧ outcome.retryable = true
  finished : ∀ task call attempts result, s.calls task = .done call attempts result →
    (outcomes trace task).length = invocations trace task ∧
      ∃ last, (outcomes trace task).getLast? = some last ∧
        result = last.result provider call.operation
  requests : s.usage.requests = (successes trace).length
  inputTokens : s.usage.inputTokens =
    ((successes trace).map fun success => success.2.usage.inputTokens).sum
  outputTokens : s.usage.outputTokens =
    ((successes trace).map fun success => success.2.usage.outputTokens).sum
  estimatedCost : s.usage.estimatedCost =
    ((successes trace).map fun success => success.2.usage.cost).sum
  traced : s.traces.map ModelTrace.attempts =
    (successes trace).map fun success => invocations trace success.1

/-- The delay before the next attempt is a float, whenever there is one. -/
def DelayDefined (s : ReliableModel τ β ε) : CallEvent τ β ε → Prop
  | .settle task outcome _ => ∀ call attempts, s.calls task = .invoking call attempts →
      outcome.retryable = true → attempts < s.policy.maxAttempts →
        ∃ seconds, s.policy.delay attempts = .ok seconds
  | _ => True

/-- A call that has invoked the provider `invoked` times, with these outcomes. -/
def CallState.Matches (policy : RetryPolicy) (provider : String) (invoked : ℕ)
    (ended : List (InvocationOutcome β ε)) : CallState β ε → Prop
  | .fresh => invoked = 0 ∧ ended = []
  | .invoking _ attempts => invoked = attempts ∧ ended.length + 1 = attempts ∧
      attempts ≤ policy.maxAttempts ∧ ∀ outcome ∈ ended, outcome.retryable = true
  | .sleeping _ attempts => invoked = attempts ∧ ended.length = attempts ∧
      1 ≤ attempts ∧ attempts < policy.maxAttempts ∧ ∀ outcome ∈ ended, outcome.retryable = true
  | .done call attempts result => invoked = attempts ∧ attempts ≤ policy.maxAttempts ∧
      ∃ retried last, ended = retried ++ [last] ∧ retried.length + 1 = attempts ∧
        (∀ outcome ∈ retried, outcome.retryable = true) ∧
        result = last.result provider call.operation

structure CallsInv [DecidableEq τ] (policy : RetryPolicy) (provider : String)
    (trace : List (CallEvent τ β ε)) (s : ReliableModel τ β ε) : Prop where
  samePolicy : s.policy = policy
  sameProvider : s.metadata.provider = provider
  calls : ∀ task, (s.calls task).Matches policy provider (invocations trace task)
    (outcomes trace task)
  usage : s.usage =
    (successes trace).foldl (fun ledger success => ledger.record success.2.usage) {}
  traces : s.traces.map ModelTrace.attempts =
    (successes trace).map fun success => invocations trace success.1
  done : ∀ success ∈ successes trace, ∃ call attempts result,
    s.calls success.1 = .done call attempts result

section Snoc
variable {trace : List (CallEvent τ β ε)}

theorem successes_snoc (event : CallEvent τ β ε) :
    successes (trace ++ [event]) = successes trace ++ event.success?.toList := by
  unfold successes
  cases success : event.success? <;> simp [success]

variable [DecidableEq τ]

theorem invocations_snoc (event : CallEvent τ β ε) (task : τ) :
    invocations (trace ++ [event]) task =
      invocations trace task + if event.invokes task then 1 else 0 := by
  simp [invocations, List.countP_append, List.countP_singleton]

theorem outcomes_snoc (event : CallEvent τ β ε) (task : τ) :
    outcomes (trace ++ [event]) task = outcomes trace task ++ (event.outcome? task).toList := by
  unfold outcomes
  cases outcome : event.outcome? task <;> simp [outcome]

end Snoc

theorem foldl_record (recorded : List (τ × Response β)) (ledger : UsageLedger) :
    recorded.foldl (fun ledger success => ledger.record success.2.usage) ledger =
      { requests := ledger.requests + recorded.length
        inputTokens := ledger.inputTokens +
          (recorded.map fun success => success.2.usage.inputTokens).sum
        outputTokens := ledger.outputTokens +
          (recorded.map fun success => success.2.usage.outputTokens).sum
        estimatedCost := ledger.estimatedCost +
          (recorded.map fun success => success.2.usage.cost).sum } := by
  induction recorded generalizing ledger with
  | nil => simp
  | cons success rest ih =>
      rw [List.foldl_cons, ih]
      simp only [UsageLedger.record, List.map_cons, List.sum_cons, List.length_cons,
        UsageLedger.mk.injEq]
      exact ⟨by omega, by omega, by omega, add_assoc _ _ _⟩

section Steps
variable [DecidableEq τ] {policy : RetryPolicy} {provider : String}
  {trace : List (CallEvent τ β ε)} {s t : ReliableModel τ β ε}

theorem CallState.Matches.bounded {invoked : ℕ} {ended : List (InvocationOutcome β ε)}
    {state : CallState β ε} (matched : state.Matches policy provider invoked ended)
    (begun : state ≠ .fresh) : 1 ≤ invoked ∧ invoked ≤ policy.maxAttempts := by
  cases state with
  | fresh => exact absurd rfl begun
  | invoking call attempts =>
      obtain ⟨rfl, length, within, _⟩ := matched
      exact ⟨by omega, within⟩
  | sleeping call attempts =>
      obtain ⟨rfl, _, positive, within, _⟩ := matched
      exact ⟨positive, by omega⟩
  | done call attempts result =>
      obtain ⟨rfl, within, retried, last, _, length, _⟩ := matched
      exact ⟨by omega, within⟩

theorem CallState.Matches.repeated {invoked i : ℕ} {ended : List (InvocationOutcome β ε)}
    {state : CallState β ε} (matched : state.Matches policy provider invoked ended)
    (later : i + 1 < invoked) :
    ∃ outcome, ended[i]? = some outcome ∧ outcome.retryable = true := by
  cases state with
  | fresh =>
      obtain ⟨rfl, _⟩ := matched
      omega
  | invoking call attempts =>
      obtain ⟨rfl, length, _, retryable⟩ := matched
      have within : i < ended.length := by omega
      exact ⟨ended[i], List.getElem?_eq_getElem within, retryable _ (List.getElem_mem within)⟩
  | sleeping call attempts =>
      obtain ⟨rfl, length, _, _, retryable⟩ := matched
      have within : i < ended.length := by omega
      exact ⟨ended[i], List.getElem?_eq_getElem within, retryable _ (List.getElem_mem within)⟩
  | done call attempts result =>
      obtain ⟨rfl, _, retried, last, rfl, length, retryable, _⟩ := matched
      have within : i < retried.length := by omega
      refine ⟨retried[i], ?_, retryable _ (List.getElem_mem within)⟩
      rw [List.getElem?_append_left within, List.getElem?_eq_getElem within]

theorem CallsInv.law (inv : CallsInv policy provider trace s) :
    ReliableLaw policy provider trace s := by
  have usage := inv.usage
  rw [foldl_record] at usage
  constructor
  case bounded => exact fun task begun => (inv.calls task).bounded begun
  case repeated => exact fun task i later => (inv.calls task).repeated later
  case finished =>
    intro task call attempts result done
    have matched := inv.calls task
    rw [done] at matched
    obtain ⟨invoked, _, retried, last, ended, length, _, same⟩ := matched
    rw [ended, invoked]
    exact ⟨by simpa using length, last, by simp, same⟩
  case requests => simp [usage]
  case inputTokens => simp [usage]
  case outputTokens => simp [usage]
  case estimatedCost => simp [usage]
  case traced => exact inv.traces

theorem CallsInv.undone (inv : CallsInv policy provider trace s) {task : τ}
    (under : ∀ call attempts result, s.calls task ≠ .done call attempts result) :
    ∀ success ∈ successes trace, success.1 ≠ task := by
  intro success member same
  obtain ⟨call, attempts, result, done⟩ := inv.done success member
  exact under call attempts result (same ▸ done)

theorem CallsInv.move (inv : CallsInv policy provider trace s) {task : τ}
    {state : CallState β ε} {event : CallEvent τ β ε}
    (under : ∀ call attempts result, s.calls task ≠ .done call attempts result)
    (failed : event.success? = none)
    (others : ∀ other, task ≠ other → event.invokes other = false ∧ event.outcome? other = none)
    (matched : state.Matches policy provider (invocations (trace ++ [event]) task)
      (outcomes (trace ++ [event]) task)) :
    CallsInv policy provider (trace ++ [event]) (s.setCall task state) := by
  have apart := inv.undone under
  have sameSuccesses : successes (trace ++ [event]) = successes trace := by
    simp [successes_snoc, failed]
  constructor
  case samePolicy => exact inv.samePolicy
  case sameProvider => exact inv.sameProvider
  case calls =>
    intro other
    by_cases own : task = other
    · subst own
      simpa [ReliableModel.setCall] using matched
    · obtain ⟨quiet, unsettled⟩ := others other own
      simpa [ReliableModel.setCall, Function.update_of_ne (Ne.symm own), invocations_snoc,
        outcomes_snoc, quiet, unsettled] using inv.calls other
  case usage =>
    rw [sameSuccesses]
    exact inv.usage
  case traces =>
    rw [sameSuccesses]
    refine inv.traces.trans (List.map_congr_left fun success member => ?_)
    simp [invocations_snoc, (others success.1 (Ne.symm (apart success member))).1]
  case done =>
    intro success member
    rw [sameSuccesses] at member
    obtain ⟨call, attempts, result, done⟩ := inv.done success member
    refine ⟨call, attempts, result, ?_⟩
    simpa [ReliableModel.setCall, Function.update_of_ne (apart success member)] using done

section Settle
variable {task : τ} {call : Call} {attempts : ℕ} {outcome : InvocationOutcome β ε} {now : ℚ}

theorem settle_others (other : τ) (different : task ≠ other) :
    (CallEvent.settle task outcome now).invokes other = false ∧
      (CallEvent.settle task outcome now).outcome? other = none := by
  simp [CallEvent.invokes, CallEvent.outcome?, different]

theorem invocations_settle (other : τ) :
    invocations (trace ++ [.settle task outcome now]) other = invocations trace other := by
  simp [invocations_snoc, CallEvent.invokes]

theorem outcomes_settle :
    outcomes (trace ++ [.settle task outcome now]) task = outcomes trace task ++ [outcome] := by
  simp [outcomes_snoc, CallEvent.outcome?]

theorem CallsInv.succeed (inv : CallsInv policy provider trace s) {response : Response β}
    (invoking : s.calls task = .invoking call attempts) :
    CallsInv policy provider (trace ++ [.settle task (.returned response) now])
      (s.settle task call attempts (.returned response) now) := by
  have under : ∀ call attempts result, s.calls task ≠ .done call attempts result := by
    simp [invoking]
  have apart := inv.undone under
  have sameSuccesses : successes (trace ++ [.settle task (.returned response) now]) =
      successes trace ++ [(task, response)] := by simp [successes_snoc, CallEvent.success?]
  have matched := inv.calls task
  rw [invoking] at matched
  obtain ⟨invoked, length, within, retryable⟩ := matched
  constructor
  case samePolicy => exact inv.samePolicy
  case sameProvider => exact inv.sameProvider
  case calls =>
    intro other
    rw [invocations_settle]
    by_cases own : task = other
    · subst own
      simp only [ReliableModel.settle, ReliableModel.setCall, Function.update_self]
      exact ⟨invoked, within, outcomes trace task, .returned response, outcomes_settle, length,
        retryable, rfl⟩
    · simpa [ReliableModel.settle, ReliableModel.setCall, ReliableModel.record,
        ReliableModel.appendTrace, Function.update_of_ne (Ne.symm own), outcomes_snoc,
        CallEvent.outcome?, own] using inv.calls other
  case usage =>
    rw [sameSuccesses, List.foldl_append, ← inv.usage]
    rfl
  case traces =>
    simp only [sameSuccesses, invocations_settle, List.map_append]
    have earlier := inv.traces
    simp [ReliableModel.settle, ReliableModel.setCall, ReliableModel.record,
      ReliableModel.appendTrace, earlier, invoked]
  case done =>
    intro success member
    rw [sameSuccesses] at member
    rcases List.mem_append.mp member with old | new
    · obtain ⟨call, attempts, result, done⟩ := inv.done success old
      refine ⟨call, attempts, result, ?_⟩
      simpa [ReliableModel.settle, ReliableModel.setCall, ReliableModel.record,
        ReliableModel.appendTrace, Function.update_of_ne (apart success old)] using done
    · obtain rfl : success = (task, response) := by simpa using new
      exact ⟨call, attempts, .returned response, by
        simp [ReliableModel.settle, ReliableModel.setCall]⟩

theorem CallsInv.fail (inv : CallsInv policy provider trace s)
    (invoking : s.calls task = .invoking call attempts)
    (failed : (CallEvent.settle task outcome now).success? = none) :
    CallsInv policy provider (trace ++ [.settle task outcome now])
      (s.setCall task (.done call attempts (outcome.result provider call.operation))) := by
  have matched := inv.calls task
  rw [invoking] at matched
  obtain ⟨invoked, length, within, retryable⟩ := matched
  refine inv.move (by simp [invoking]) failed settle_others ?_
  rw [invocations_settle, outcomes_settle]
  exact ⟨invoked, within, outcomes trace task, outcome, rfl, length, retryable, rfl⟩

theorem CallsInv.sleep (inv : CallsInv policy provider trace s)
    (invoking : s.calls task = .invoking call attempts)
    (failed : (CallEvent.settle task outcome now).success? = none)
    (again : outcome.retryable = true) (fewer : attempts < policy.maxAttempts)
    (defined : ∃ seconds, s.policy.delay attempts = .ok seconds) :
    CallsInv policy provider (trace ++ [.settle task outcome now])
      (s.retry task call attempts) := by
  have matched := inv.calls task
  rw [invoking] at matched
  obtain ⟨invoked, length, _, retryable⟩ := matched
  obtain ⟨seconds, delay⟩ := defined
  unfold ReliableModel.retry
  rw [delay]
  refine inv.move (by simp [invoking]) failed settle_others ?_
  rw [invocations_settle, outcomes_settle]
  refine ⟨invoked, by simp [length], by omega, fewer, fun other member => ?_⟩
  rcases List.mem_append.mp member with old | new
  · exact retryable other old
  · obtain rfl : other = outcome := by simpa using new
    exact again

theorem CallsInv.settle (inv : CallsInv policy provider trace s)
    (invoking : s.calls task = .invoking call attempts)
    (defined : outcome.retryable = true → attempts < s.policy.maxAttempts →
      ∃ seconds, s.policy.delay attempts = .ok seconds) :
    CallsInv policy provider (trace ++ [.settle task outcome now])
      (s.settle task call attempts outcome now) := by
  have samePolicy := inv.samePolicy
  cases outcome with
  | returned response => exact inv.succeed invoking
  | timedOut =>
      simp only [ReliableModel.settle, samePolicy, inv.sameProvider]
      split
      · exact inv.fail invoking rfl
      · rename_i last
        have fewer := not_le.mp last
        exact inv.sleep invoking rfl rfl fewer (defined rfl (samePolicy ▸ fewer))
  | modelError error =>
      simp only [ReliableModel.settle, samePolicy]
      split
      · exact inv.fail invoking rfl
      · rename_i last
        simp only [not_or, Bool.not_eq_false, not_le] at last
        obtain ⟨again, fewer⟩ := last
        exact inv.sleep invoking rfl again fewer (defined again (samePolicy ▸ fewer))
  | raised error => exact inv.fail invoking rfl

end Settle

theorem CallsInv.step {event : CallEvent τ β ε} (inv : CallsInv policy provider trace s)
    (defined : DelayDefined s event) (fired : callStep s event t) :
    CallsInv policy provider (trace ++ [event]) t := by
  unfold callStep ReliableModel.next at fired
  cases event with
  | start task operation request uuid now =>
      have matched := inv.calls task
      cases state : s.calls task with
      | fresh =>
          simp only [state, Option.some.injEq] at fired
          rw [state] at matched
          obtain ⟨invoked, ended⟩ := matched
          refine fired ▸ inv.move (by simp [state]) rfl ?_ ?_
          · intro other different
            simp [CallEvent.invokes, CallEvent.outcome?, different]
          · have positive := policy.attemptsPositive
            simp [CallState.Matches, invocations_snoc, outcomes_snoc, CallEvent.invokes,
              CallEvent.outcome?, invoked, ended, positive]
      | invoking _ _ | sleeping _ _ | done _ _ _ => simp [state] at fired
  | settle task outcome now =>
      cases state : s.calls task with
      | invoking call attempts =>
          simp only [state, Option.some.injEq] at fired
          exact fired ▸ inv.settle state (defined call attempts state)
      | fresh | sleeping _ _ | done _ _ _ => simp [state] at fired
  | wake task =>
      have matched := inv.calls task
      cases state : s.calls task with
      | sleeping call attempts =>
          simp only [state, Option.some.injEq] at fired
          rw [state] at matched
          obtain ⟨invoked, length, _, fewer, retryable⟩ := matched
          refine fired ▸ inv.move (by simp [state]) rfl ?_ ?_
          · intro other different
            simp [CallEvent.invokes, CallEvent.outcome?, different]
          · simpa [CallState.Matches, invocations_snoc, outcomes_snoc, CallEvent.invokes,
              CallEvent.outcome?, invoked, length, Nat.succ_le_of_lt fewer] using retryable
      | fresh | invoking _ _ | done _ _ _ => simp [state] at fired

/-- With defined delays every call keeps to its policy and ends as its last
invocation did, and the accounts are those of the returned responses. -/
theorem reliable_calls {metadata : ModelMetadata}
    (run : Run (Guarded DelayDefined callStep) (ReliableModel.create metadata (some policy))
      trace s) :
    ReliableLaw policy metadata.provider trace s := by
  have start : CallsInv policy metadata.provider []
      (ReliableModel.create metadata (some policy) : ReliableModel τ β ε) :=
    { samePolicy := rfl
      sameProvider := rfl
      calls := fun _ => ⟨rfl, rfl⟩
      usage := rfl
      traces := rfl
      done := by simp [successes] }
  refine (run.trace_invariant (motive := CallsInv policy metadata.provider) start ?_).law
  intro past a event b inv fired
  exact inv.step fired.1 fired.2

end Steps

def steepPolicy : RetryPolicy where
  maxAttempts := 4
  initialDelay := 0
  multiplier := 2 ^ 512
  attemptsPositive := by decide
  initialNonnegative := Rat.le_refl
  initialLeMax := by norm_num
  multiplierAtLeastOne := one_le_pow₀ (by norm_num)
  jitterNonnegative := Rat.le_refl

theorem steepPolicy_delay_two : ∃ seconds, steepPolicy.delay 2 = .ok seconds := by
  rw [RetryPolicy.delay_eq_ok_iff _ (by decide)]
  have grown : (2 : ℚ) ^ 512 ≤ 2 ^ 970 := pow_le_pow_right₀ (by norm_num) (by decide)
  have factor : (1 : ℚ) < 2 ^ 54 - 1 := by norm_num
  have positive : (0 : ℚ) < 2 ^ 970 := by positivity
  calc steepPolicy.multiplier ^ (2 - 1) = 2 ^ 512 := pow_one _
    _ ≤ 2 ^ 970 := grown
    _ < 2 ^ 970 * (2 ^ 54 - 1) := lt_mul_of_one_lt_right positive factor
    _ = floatLimit := floatLimit_eq.symm

theorem steepPolicy_delay_three : steepPolicy.delay 3 = .error .overflowError := by
  have squared : steepPolicy.multiplier ^ (3 - 1) = 2 ^ 1024 := (pow_mul 2 512 2).symm
  have positive : (0 : ℚ) < 2 ^ 970 := by positivity
  rcases steepPolicy.delay_cases (by decide : 1 ≤ 3) with ⟨finite, _⟩ | ⟨_, overflow⟩
  · rw [squared, floatLimit] at finite
    exact absurd finite (not_lt.mpr (sub_le_self _ positive.le))
  · exact overflow

def oneCall (state : CallState String Unit) : ReliableModel ℕ String Unit :=
  (ReliableModel.create ⟨"fake", "fake"⟩ (some steepPolicy)).setCall 0 state

def firstCall : Call := ⟨.generate, "uuid", 0⟩

theorem oneCall_setCall (state next : CallState String Unit) :
    (oneCall state).setCall 0 next = oneCall next := by
  simp [oneCall, ReliableModel.setCall]

theorem oneCall_calls (state : CallState String Unit) : (oneCall state).calls 0 = state := by
  simp [oneCall, ReliableModel.setCall]

theorem oneCall_start :
    callStep (ReliableModel.create ⟨"fake", "fake"⟩ (some steepPolicy))
      (.start 0 .generate ⟨none⟩ "uuid" 0) (oneCall (.invoking firstCall 1)) := rfl

theorem oneCall_timedOut {attempts : ℕ} (more : attempts < 4) :
    callStep (oneCall (.invoking firstCall attempts)) (.settle 0 .timedOut 1)
      ((oneCall (.invoking firstCall attempts)).retry 0 firstCall attempts) := by
  have again : ¬ steepPolicy.maxAttempts ≤ attempts := not_le.mpr more
  have same : (oneCall (.invoking firstCall attempts)).policy = steepPolicy := rfl
  simp [callStep, ReliableModel.next, oneCall_calls, ReliableModel.settle, same, again]

theorem oneCall_retry {attempts : ℕ}
    (defined : ∃ seconds, steepPolicy.delay attempts = .ok seconds) :
    (oneCall (.invoking firstCall attempts)).retry 0 firstCall attempts =
      oneCall (.sleeping firstCall attempts) := by
  obtain ⟨seconds, delay⟩ := defined
  have same : (oneCall (.invoking firstCall attempts)).policy = steepPolicy := rfl
  simp [ReliableModel.retry, same, delay, oneCall_setCall]

theorem oneCall_wake (attempts : ℕ) :
    callStep (oneCall (.sleeping firstCall attempts)) (.wake 0)
      (oneCall (.invoking firstCall (attempts + 1))) := by
  simp [callStep, ReliableModel.next, oneCall_calls, oneCall_setCall]

def answered : Response String :=
  ⟨"answer", { inputTokens := 3, outputTokens := 2, costNonnegative := unpriced }⟩

def secondAttempt : List (CallEvent ℕ String Unit) :=
  [.start 0 .generate ⟨none⟩ "uuid" 0, .settle 0 .timedOut 1, .wake 0,
    .settle 0 (.returned answered) 2]

theorem reliable_calls_second_attempt :
    ∃ s, Run callStep (ReliableModel.create ⟨"fake", "fake"⟩ (some steepPolicy)) secondAttempt s ∧
      s.usage.inputTokens = 3 ∧ ReliableLaw steepPolicy "fake" secondAttempt s := by
  have first := oneCall_retry ⟨_, steepPolicy.delay_one⟩
  have defined : DelayDefined (oneCall (.invoking firstCall 1)) (.settle 0 .timedOut 1) := by
    intro call attempts state _ _
    rw [oneCall_calls] at state
    obtain ⟨_, rfl⟩ := CallState.invoking.inj state
    exact ⟨_, steepPolicy.delay_one⟩
  have starts : Guarded DelayDefined callStep
      (ReliableModel.create ⟨"fake", "fake"⟩ (some steepPolicy))
      (.start 0 .generate ⟨none⟩ "uuid" 0) (oneCall (.invoking firstCall 1)) :=
    ⟨trivial, oneCall_start⟩
  have sleeps : Guarded DelayDefined callStep (oneCall (.invoking firstCall 1))
      (.settle 0 .timedOut 1) (oneCall (.sleeping firstCall 1)) :=
    ⟨defined, first ▸ oneCall_timedOut (by decide)⟩
  have wakes : Guarded DelayDefined callStep (oneCall (.sleeping firstCall 1)) (.wake 0)
      (oneCall (.invoking firstCall 2)) :=
    ⟨trivial, oneCall_wake 1⟩
  have answers : Guarded DelayDefined callStep (oneCall (.invoking firstCall 2))
      (.settle 0 (.returned answered) 2)
      ((oneCall (.invoking firstCall 2)).settle 0 firstCall 2 (.returned answered) 2) := by
    refine ⟨by simp [DelayDefined, InvocationOutcome.retryable], ?_⟩
    simp [callStep, ReliableModel.next, oneCall_calls]
  have run := (((Run.single starts).snoc sleeps).snoc wakes).snoc answers
  exact ⟨_, run.of_guarded, rfl, reliable_calls run⟩

/-- Three invocations time out, and the third delay is no float. -/
def overflowing : List (CallEvent ℕ String Unit) :=
  [.start 0 .generate ⟨none⟩ "uuid" 0, .settle 0 .timedOut 1, .wake 0, .settle 0 .timedOut 1,
    .wake 0, .settle 0 .timedOut 1]

/-- The call ends in the `OverflowError` of its third delay, not in the timeout
of its last invocation. -/
theorem overflow_ends_call :
    ∃ s, Run callStep (ReliableModel.create ⟨"fake", "fake"⟩ (some steepPolicy)) overflowing s ∧
      s.calls 0 = .done firstCall 3 (.delayError .overflowError) ∧
      ¬ ReliableLaw steepPolicy "fake" overflowing s := by
  have third : (oneCall (.invoking firstCall 3)).retry 0 firstCall 3 =
      oneCall (.done firstCall 3 (.delayError .overflowError)) := by
    have same : (oneCall (.invoking firstCall 3)).policy = steepPolicy := rfl
    simp [ReliableModel.retry, same, steepPolicy_delay_three, oneCall_setCall]
  have first := oneCall_retry ⟨_, steepPolicy.delay_one⟩
  have second := oneCall_retry steepPolicy_delay_two
  have run : Run callStep (ReliableModel.create ⟨"fake", "fake"⟩ (some steepPolicy)) overflowing
      (oneCall (.done firstCall 3 (.delayError .overflowError))) := by
    have started := Run.single oneCall_start
    have slept := started.snoc (first ▸ oneCall_timedOut (by decide))
    have again := (slept.snoc (oneCall_wake 1)).snoc (second ▸ oneCall_timedOut (by decide))
    exact (again.snoc (oneCall_wake 2)).snoc (third ▸ oneCall_timedOut (by decide))
  refine ⟨_, run, oneCall_calls _, fun law => ?_⟩
  obtain ⟨_, last, ended, result⟩ := law.finished 0 _ _ _ (oneCall_calls _)
  cases last <;> cases result

end Eis.Models
