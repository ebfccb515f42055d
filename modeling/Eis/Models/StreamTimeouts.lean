import Eis.Models.Streams

/-!
# Streams that are late

`_stream_with_timeout` waits for each chunk no longer than the timeout of the request.  Its
`TimeoutError` is no `ModelError`, and neither is one that the provider raises itself, so
`stream` lets both through.
-/

set_option autoImplicit false

namespace Eis.Models

variable {τ β ε : Type}

inductive ProviderEnding (ε : Type) where
  | completed
  /-- A builtin `TimeoutError` of the provider's own, not that of `wait_for`. -/
  | timeoutError
  | modelError (error : ModelError)
  /-- Any other exception. -/
  | raised (error : ε)

/-- What a provider streams: each chunk and its end after the seconds it takes. -/
structure ProviderStream (ε : Type) where
  arrivals : List (ℚ × String)
  closing : ℚ
  ending : ProviderEnding ε

def ProviderEnding.attemptEnding : ProviderEnding ε → AttemptEnding ε
  | .completed => .completed
  | .timeoutError => .timedOut
  | .modelError error => .modelError error
  | .raised error => .raised error

theorem ProviderEnding.attemptEnding_timedOut_iff (ending : ProviderEnding ε) :
    ending.attemptEnding = .timedOut ↔ ending = .timeoutError := by
  cases ending <;> simp [attemptEnding]

def ProviderStream.waits (stream : ProviderStream ε) : List ℚ :=
  stream.arrivals.map Prod.fst ++ [stream.closing]

section Timeout
variable (late : ℚ → ℚ → Bool) (timeout : Option ℚ)

/-- `wait_for` gives up: `late` says which waits go beyond a timeout. -/
def expires (seconds : ℚ) : Bool :=
  match timeout with
  | none => false
  | some limit => late limit seconds

def forward (closing : ℚ) (ending : AttemptEnding ε) : List (ℚ × String) → Attempt ε
  | [] => ⟨[], if expires late timeout closing then .timedOut else ending⟩
  | (seconds, chunk) :: rest =>
      if expires late timeout seconds then ⟨[], .timedOut⟩
      else
        let later := forward closing ending rest
        { later with chunks := chunk :: later.chunks }

def streamWithTimeout (stream : ProviderStream ε) : Attempt ε :=
  forward late timeout stream.closing stream.ending.attemptEnding stream.arrivals

/-- A stream times out just where one of its waits is too long, or where the provider
raises a `TimeoutError` itself. -/
theorem streamWithTimeout_timedOut_iff (stream : ProviderStream ε) :
    (streamWithTimeout late timeout stream).ending = .timedOut ↔
      (∃ seconds ∈ stream.waits, expires late timeout seconds = true) ∨
        stream.ending = .timeoutError := by
  have own := stream.ending.attemptEnding_timedOut_iff
  unfold streamWithTimeout ProviderStream.waits
  induction stream.arrivals with
  | nil =>
      rw [forward]
      by_cases closes : expires late timeout stream.closing = true
      · simp [closes]
      · simp [closes, own]
  | cons arrival rest ih =>
      obtain ⟨seconds, chunk⟩ := arrival
      rw [forward]
      by_cases gone : expires late timeout seconds = true
      · simp [gone]
      · simpa [gone] using ih

end Timeout

/-! ## Timeouts of a whole stream -/

/-- A timeout is treated as in the other calls: the attempt is repeated while attempts
remain and nothing has been delivered, and otherwise the stream ends with a
`ModelTimeoutError`; a `TimeoutError` never ends it. -/
structure TimeoutsStructured (policy : RetryPolicy) (model : ℕ → Attempt ε)
    (streamed : Streamed ε) : Prop where
  caught : streamed.ending ≠ .timedOut
  retried : ∀ n, 1 ≤ n → n ≤ streamed.attempts → (model n).ending = .timedOut →
    n < policy.maxAttempts → (∀ k, 1 ≤ k → k ≤ n → (model k).chunks = []) →
      (∃ seconds, policy.delay n = .ok seconds) → n < streamed.attempts
  final : ∀ n, 1 ≤ n → n ≤ streamed.attempts → (model n).ending = .timedOut →
    (policy.maxAttempts ≤ n ∨ ∃ k, 1 ≤ k ∧ k ≤ n ∧ (model k).chunks ≠ []) →
      streamed.attempts = n ∧ ∃ error, streamed.ending = .modelError error ∧ error.kind = .timeout

/-- Attempt `n` is made: all before it failed and were repeated. -/
def Reached (policy : RetryPolicy) (model : ℕ → Attempt ε) (n : ℕ) : Prop :=
  1 ≤ n ∧ ∀ k, 1 ≤ k → k < n → Retried policy model k

section Loop
variable {policy : RetryPolicy} {model : ℕ → Attempt ε}

theorem not_retried_of_timedOut {n : ℕ} (timedOut : (model n).ending = .timedOut) :
    ¬ Retried policy model n := by
  rintro ⟨⟨error, failed, _⟩, _⟩
  rw [timedOut] at failed
  cases failed

theorem timeouts_structured_iff :
    TimeoutsStructured policy model (streamLoop policy model 0) ↔
      ∀ n, Reached policy model n → (model n).ending ≠ .timedOut := by
  obtain ⟨last, positive, between, ends⟩ := @streamLoop_ends _ policy model 0
  constructor
  · intro structured n reached timedOut
    have same : n = last := by
      rcases lt_trichotomy n last with before | same | after
      · exact absurd (between n reached.1 before) (not_retried_of_timedOut timedOut)
      · exact same
      · exact absurd (reached.2 last positive after) ends.stopped
    subst same
    exact structured.caught (ends.timedOut.mpr timedOut)
  · intro never
    have whole : ∀ n, 1 ≤ n → n ≤ (streamLoop policy model 0).attempts →
        (model n).ending ≠ .timedOut := by
      intro n first within
      rw [ends.attempts] at within
      exact never n ⟨first, fun k after before => between k after (by omega)⟩
    refine { caught := ?caught, retried := ?retried, final := ?final }
    case caught =>
      rw [Ne, ends.timedOut]
      exact never last ⟨positive, between⟩
    case retried =>
      intro n first within timedOut
      exact absurd timedOut (whole n first within)
    case final =>
      intro n first within timedOut
      exact absurd timedOut (whole n first within)

end Loop

/-- For every provider, timeout and policy: timeouts are structured exactly when none of
the attempts that are made is late or ends with a `TimeoutError` of the provider's own. -/
theorem stream_timeouts_structured_iff (s : ReliableModel τ β ε) (request : Request)
    (late : ℚ → ℚ → Bool) (timeout : Option ℚ) (provider : ℕ → ProviderStream ε) (uuid : String)
    (started now : ℚ) :
    TimeoutsStructured s.policy (fun n => streamWithTimeout late timeout (provider n))
        (s.stream request (fun n => streamWithTimeout late timeout (provider n)) uuid started
          now).1 ↔
      ∀ n, Reached s.policy (fun n => streamWithTimeout late timeout (provider n)) n →
        (∀ seconds ∈ (provider n).waits, expires late timeout seconds = false) ∧
          (provider n).ending ≠ .timeoutError := by
  rw [stream_loop, timeouts_structured_iff]
  refine forall_congr' fun n => forall_congr' fun _ => ?_
  rw [Ne, streamWithTimeout_timedOut_iff, not_or]
  simp

/-! ### A chunk that is late -/

def slowProvider (_ : ℕ) : ProviderStream Unit where
  arrivals := [(0, "The "), (5, "answer")]
  closing := 0
  ending := .completed

def slowStream : Streamed Unit :=
  (reliable.stream ⟨none⟩
    (fun n => streamWithTimeout (fun limit seconds => decide (limit < seconds)) (some 1)
      (slowProvider n)) "uuid" 0 0).1

theorem late_chunk_raises_timeout :
    slowStream = ⟨["The "], 1, .timedOut⟩ ∧
      ¬ TimeoutsStructured reliable.policy
        (fun n => streamWithTimeout (fun limit seconds => decide (limit < seconds)) (some 1)
          (slowProvider n)) slowStream := by
  have ended : slowStream = ⟨["The "], 1, .timedOut⟩ := by
    unfold slowStream
    rw [stream_loop, streamLoop]
    rfl
  refine ⟨ended, fun structured => structured.caught ?_⟩
  rw [ended]

end Eis.Models
