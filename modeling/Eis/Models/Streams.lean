import Eis.Models.Runtime

/-!
# Streams

`stream` wraps the retries around a generator that has yielded already: what a
failed attempt emitted stays in front of what the next one emits.
-/

set_option autoImplicit false

namespace Eis.Models

variable {τ β ε : Type}

inductive AttemptEnding (ε : Type) where
  | completed
  | timedOut
  | modelError (error : ModelError)
  | raised (error : ε)

structure Attempt (ε : Type) where
  chunks : List String
  ending : AttemptEnding ε

inductive StreamEnding (ε : Type) where
  | completed
  | timedOut
  | modelError (error : ModelError)
  | raised (error : ε)
  | delayError (error : DelayError)

structure Streamed (ε : Type) where
  chunks : List String
  attempts : ℕ
  ending : StreamEnding ε

/-- The loop of `stream`, where `model n` is what the provider does on attempt `n`. -/
def streamLoop (policy : RetryPolicy) (model : ℕ → Attempt ε) (attempts : ℕ) : Streamed ε :=
  let chunks := (model (attempts + 1)).chunks
  match (model (attempts + 1)).ending with
  | .completed => ⟨chunks, attempts + 1, .completed⟩
  | .timedOut => ⟨chunks, attempts + 1, .timedOut⟩
  | .raised error => ⟨chunks, attempts + 1, .raised error⟩
  | .modelError error =>
      if error.retryable = false ∨ policy.maxAttempts ≤ attempts + 1 then
        ⟨chunks, attempts + 1, .modelError error⟩
      else
        match policy.delay (attempts + 1) with
        | .error error => ⟨chunks, attempts + 1, .delayError error⟩
        | .ok _ =>
            let later := streamLoop policy model (attempts + 1)
            { later with chunks := chunks ++ later.chunks }
termination_by policy.maxAttempts - attempts
decreasing_by
  rename_i again
  exact Nat.sub_succ_lt_self _ _ (Nat.lt_of_succ_lt (not_le.mp (not_or.mp again).2))

/-- `stream`, run to its end by its consumer. -/
def ReliableModel.stream (s : ReliableModel τ β ε) (request : Request) (model : ℕ → Attempt ε)
    (uuid : String) (started now : ℚ) : Streamed ε × ReliableModel τ β ε :=
  let streamed := streamLoop s.policy model 0
  match streamed.ending with
  | .completed =>
      (streamed, s.appendTrace (request.traceIdOr uuid) "stream" started now streamed.attempts)
  | _ => (streamed, s)

def Retried (policy : RetryPolicy) (model : ℕ → Attempt ε) (n : ℕ) : Prop :=
  (∃ error, (model n).ending = .modelError error ∧ error.retryable = true) ∧
    n < policy.maxAttempts ∧ ∃ seconds, policy.delay n = .ok seconds

def Completes (policy : RetryPolicy) (model : ℕ → Attempt ε) (n : ℕ) : Prop :=
  1 ≤ n ∧ (∀ k, 1 ≤ k → k < n → Retried policy model k) ∧ (model n).ending = .completed

/-- What a stream that ended normally yielded are the chunks of one successful attempt. -/
def Unspliced (model : ℕ → Attempt ε) (streamed : Streamed ε) : Prop :=
  streamed.ending = .completed → ∃ n, 1 ≤ n ∧ n ≤ streamed.attempts ∧
    (model n).ending = .completed ∧ streamed.chunks = (model n).chunks

section Loop
variable {policy : RetryPolicy} {model : ℕ → Attempt ε}

theorem streamLoop_retried {attempts : ℕ} (retried : Retried policy model (attempts + 1)) :
    streamLoop policy model attempts =
      { streamLoop policy model (attempts + 1) with
        chunks := (model (attempts + 1)).chunks ++
          (streamLoop policy model (attempts + 1)).chunks } := by
  obtain ⟨⟨error, failed, retryable⟩, fewer, seconds, delay⟩ := retried
  have again : ¬ (error.retryable = false ∨ policy.maxAttempts ≤ attempts + 1) := by
    simp [retryable, fewer]
  rw [streamLoop]
  simp only [failed, again, delay, if_false]

theorem streamLoop_completes {attempts n : ℕ} (later : attempts < n)
    (retried : ∀ k, attempts < k → k < n → Retried policy model k)
    (completed : (model n).ending = .completed) :
    streamLoop policy model attempts =
      ⟨(List.range' (attempts + 1) (n - attempts)).flatMap fun k => (model k).chunks, n,
        .completed⟩ := by
  induction gap : n - attempts generalizing attempts with
  | zero => omega
  | succ rest ih =>
      by_cases last : attempts + 1 = n
      · obtain rfl : rest = 0 := by omega
        subst last
        rw [streamLoop]
        simp [completed]
      · have more : attempts + 1 < n := by omega
        rw [streamLoop_retried (retried (attempts + 1) (by omega) more),
          ih more (fun k after before => retried k (by omega) before) (by omega),
          List.range'_succ, List.flatMap_cons]

/-- The streamed result ends with attempt `n`, and completes or times out just where that
does. -/
structure EndsWith (policy : RetryPolicy) (model : ℕ → Attempt ε) (n : ℕ)
    (streamed : Streamed ε) : Prop where
  attempts : streamed.attempts = n
  stopped : ¬ Retried policy model n
  completed : streamed.ending = .completed ↔ (model n).ending = .completed
  timedOut : streamed.ending = .timedOut ↔ (model n).ending = .timedOut

theorem streamLoop_stops {attempts : ℕ} (stops : ¬ Retried policy model (attempts + 1)) :
    EndsWith policy model (attempts + 1) (streamLoop policy model attempts) := by
  rw [streamLoop]
  cases ended : (model (attempts + 1)).ending with
  | completed => exact ⟨rfl, stops, by simp [ended], by simp [ended]⟩
  | timedOut => exact ⟨rfl, stops, by simp [ended], by simp [ended]⟩
  | raised error => exact ⟨rfl, stops, by simp [ended], by simp [ended]⟩
  | modelError error =>
      by_cases final : error.retryable = false ∨ policy.maxAttempts ≤ attempts + 1
      · simp only [if_pos final]
        exact ⟨rfl, stops, by simp [ended], by simp [ended]⟩
      · simp only [if_neg final]
        cases delay : policy.delay (attempts + 1) with
        | error overflow => exact ⟨rfl, stops, by simp [ended], by simp [ended]⟩
        | ok seconds =>
            obtain ⟨retryable, fewer⟩ := not_or.mp final
            refine absurd ⟨⟨error, ended, ?_⟩, not_le.mp fewer, seconds, delay⟩ stops
            exact Bool.of_not_eq_false retryable

theorem streamLoop_ends (attempts : ℕ) :
    ∃ n, attempts < n ∧ (∀ k, attempts < k → k < n → Retried policy model k) ∧
      EndsWith policy model n (streamLoop policy model attempts) := by
  induction left : policy.maxAttempts - attempts generalizing attempts with
  | zero =>
      have stops : ¬ Retried policy model (attempts + 1) := by
        rintro ⟨_, fewer, _⟩
        omega
      exact ⟨attempts + 1, by omega, fun k after before => by omega, streamLoop_stops stops⟩
  | succ rest ih =>
      by_cases again : Retried policy model (attempts + 1)
      · obtain ⟨n, later, between, ends⟩ := ih (attempts + 1) (by omega)
        refine ⟨n, by omega, ?_, ?_⟩
        · intro k after before
          by_cases first : k = attempts + 1
          · exact first ▸ again
          · exact between k (by omega) before
        · rw [streamLoop_retried again]
          exact ⟨ends.attempts, ends.stopped, ends.completed, ends.timedOut⟩
      · exact ⟨attempts + 1, by omega, fun k after before => by omega, streamLoop_stops again⟩

theorem stream_loop (s : ReliableModel τ β ε) (request : Request) (uuid : String)
    (started now : ℚ) :
    (s.stream request model uuid started now).1 = streamLoop s.policy model 0 := by
  simp only [ReliableModel.stream]
  split <;> rfl

theorem stream_of_completes {s : ReliableModel τ β ε} {n : ℕ}
    (completes : Completes s.policy model n) (request : Request) (uuid : String)
    (started now : ℚ) :
    (s.stream request model uuid started now).1 =
      ⟨(List.range' 1 n).flatMap fun k => (model k).chunks, n, .completed⟩ := by
  obtain ⟨positive, retried, completed⟩ := completes
  rw [stream_loop]
  exact streamLoop_completes positive retried completed

theorem stream_completed {s : ReliableModel τ β ε} {request : Request} {uuid : String}
    {started now : ℚ} (ended : (s.stream request model uuid started now).1.ending = .completed) :
    ∃ n, Completes s.policy model n := by
  rw [stream_loop] at ended
  obtain ⟨n, positive, retried, ends⟩ := streamLoop_ends 0
  exact ⟨n, positive, retried, ends.completed.mp ended⟩

/-- The chunks of the attempts up to `n` are those of attempt `n` if and only if
the others have none. -/
theorem chunks_eq_last_iff {n : ℕ} (positive : 1 ≤ n) :
    ((List.range' 1 n).flatMap fun k => (model k).chunks) = (model n).chunks ↔
      ∀ k, 1 ≤ k → k < n → (model k).chunks = [] := by
  obtain ⟨before, rfl⟩ := Nat.exists_eq_add_of_le' positive
  rw [List.range'_concat, List.flatMap_append, List.flatMap_singleton]
  simp only [Nat.one_mul, Nat.add_comm 1 before, List.append_left_eq_self,
    List.flatMap_eq_nil_iff, List.mem_range'_1]
  constructor
  · intro quiet k first earlier
    exact quiet k ⟨first, by omega⟩
  · rintro quiet k ⟨first, earlier⟩
    exact quiet k first (by omega)

/-- A stream is not spliced if and only if no attempt before the successful one
has emitted a chunk. -/
theorem unspliced_iff (s : ReliableModel τ β ε) (request : Request) (uuid : String)
    (started now : ℚ) :
    Unspliced model (s.stream request model uuid started now).1 ↔
      ∀ n, Completes s.policy model n → ∀ k, 1 ≤ k → k < n → (model k).chunks = [] := by
  constructor
  · intro unspliced n completes
    have ran := stream_of_completes completes request uuid started now
    rw [ran] at unspliced
    obtain ⟨m, first, within, completed, chunks⟩ := unspliced rfl
    have last : m = n := by
      by_contra earlier
      obtain ⟨⟨error, failed, _⟩, _⟩ := completes.2.1 m first (lt_of_le_of_ne within earlier)
      simp [failed] at completed
    subst last
    exact (chunks_eq_last_iff first).mp chunks
  · intro quiet ended
    obtain ⟨n, completes⟩ := stream_completed ended
    have ran := stream_of_completes completes request uuid started now
    rw [ran]
    exact ⟨n, completes.1, le_rfl, completes.2.2,
      (chunks_eq_last_iff completes.1).mpr (quiet n completes)⟩

end Loop

def twoAttempts : RetryPolicy :=
  { ReliableModel.defaultPolicy with
    maxAttempts := 2
    attemptsPositive := Nat.two_pos }

def interruptedModel (n : ℕ) : Attempt Unit :=
  if n = 1 then
    ⟨["The "], .modelError { kind := .unavailable, message := "reset", retryable := true }⟩
  else ⟨["The ", "answer"], .completed⟩

def reliable : ReliableModel ℕ Unit Unit :=
  ReliableModel.create ⟨"fake", "fake"⟩ (some twoAttempts)

/-- The first attempt fails after its first chunk, and the second starts anew. -/
theorem interrupted_stream_spliced :
    (reliable.stream ⟨none⟩ interruptedModel "uuid" 0 0).1 =
        ⟨["The ", "The ", "answer"], 2, .completed⟩ ∧
      ¬ Unspliced interruptedModel (reliable.stream ⟨none⟩ interruptedModel "uuid" 0 0).1 := by
  have completes : Completes reliable.policy interruptedModel 2 := by
    refine ⟨by decide, fun k first before => ?_, rfl⟩
    obtain rfl : k = 1 := by omega
    exact ⟨⟨_, rfl, rfl⟩, by decide, _, RetryPolicy.delay_one _⟩
  have ran := stream_of_completes completes ⟨none⟩ "uuid" 0 0
  rw [ran]
  refine ⟨rfl, fun unspliced => ?_⟩
  obtain ⟨n, first, within, completed, chunks⟩ := unspliced rfl
  change n ≤ 2 at within
  have attempt : n = 1 ∨ n = 2 := by omega
  rcases attempt with rfl | rfl
  · cases completed
  · exact absurd chunks (by decide)

end Eis.Models
