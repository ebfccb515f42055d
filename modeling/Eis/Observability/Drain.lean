import Eis.Observability.Instrumentation
import Eis.Observability.Jobs

/-!
# A worker alone with its store

`while await worker.run_once(): pass`.  One worker serves the queued jobs in the
order of the table and each of them to its end before the next one, and records
every turn.
-/

set_option autoImplicit false

namespace Eis.Observability

open MetricsRegistry

/-- What `run_once` reads.  A handler acts on the world, not on the store; the world also
holds the flag of the shutdown. -/
structure Worker (ω ε ν : Type) where
  handlers : String → Option (Job → ω → ω × Except ε Unit)
  leaseSeconds : ℤ
  maxAttempts : ℤ
  /-- `time.time()` -/
  time : ω → ℚ
  /-- `asyncio.get_running_loop().time()` -/
  loopTime : ω → ν
  str : ε → String
  stopping : ω → Bool

structure Desk (ω ν : Type) where
  store : JobStore
  world : ω
  metrics : MetricsRegistry ν

@[simp] theorem Job.leased_kind (row : Job) (lease : ℚ) : (row.leased lease).kind = row.kind :=
  rfl

@[simp] theorem Job.leased_attempts (row : Job) (lease : ℚ) :
    (row.leased lease).attempts = row.attempts + 1 :=
  rfl

theorem Job.unqueued_of_settled {row : Job}
    (settled : row.status = .completed ∨ row.status = .failed) : row.isQueued = false := by
  rcases settled with status | status <;> simp [Job.isQueued, status]

theorem Job.unleased_of_settled {row : Job}
    (settled : row.status = .completed ∨ row.status = .failed) : row.status ≠ .running := by
  rcases settled with status | status <;> simp [status]

namespace Worker

variable {ω ε ν : Type} [ClockNumber ν] [Exceptions ε]

def noHandler (kind : String) : String := "no handler for job kind: " ++ kind

def latency (w : Worker ω ε ν) (started stopped : ω) : ν :=
  ClockNumber.sub (w.loopTime stopped) (w.loopTime started)

def runOnce (w : Worker ω ε ν) (s : Desk ω ν) : Desk ω ν × Except ε Bool :=
  if w.stopping s.world then (s, .ok false)
  else
    let recovered := (s.store.recoverExpired (w.time s.world)).1
    match recovered.claim (w.time s.world) w.leaseSeconds with
    | (store, none) => ({ s with store }, .ok false)
    | (store, some job) =>
        match w.handlers job.kind with
        | none =>
            ({ s with store := store.fail job.id (noHandler job.kind) false }, .ok true)
        | some handler =>
            match handler job s.world with
            | (world, .ok ()) =>
                ({ store := store.complete job.id
                   world
                   metrics := (recordTask ⟨job.kind, "completed", w.latency s.world world,
                     (job.attempts : ℤ) - 1⟩).foldl MetricsRegistry.apply s.metrics }, .ok true)
            | (world, .error exc) =>
                if Exceptions.isException exc then
                  let retry := decide ((job.attempts : ℤ) < w.maxAttempts)
                  ({ store := store.fail job.id (w.str exc) retry
                     world
                     metrics := (recordTask ⟨job.kind, if retry then "retry" else "failed",
                       w.latency s.world world, job.attempts⟩).foldl
                         MetricsRegistry.apply s.metrics }, .ok true)
                else ({ s with store, world }, .error exc)

/-- `while await worker.run_once(): pass`, for at most so many turns. -/
def work (w : Worker ω ε ν) : ℕ → Desk ω ν → Desk ω ν × Except ε Unit
  | 0, s => (s, .ok ())
  | turns + 1, s =>
      match w.runOnce s with
      | (t, .ok true) => w.work turns t
      | (t, .ok false) => (t, .ok ())
      | (t, .error exc) => (t, .error exc)

/-! ## What is to be done -/

inductive Leaving (ε : Type) where
  | served
  /-- The shutdown has begun. -/
  | stopped
  /-- The handler was cancelled: nothing is reported, and the lease runs on. -/
  | cancelled (exc : ε)

structure Served (ω ε ν : Type) where
  row : Job
  world : ω
  recorded : List (TaskMetric ν)
  leaving : Leaving ε

def retries (w : Worker ω ε ν) (row : Job) : ℕ := (w.maxAttempts - (row.attempts + 1)).toNat

/-- One attempt: it queues the job again if it fails and is not the last one. -/
def attempt (w : Worker ω ε ν) (row : Job) (world : ω) : Served ω ε ν :=
  let claimed := row.leased (w.time world + w.leaseSeconds)
  match w.handlers row.kind with
  | none => ⟨claimed.failed (noHandler row.kind) false, world, [], .served⟩
  | some handler =>
      match handler claimed world with
      | (next, .ok ()) =>
          ⟨claimed.finished, next,
            [⟨row.kind, "completed", w.latency world next, row.attempts⟩], .served⟩
      | (next, .error exc) =>
          if Exceptions.isException exc then
            if w.retries row = 0 then
              ⟨claimed.failed (w.str exc) false, next,
                [⟨row.kind, "failed", w.latency world next, row.attempts + 1⟩], .served⟩
            else
              ⟨claimed.failed (w.str exc) true, next,
                [⟨row.kind, "retry", w.latency world next, row.attempts + 1⟩], .served⟩
          else ⟨claimed, next, [], .cancelled exc⟩

def serve (w : Worker ω ε ν) : ℕ → Job → ω → Served ω ε ν
  | retries, row, world =>
      if w.stopping world then ⟨row, world, [], .stopped⟩
      else
        let attempted := w.attempt row world
        match retries with
        | 0 => attempted
        | left + 1 =>
            if attempted.row.isQueued then
              let later := w.serve left attempted.row attempted.world
              { later with recorded := attempted.recorded ++ later.recorded }
            else attempted

structure ServedAll (ω ε ν : Type) where
  rows : List Job
  world : ω
  recorded : List (TaskMetric ν)
  leaving : Leaving ε

def serveAll (w : Worker ω ε ν) : List Job → ω → ServedAll ω ε ν
  | [], world => ⟨[], world, [], .served⟩
  | row :: rest, world =>
      if row.isQueued then
        let served := w.serve (w.retries row) row world
        match served.leaving with
        | .served =>
            let later := w.serveAll rest served.world
            { later with
              rows := served.row :: later.rows
              recorded := served.recorded ++ later.recorded }
        | leaving => ⟨served.row :: rest, served.world, served.recorded, leaving⟩
      else
        let later := w.serveAll rest world
        { later with rows := row :: later.rows }

def turns (w : Worker ω ε ν) : List Job → ℕ
  | [] => 0
  | row :: rest => (if row.isQueued then w.retries row + 1 else 0) + w.turns rest

/-! ## One turn -/

/-- The rows in front of `row` are settled, `row` is the first that is queued, and no lease
is out. -/
structure At (s : Desk ω ν) (done : List Job) (row : Job) (rest : List Job) : Prop where
  rows : s.store.rows = done ++ row :: rest
  quiet : ∀ other ∈ s.store.rows, other.status ≠ .running
  settled : ∀ other ∈ done, other.isQueued = false
  queued : row.isQueued = true

theorem recoverExpired_quiet {store : JobStore} (now : ℚ)
    (quiet : ∀ row ∈ store.rows, row.status ≠ .running) :
    (store.recoverExpired now).1 = store := by
  refine store.updateWhere_eq_self _ _ (fun row _ => row.requeued_id) fun row member => ?_
  exact decide_eq_false fun expired => quiet row member expired.1

omit [ClockNumber ν] in
theorem At.claim {s : Desk ω ν} {done rest : List Job} {row : Job} (at_ : At s done row rest)
    (now : ℚ) (leaseSeconds : ℤ) :
    ∃ store : JobStore,
      s.store.claim now leaseSeconds = (store, some (row.leased (now + leaseSeconds))) ∧
      store.rows = done ++ row.leased (now + leaseSeconds) :: rest := by
  have selected : s.store.claimSelect = some row := by
    have none_ : done.find? Job.isQueued = none := by
      refine List.find?_eq_none.mpr fun other member => ?_
      rw [at_.settled other member]
      exact Bool.false_ne_true
    unfold JobStore.claimSelect Table.first
    rw [at_.rows, List.find?_append, none_, List.find?_cons_of_pos at_.queued]
    rfl
  have found : s.store.find row.id = some row :=
    (s.store.find_eq_some_iff row.id row).mpr ⟨by rw [at_.rows]; simp, rfl⟩
  have one : s.store.rowcount (JobStore.claimGuard row) = 1 := by
    refine (s.store.rowcount_key row.id Job.isQueued).trans ?_
    rw [found]
    simp [at_.queued]
  refine ⟨_, ?_, s.store.rows_updateWhere_one (JobStore.claimGuard row)
    (fun stored => stored.leased (now + leaseSeconds)) (fun stored _ => stored.leased_id _)
    at_.rows ?_ ?_⟩
  · unfold JobStore.claim
    rw [selected]
    simp only [JobStore.claimUpdate, one, if_true]
  · simp [JobStore.claimGuard, at_.queued]
  · intro other chosen
    exact of_decide_eq_true (Bool.and_eq_true_iff.mp chosen).1

theorem rows_fail {store : JobStore} {done rest : List Job} {row : Job}
    (rows_ : store.rows = done ++ row :: rest) (error : String) (retry : Bool) :
    (store.fail row.id error retry).rows = done ++ row.failed error retry :: rest :=
  store.rows_updateWhere_one _ _ _ rows_ (decide_eq_true rfl)
    fun _ chosen => of_decide_eq_true chosen

theorem rows_complete {store : JobStore} {done rest : List Job} {row : Job}
    (rows_ : store.rows = done ++ row :: rest) :
    (store.complete row.id).rows = done ++ row.finished :: rest :=
  store.rows_updateWhere_one _ _ _ rows_ (decide_eq_true rfl)
    fun _ chosen => of_decide_eq_true chosen

variable {w : Worker ω ε ν} {s : Desk ω ν} {done rest : List Job} {row : Job}

theorem runOnce_stopping (stopping : w.stopping s.world = true) :
    w.runOnce s = (s, .ok false) :=
  if_pos stopping

theorem runOnce_idle (quiet : ∀ other ∈ s.store.rows, other.status ≠ .running)
    (none_ : ∀ other ∈ s.store.rows, other.isQueued = false) :
    w.runOnce s = (s, .ok false) := by
  have selected : s.store.claimSelect = none := by
    refine List.find?_eq_none.mpr fun other member => ?_
    rw [none_ other member]
    exact Bool.false_ne_true
  unfold runOnce
  rw [recoverExpired_quiet _ quiet]
  simp only [JobStore.claim, selected, ite_self]

structure After (s t : Desk ω ν) (rows : List Job) (world : ω) (recorded : List (TaskMetric ν)) :
    Prop where
  rows : t.store.rows = rows
  world : t.world = world
  metrics : t.metrics = (recorded.flatMap recordTask).foldl MetricsRegistry.apply s.metrics

def Leaving.turn : Leaving ε → Except ε Bool
  | .cancelled exc => .error exc
  | _ => .ok true

theorem At.attempt (at_ : At s done row rest) (onwards : w.stopping s.world = false) :
    ∃ t, After s t (done ++ (w.attempt row s.world).row :: rest) (w.attempt row s.world).world
        (w.attempt row s.world).recorded ∧
      w.runOnce s = (t, (w.attempt row s.world).leaving.turn) := by
  obtain ⟨store, claimed, rows_⟩ := at_.claim (w.time s.world) w.leaseSeconds
  have earlier : (((row.attempts + 1 : ℕ) : ℤ) - 1) = row.attempts := by omega
  unfold Worker.runOnce Worker.attempt
  rw [if_neg (by simp [onwards]), recoverExpired_quiet _ at_.quiet]
  simp only [claimed]
  cases handler_ : w.handlers row.kind with
  | none =>
      refine ⟨_, ?_, by simp only [Job.leased, handler_]; rfl⟩
      exact ⟨rows_fail rows_ _ _, rfl, rfl⟩
  | some handler =>
      rcases called : handler (row.leased (w.time s.world + w.leaseSeconds)) s.world with
        ⟨next, exc | ⟨⟩⟩
      · by_cases caught : Exceptions.isException exc = true
        · have again : ((row.attempts + 1 : ℕ) : ℤ) < w.maxAttempts ↔ w.retries row ≠ 0 := by
            unfold retries
            omega
          by_cases last : w.retries row = 0
          · have never : ¬ ((row.attempts + 1 : ℕ) : ℤ) < w.maxAttempts := fun more =>
              again.mp more last
            refine ⟨_, ?_, by
              simp only [Job.leased_kind, Job.leased_attempts, handler_, called, caught, if_true,
                last, never, decide_false]
              rfl⟩
            simp only [called, caught, if_true, last]
            exact ⟨rows_fail rows_ _ _, rfl, by simp⟩
          · have more := again.mpr last
            refine ⟨_, ?_, by
              simp only [Job.leased_kind, Job.leased_attempts, handler_, called, caught, if_true,
                last, if_false, more, decide_true]
              rfl⟩
            simp only [called, caught, if_true, last, if_false]
            exact ⟨rows_fail rows_ _ _, rfl, by simp⟩
        · refine ⟨_, ?_, by
            simp only [Job.leased_kind, handler_, called, caught, Bool.false_eq_true, if_false]
            rfl⟩
          simp only [called, caught, Bool.false_eq_true, if_false]
          exact ⟨rows_, rfl, rfl⟩
      · refine ⟨_, ?_, by simp only [Job.leased_kind, handler_, called]; rfl⟩
        simp only [called]
        exact ⟨rows_complete rows_, rfl, by simp⟩

/-! ## A job, and all of them -/

def Leaving.outcome : Leaving ε → Except ε Unit
  | .cancelled exc => .error exc
  | _ => .ok ()

/-- The worker takes at most `bound` turns from `s` to `t` and then leaves, or goes on if
all is served. -/
def Comes (w : Worker ω ε ν) (bound : ℕ) (s t : Desk ω ν) (leaving : Leaving ε) : Prop :=
  ∃ used ≤ bound, ∀ more, w.work (more + used) s =
    match leaving with
    | .served => w.work more t
    | leaving => (t, leaving.outcome)

theorem Comes.of_turn {t : Desk ω ν} {leaving : Leaving ε} (onwards : leaving ≠ .stopped)
    (turn : w.runOnce s = (t, leaving.turn)) (bound : ℕ) : Comes w (bound + 1) s t leaving := by
  refine ⟨1, Nat.le_add_left 1 bound, fun more => ?_⟩
  cases leaving with
  | stopped => exact absurd rfl onwards
  | served => rw [work, turn]; rfl
  | cancelled exc => rw [work, turn]; rfl

theorem Comes.of_stopping (stopping : w.stopping s.world = true) (bound : ℕ) :
    Comes w bound s s .stopped := by
  refine ⟨0, Nat.zero_le _, fun more => ?_⟩
  cases more with
  | zero => rfl
  | succ more => rw [Nat.add_zero, work, runOnce_stopping stopping]; rfl

theorem Comes.before {t u : Desk ω ν} {bound left : ℕ} {leaving : Leaving ε}
    (first : Comes w bound s t .served) (second : Comes w left t u leaving) :
    Comes w (left + bound) s u leaving := by
  obtain ⟨used, few, turns_⟩ := first
  obtain ⟨used', few', turns'⟩ := second
  refine ⟨used' + used, Nat.add_le_add few' few, fun more => ?_⟩
  rw [← Nat.add_assoc, turns_]
  exact turns' more

theorem Comes.mono {t : Desk ω ν} {bound left : ℕ} {leaving : Leaving ε}
    (comes : Comes w bound s t leaving) (more : bound ≤ left) : Comes w left s t leaving := by
  obtain ⟨used, few, turns_⟩ := comes
  exact ⟨used, few.trans more, turns_⟩

omit [Exceptions ε] in
theorem After.before {t u : Desk ω ν} {rows rows' : List Job} {world world' : ω}
    {recorded later : List (TaskMetric ν)} (first : After s t rows world recorded)
    (second : After t u rows' world' later) : After s u rows' world' (recorded ++ later) :=
  ⟨second.rows, second.world, by
    rw [second.metrics, first.metrics, List.flatMap_append, List.foldl_append]⟩

inductive Attempted (w : Worker ω ε ν) (row : Job) (attempted : Served ω ε ν) : Prop where
  /-- The job is queued again, with one attempt less. -/
  | again (leaving : attempted.leaving = .served) (queued : attempted.row.isQueued = true)
      (fewer : w.retries row = w.retries attempted.row + 1)
  | settled (leaving : attempted.leaving = .served)
      (status : attempted.row.status = .completed ∨ attempted.row.status = .failed)
  /-- The lease is still out. -/
  | cancelled (exc : ε) (leaving : attempted.leaving = .cancelled exc)
      (running : attempted.row.status = .running)

theorem attempted (row : Job) (world : ω) : Attempted w row (w.attempt row world) := by
  unfold attempt
  cases w.handlers row.kind with
  | none => exact .settled rfl (.inr rfl)
  | some handler =>
      rcases called : handler (row.leased (w.time world + w.leaseSeconds)) world with
        ⟨next, exc | ⟨⟩⟩
      · by_cases caught : Exceptions.isException exc = true
        · by_cases last : w.retries row = 0
          · simp only [called, caught, if_true, last]
            exact .settled rfl (.inr rfl)
          · simp only [called, caught, if_true, last, if_false]
            refine .again rfl rfl ?_
            simp only [retries, Job.failed, Job.leased_attempts] at last ⊢
            omega
        · simp only [called, caught, Bool.false_eq_true, if_false]
          exact .cancelled exc rfl rfl
      · simp only [called]
        exact .settled rfl (.inl rfl)

theorem attempt_leaving (row : Job) (world : ω) :
    (w.attempt row world).leaving ≠ .stopped := by
  intro stopped
  cases w.attempted row world with
  | again leaving _ _ =>
      rw [leaving] at stopped
      cases stopped
  | settled leaving _ =>
      rw [leaving] at stopped
      cases stopped
  | cancelled _ leaving _ =>
      rw [leaving] at stopped
      cases stopped

theorem serve_settled (left : ℕ) {row : Job} {world : ω} (left_ : left = w.retries row)
    (served : (w.serve left row world).leaving = .served) :
    (w.serve left row world).row.status = .completed ∨
      (w.serve left row world).row.status = .failed := by
  induction left generalizing row world with
  | zero =>
      unfold Worker.serve at served ⊢
      by_cases stopping : w.stopping world = true
      · rw [if_pos stopping] at served
        cases served
      rw [if_neg stopping] at served ⊢
      cases w.attempted row world with
      | again _ _ fewer => omega
      | settled _ status => exact status
      | cancelled exc leaving _ =>
          rw [leaving] at served
          cases served
  | succ left ih =>
      unfold Worker.serve at served ⊢
      by_cases stopping : w.stopping world = true
      · rw [if_pos stopping] at served
        cases served
      rw [if_neg stopping] at served ⊢
      by_cases queued : (w.attempt row world).row.isQueued = true
      · simp only [queued, if_true] at served ⊢
        cases w.attempted row world with
        | again _ _ fewer => exact ih (by omega) served
        | settled _ status => simp [Job.unqueued_of_settled status] at queued
        | cancelled exc _ running => simp [Job.isQueued, running] at queued
      · simp only [queued, Bool.false_eq_true, if_false] at served ⊢
        cases w.attempted row world with
        | again _ queued' _ => exact absurd queued' queued
        | settled _ status => exact status
        | cancelled exc leaving _ =>
            rw [leaving] at served
            cases served

omit [Exceptions ε] [ClockNumber ν] in
theorem At.quiet_of {t : Desk ω ν} {row' : Job} (at_ : At s done row rest)
    (rows_ : t.store.rows = done ++ row' :: rest) (status : row'.status ≠ .running) :
    ∀ other ∈ t.store.rows, other.status ≠ .running := by
  intro other member
  rw [rows_] at member
  rcases List.mem_append.mp member with before | here
  · exact at_.quiet other (at_.rows ▸ List.mem_append_left _ before)
  · rcases List.mem_cons.mp here with rfl | behind
    · exact status
    · exact at_.quiet other (at_.rows ▸ List.mem_append_right _ (List.mem_cons_of_mem _ behind))

omit [Exceptions ε] in
theorem At.again {t : Desk ω ν} {row' : Job} {world : ω} {recorded : List (TaskMetric ν)}
    (at_ : At s done row rest) (after : After s t (done ++ row' :: rest) world recorded)
    (queued : row'.isQueued = true) : At t done row' rest := by
  refine ⟨after.rows, at_.quiet_of after.rows ?_, at_.settled, queued⟩
  rw [of_decide_eq_true queued]
  exact JobStatus.noConfusion

/-- The worker serves the first queued job and comes away as it should; the rows around it
stay as they are. -/
theorem At.serve (left : ℕ) (at_ : At s done row rest) (left_ : left = w.retries row) :
    ∃ t, After s t (done ++ (w.serve left row s.world).row :: rest) (w.serve left row s.world).world
        (w.serve left row s.world).recorded ∧
      Comes w (left + 1) s t (w.serve left row s.world).leaving := by
  induction left generalizing s row with
  | zero =>
      unfold Worker.serve
      by_cases stopping : w.stopping s.world = true
      · rw [if_pos stopping]
        exact ⟨s, ⟨at_.rows, rfl, rfl⟩, Comes.of_stopping stopping _⟩
      rw [if_neg stopping]
      obtain ⟨t, after, turn⟩ := at_.attempt (w := w) (by simpa using stopping)
      exact ⟨t, after, Comes.of_turn (attempt_leaving row s.world) turn 0⟩
  | succ left ih =>
      unfold Worker.serve
      by_cases stopping : w.stopping s.world = true
      · rw [if_pos stopping]
        exact ⟨s, ⟨at_.rows, rfl, rfl⟩, Comes.of_stopping stopping _⟩
      rw [if_neg stopping]
      obtain ⟨t, after, turn⟩ := at_.attempt (w := w) (by simpa using stopping)
      have comes := Comes.of_turn (attempt_leaving row s.world) turn
      by_cases queued : (w.attempt row s.world).row.isQueued = true
      · simp only [queued, if_true]
        cases w.attempted row s.world with
        | again leaving _ fewer =>
            obtain ⟨u, after', comes'⟩ := ih (at_.again after queued) (by omega)
            rw [after.world] at after' comes'
            rw [leaving] at comes
            exact ⟨u, after.before after', (comes 0).before comes'⟩
        | settled _ status => simp [Job.unqueued_of_settled status] at queued
        | cancelled exc _ running => simp [Job.isQueued, running] at queued
      · simp only [queued]
        exact ⟨t, after, comes _⟩

theorem serveAll_comes (rest : List Job) :
    ∀ (done : List Job) (s : Desk ω ν), s.store.rows = done ++ rest →
      (∀ other ∈ s.store.rows, other.status ≠ .running) →
      (∀ other ∈ done, other.isQueued = false) →
      ∃ t, After s t (done ++ (w.serveAll rest s.world).rows) (w.serveAll rest s.world).world
          (w.serveAll rest s.world).recorded ∧
        Comes w (w.turns rest) s t (w.serveAll rest s.world).leaving := by
  induction rest with
  | nil =>
      intro done s rows_ quiet settled
      exact ⟨s, ⟨rows_, rfl, rfl⟩, 0, Nat.zero_le _, fun _ => rfl⟩
  | cons row rest ih =>
      intro done s rows_ quiet settled
      have settled_snoc : ∀ own : Job, own.isQueued = false →
          ∀ other ∈ done ++ [own], other.isQueued = false := by
        intro own unqueued other member
        rcases List.mem_append.mp member with before | here
        · exact settled other before
        · rw [List.mem_singleton.mp here]
          exact unqueued
      unfold serveAll
      by_cases queued : row.isQueued = true
      · have at_ : At s done row rest := ⟨rows_, quiet, settled, queued⟩
        obtain ⟨t, after, comes⟩ := at_.serve (w.retries row) rfl
        have bound : w.turns (row :: rest) = w.turns rest + (w.retries row + 1) := by
          simp [turns, queued, Nat.add_comm]
        simp only [queued, if_true]
        cases leaving : (w.serve (w.retries row) row s.world).leaving with
        | served =>
            have ended := serve_settled (w.retries row) rfl leaving
            obtain ⟨u, after', comes'⟩ := ih (done ++ [(w.serve (w.retries row) row s.world).row])
              t (by rw [after.rows]; simp)
              (at_.quiet_of after.rows (Job.unleased_of_settled ended))
              (settled_snoc _ (Job.unqueued_of_settled ended))
            rw [after.world] at after' comes'
            rw [leaving] at comes
            have both := after.before after'
            refine ⟨u, ⟨by simpa using both.rows, both.world, both.metrics⟩, ?_⟩
            rw [bound]
            exact comes.before comes'
        | stopped =>
            rw [leaving] at comes
            exact ⟨t, after, comes.mono (by omega)⟩
        | cancelled exc =>
            rw [leaving] at comes
            exact ⟨t, after, comes.mono (by omega)⟩
      · simp only [queued]
        obtain ⟨t, after, comes⟩ := ih (done ++ [row]) s (by simpa using rows_) quiet
          (settled_snoc row (by simpa using queued))
        refine ⟨t, ⟨by simpa using after.rows, after.world, after.metrics⟩, ?_⟩
        simpa [turns, queued] using comes

theorem serveAll_settled (rows : List Job) (world : ω)
    (quiet : ∀ row ∈ rows, row.status ≠ .running)
    (served : (w.serveAll rows world).leaving = .served) :
    ∀ row ∈ (w.serveAll rows world).rows, row.status = .completed ∨ row.status = .failed := by
  induction rows generalizing world with
  | nil => exact fun row member => absurd member List.not_mem_nil
  | cons first rest ih =>
      have quiet' := fun row member => quiet row (List.mem_cons_of_mem first member)
      intro row member
      unfold serveAll at served member
      by_cases queued : first.isQueued = true
      · simp only [queued, if_true] at served member
        cases leaving : (w.serve (w.retries first) first world).leaving with
        | served =>
            simp only [leaving] at served member
            rcases List.mem_cons.mp member with rfl | behind
            · exact serve_settled _ rfl leaving
            · exact ih _ quiet' served row behind
        | stopped =>
            simp only [leaving] at served
            cases served
        | cancelled exc =>
            simp only [leaving] at served
            cases served
      · simp only [queued] at served member
        rcases List.mem_cons.mp member with rfl | behind
        · have unleased := quiet row List.mem_cons_self
          simp only [Job.isQueued, decide_eq_true_eq] at queued
          cases status : row.status with
          | queued => exact absurd status queued
          | running => exact absurd status unleased
          | completed => exact .inl rfl
          | failed => exact .inr rfl
        · exact ih _ quiet' served row behind

theorem work_idle (quiet : ∀ other ∈ s.store.rows, other.status ≠ .running)
    (none_ : ∀ other ∈ s.store.rows, other.isQueued = false) (more : ℕ) :
    w.work more s = (s, .ok ()) := by
  cases more with
  | zero => rfl
  | succ more => rw [work, runOnce_idle quiet none_]

/-- Alone with a store in which no lease is out, and with turns enough, a worker ends with
the queued jobs served one after the other in the order of the table: each is attempted
until it is settled before the next one is begun, every attempt is recorded, and nothing is
begun after a stop or a cancellation. -/
theorem work_serves (w : Worker ω ε ν) (s : Desk ω ν)
    (quiet : ∀ row ∈ s.store.rows, row.status ≠ .running) {n : ℕ}
    (enough : w.turns s.store.rows ≤ n) :
    (w.work n s).1.store.rows = (w.serveAll s.store.rows s.world).rows ∧
      (w.work n s).1.world = (w.serveAll s.store.rows s.world).world ∧
      (w.work n s).1.metrics =
        ((w.serveAll s.store.rows s.world).recorded.flatMap recordTask).foldl
          MetricsRegistry.apply s.metrics ∧
      (w.work n s).2 = (w.serveAll s.store.rows s.world).leaving.outcome ∧
      ((w.serveAll s.store.rows s.world).leaving = .served →
        ∀ row ∈ (w.work n s).1.store.rows, row.status = .completed ∨ row.status = .failed) := by
  obtain ⟨t, after, used, few, turns_⟩ := w.serveAll_comes s.store.rows [] s rfl quiet (by simp)
  rw [List.nil_append] at after
  have settled := w.serveAll_settled s.store.rows s.world quiet
  have ended : w.work n s = (t, (w.serveAll s.store.rows s.world).leaving.outcome) := by
    have split : n = n - used + used := by omega
    rw [split, turns_]
    cases leaving : (w.serveAll s.store.rows s.world).leaving with
    | served =>
        rw [← after.rows] at settled
        exact work_idle
          (fun row member => Job.unleased_of_settled (settled leaving row member))
          (fun row member => Job.unqueued_of_settled (settled leaving row member)) _
    | stopped => rfl
    | cancelled exc => rfl
  rw [ended]
  refine ⟨after.rows, after.world, after.metrics, rfl, fun served row member => ?_⟩
  exact settled served row (after.rows ▸ member)

end Worker

inductive Mishap where
  | failed (message : String)
  | cancelled
deriving DecidableEq

instance : Exceptions Mishap where
  isException
    | .failed _ => true
    | .cancelled => false
  overflowError := .failed ""
  valueError := .failed
  runtimeError := .failed

instance : ClockNumber ℤ where
  zero := 0
  add := (· + ·)
  ofLength := Int.ofNat
  sum := List.sum
  ofInt := id
  sub := (· - ·)

/-- Handlers count their calls, and the first one fails. -/
def flaky : Worker ℕ Mishap ℤ where
  handlers kind :=
    if kind = "build" then
      some fun _ calls => (calls + 1, if calls = 0 then .error (.failed "busy") else .ok ())
    else none
  leaseSeconds := 300
  maxAttempts := 3
  time calls := calls
  loopTime calls := calls
  str
    | .failed message => message
    | .cancelled => ""
  stopping _ := false

def twoJobs : Desk ℕ ℤ where
  store := ⟨[Job.fresh "a" "build" "", Job.fresh "b" "deploy" ""], by decide⟩
  world := 0
  metrics := MetricsRegistry.empty

theorem work_serves_flaky :
    ((flaky.work 6 twoJobs).1.store.rows.map fun row => (row.status, row.attempts)) =
      [(.completed, 2), (.failed, 1)] := by
  have served := flaky.work_serves twoJobs (by decide) (n := 6) (by decide)
  rw [served.1]
  decide

end Eis.Observability
