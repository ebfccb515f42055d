import Mathlib.Algebra.Order.Ring.Rat
import Eis.Foundation.Table

/-!
# The durable job store

`JobStore` is one SQLite table.  Every method opens its own connection, so each
call is one transaction; `claim` alone issues two statements, and the `SELECT`
runs before the transaction of the `UPDATE` starts.  Clock readings, and the
fresh identifier of `enqueue`, are arguments.
-/

set_option autoImplicit false

namespace Eis.Observability

inductive JobStatus where
  | queued
  | running
  | completed
  | failed
  deriving DecidableEq, Repr

structure Job where
  id : String
  kind : String
  payload : String
  status : JobStatus
  attempts : Nat
  leaseUntil : Option ℚ
  error : Option String := none
  deriving DecidableEq

/-- The table `jobs`, its rows in `rowid` order, with primary key `id`. -/
abbrev JobStore := Table Job.id

/-! ## Column assignments -/

/-- The columns of a job that `enqueue` sets for good. -/
structure Enqueued where
  id : String
  kind : String
  payload : String
  deriving DecidableEq

def Job.enqueued (row : Job) : Enqueued := ⟨row.id, row.kind, row.payload⟩

/-- `Job(uuid4().hex, kind, payload, "queued", 0, None)`. -/
def Job.fresh (id kind payload : String) : Job :=
  { id, kind, payload, status := .queued, attempts := 0, leaseUntil := none }

def Job.requeued (row : Job) : Job :=
  { row with status := .queued, leaseUntil := none }

def Job.leased (row : Job) (lease : ℚ) : Job :=
  { row with status := .running, attempts := row.attempts + 1, leaseUntil := some lease }

def Job.finished (row : Job) : Job :=
  { row with status := .completed, leaseUntil := none }

/-- The stored text is `error[:4000]`. -/
def Job.failed (row : Job) (error : String) (retry : Bool) : Job :=
  { row with
    status := if retry then .queued else .failed
    leaseUntil := none
    error := some (String.ofList (error.toList.take 4000)) }

@[simp] theorem Job.requeued_id (row : Job) : row.requeued.id = row.id := rfl

@[simp] theorem Job.leased_id (row : Job) (lease : ℚ) : (row.leased lease).id = row.id := rfl

@[simp] theorem Job.finished_id (row : Job) : row.finished.id = row.id := rfl

@[simp] theorem Job.failed_id (row : Job) (error : String) (retry : Bool) :
    (row.failed error retry).id = row.id := rfl

/-- `later` can be a later version of the row: the columns set by `enqueue` are
the same and the attempt count has not dropped. -/
structure Job.Precedes (row later : Job) : Prop where
  fixed : later.enqueued = row.enqueued
  attempts : row.attempts ≤ later.attempts

theorem Job.Precedes.refl (row : Job) : row.Precedes row := ⟨rfl, le_rfl⟩

theorem Job.Precedes.trans {row middle later : Job} (first : row.Precedes middle)
    (second : middle.Precedes later) : row.Precedes later :=
  ⟨second.fixed.trans first.fixed, le_trans first.attempts second.attempts⟩

theorem Job.precedes_leased (row : Job) (lease : ℚ) : row.Precedes (row.leased lease) :=
  ⟨rfl, Nat.le_succ _⟩

theorem Job.leased_congr {row later : Job} (lease : ℚ) (fixed : later.enqueued = row.enqueued)
    (attempts : later.attempts = row.attempts) (error : later.error = row.error) :
    later.leased lease = row.leased lease := by
  obtain ⟨id, kind, payload⟩ := Enqueued.mk.inj fixed
  simp [Job.leased, id, kind, payload, attempts, error]

def Job.isQueued (row : Job) : Bool := decide (row.status = .queued)

/-- `status='running' AND lease_until IS NOT NULL AND lease_until < now`. -/
def Job.Expired (row : Job) (now : ℚ) : Prop :=
  row.status = .running ∧ ∃ lease, row.leaseUntil = some lease ∧ lease < now

instance (row : Job) (now : ℚ) : Decidable (row.Expired now) :=
  match stored : row.leaseUntil with
  | none => isFalse fun expired => by
      obtain ⟨_, lease, present, _⟩ := expired
      simp [stored] at present
  | some lease =>
      decidable_of_iff (row.status = .running ∧ lease < now) (by simp [Job.Expired, stored])

namespace JobStore

/-- `id` is the value of `uuid4().hex`.  An identifier that is already taken
raises the integrity error of the primary key and rolls back. -/
def enqueue (store : JobStore) (id kind payload : String) : JobStore × Option Job :=
  match store.insert (Job.fresh id kind payload) with
  | some inserted => (inserted, some (Job.fresh id kind payload))
  | none => (store, none)

def recoverExpired (store : JobStore) (now : ℚ) : JobStore × Nat :=
  (store.updateWhere (fun row => decide (row.Expired now)) Job.requeued
      fun row _ => row.requeued_id,
    store.rowcount fun row => decide (row.Expired now))

/-- The `SELECT` of `claim`. -/
def claimSelect (store : JobStore) : Option Job := store.first Job.isQueued

/-- `WHERE id=? AND status='queued'`, with the identifier of the selected row. -/
def claimGuard (row stored : Job) : Bool := decide (stored.id = row.id) && stored.isQueued

/-- The guarded `UPDATE` of `claim`, and the `Job` built from the selected row. -/
def claimUpdate (store : JobStore) (row : Job) (lease : ℚ) : JobStore × Option Job :=
  (store.updateWhere (claimGuard row) (fun stored => stored.leased lease)
      fun stored _ => stored.leased_id lease,
    if store.rowcount (claimGuard row) = 1 then some (row.leased lease) else none)

def claim (store : JobStore) (now : ℚ) (leaseSeconds : ℤ) : JobStore × Option Job :=
  match store.claimSelect with
  | none => (store, none)
  | some row => store.claimUpdate row (now + leaseSeconds)

def complete (store : JobStore) (jobId : String) : JobStore :=
  store.updateWhere (fun row => decide (row.id = jobId)) Job.finished
    fun row _ => row.finished_id

def fail (store : JobStore) (jobId error : String) (retry : Bool) : JobStore :=
  store.updateWhere (fun row => decide (row.id = jobId)) (fun row => row.failed error retry)
    fun row _ => row.failed_id error retry

def get (store : JobStore) (jobId : String) : Option Job := store.find jobId

/-! ## What each call does to the row of one job -/

theorem enqueue_eq_some {store next : JobStore} {id kind payload : String} {job : Job}
    (call : store.enqueue id kind payload = (next, some job)) :
    store.get id = none ∧ job = Job.fresh id kind payload ∧ next.rows = store.rows ++ [job] ∧
      ∀ k, next.get k = if id = k then some job else store.get k := by
  unfold enqueue at call
  split at call
  · rename_i inserted success
    obtain ⟨rfl, rfl⟩ : inserted = next ∧ _ = job := by simpa using call
    obtain ⟨fresh, rows⟩ := Table.insert_eq_some success
    exact ⟨fresh, rfl, rows, Table.find_insert success⟩
  · simp at call

theorem enqueue_eq_none {store next : JobStore} {id kind payload : String}
    (call : store.enqueue id kind payload = (next, none)) : next = store := by
  unfold enqueue at call
  split at call
  · simp at call
  · simpa using call.symm

theorem get_enqueue (store : JobStore) (id kind payload k : String) {row : Job}
    (present : store.get k = some row) :
    (store.enqueue id kind payload).1.get k = some row := by
  cases call : store.enqueue id kind payload with
  | mk next reply =>
      cases reply with
      | none => rw [enqueue_eq_none call]; exact present
      | some job =>
          obtain ⟨fresh, _, _, found⟩ := enqueue_eq_some call
          have other : ¬ id = k := by
            rintro rfl
            simp [fresh] at present
          rw [found k, if_neg other]
          exact present

theorem get_recoverExpired (store : JobStore) (now : ℚ) (k : String) :
    (store.recoverExpired now).1.get k =
      (store.get k).map fun row => if row.Expired now then row.requeued else row := by
  unfold recoverExpired get
  rw [Table.find_updateWhere]
  simp

theorem get_complete (store : JobStore) (jobId k : String) :
    (store.complete jobId).get k =
      (store.get k).map fun row => if row.id = jobId then row.finished else row := by
  unfold complete get
  rw [Table.find_updateWhere]
  simp

theorem get_fail (store : JobStore) (jobId error k : String) (retry : Bool) :
    (store.fail jobId error retry).get k =
      (store.get k).map fun row => if row.id = jobId then row.failed error retry else row := by
  unfold fail get
  rw [Table.find_updateWhere]
  simp

theorem get_claimUpdate (store : JobStore) (row : Job) (lease : ℚ) (k : String) :
    (store.claimUpdate row lease).1.get k =
      (store.get k).map fun stored =>
        if stored.id = row.id ∧ stored.status = .queued then stored.leased lease else stored := by
  unfold claimUpdate get
  rw [Table.find_updateWhere]
  simp [claimGuard, Job.isQueued]

theorem claimUpdate_reply (store : JobStore) (row : Job) (lease : ℚ) :
    (store.claimUpdate row lease).2 =
      if (store.get row.id).any Job.isQueued then some (row.leased lease) else none := by
  unfold claimUpdate get
  have counted : store.rowcount (claimGuard row) =
      if (Table.find store row.id).any Job.isQueued then 1 else 0 :=
    store.rowcount_key row.id Job.isQueued
  cases queued : (Table.find store row.id).any Job.isQueued <;> simp [counted, queued]

theorem claim_eq_some {store next : JobStore} {now : ℚ} {leaseSeconds : ℤ} {job : Job}
    (call : store.claim now leaseSeconds = (next, some job)) :
    ∃ row, store.claimSelect = some row ∧ store.get row.id = some row ∧ row.status = .queued ∧
      job = row.leased (now + leaseSeconds) ∧
      next = (store.claimUpdate row (now + leaseSeconds)).1 := by
  unfold claim at call
  cases selected : store.claimSelect with
  | none => simp [selected] at call
  | some row =>
      obtain ⟨stored, queued⟩ := store.first_mem selected
      have queuedRow : row.status = .queued := by simpa [Job.isQueued] using queued
      have reply := store.claimUpdate_reply row (now + leaseSeconds)
      simp only [selected] at call
      rw [call] at reply
      have reported : some job = some (row.leased (now + leaseSeconds)) := by
        simpa [get, stored, queued] using reply
      exact ⟨row, rfl, stored, queuedRow, Option.some.inj reported, by rw [call]⟩

theorem claim_eq_none {store next : JobStore} {now : ℚ} {leaseSeconds : ℤ}
    (call : store.claim now leaseSeconds = (next, none)) :
    store.claimSelect = none ∧ next = store := by
  unfold claim at call
  cases selected : store.claimSelect with
  | none =>
      simp only [selected, Prod.mk.injEq] at call
      exact ⟨rfl, call.1.symm⟩
  | some row =>
      obtain ⟨stored, queued⟩ := store.first_mem selected
      have reply := store.claimUpdate_reply row (now + leaseSeconds)
      simp only [selected] at call
      rw [call] at reply
      simp [get, stored, queued] at reply

theorem get_claim {store next : JobStore} {now : ℚ} {leaseSeconds : ℤ} {job : Job}
    (call : store.claim now leaseSeconds = (next, some job)) (k : String) :
    next.get k = if k = job.id then some job else store.get k := by
  obtain ⟨row, _, stored, queued, rfl, rfl⟩ := claim_eq_some call
  rw [get_claimUpdate]
  by_cases same : k = row.id
  · subst same
    simp [stored, queued, Job.leased]
  · rw [if_neg (by simpa [Job.leased] using same)]
    cases found : store.get k with
    | none => rfl
    | some other =>
        have otherId : other.id = k := Table.find_key _ found
        have different : ¬ other.id = row.id := fun both => same (otherId ▸ both)
        simp [different]

end JobStore

/-! ## Calls as data -/

inductive Call where
  | enqueue (id kind payload : String)
  | claim (now : ℚ) (leaseSeconds : ℤ)
  | complete (jobId : String)
  | fail (jobId error : String) (retry : Bool)
  | recoverExpired (now : ℚ)

inductive Reply where
  | enqueued (job : Option Job)
  | claimed (job : Option Job)
  | done
  | recovered (count : Nat)

def apply (store : JobStore) : Call → JobStore × Reply
  | .enqueue id kind payload =>
      ((store.enqueue id kind payload).1, .enqueued (store.enqueue id kind payload).2)
  | .claim now leaseSeconds =>
      ((store.claim now leaseSeconds).1, .claimed (store.claim now leaseSeconds).2)
  | .complete jobId => (store.complete jobId, .done)
  | .fail jobId error retry => (store.fail jobId error retry, .done)
  | .recoverExpired now =>
      ((store.recoverExpired now).1, .recovered (store.recoverExpired now).2)

theorem apply_precedes (store : JobStore) (call : Call) (k : String) (row : Job)
    (present : store.get k = some row) :
    ∃ later, (apply store call).1.get k = some later ∧ row.Precedes later := by
  cases call with
  | enqueue id kind payload =>
      exact ⟨row, store.get_enqueue id kind payload k present, Job.Precedes.refl row⟩
  | claim now leaseSeconds =>
      cases call : store.claim now leaseSeconds with
      | mk next reply =>
          simp only [apply, call]
          cases reply with
          | none => exact ⟨row, (JobStore.claim_eq_none call).2 ▸ present, Job.Precedes.refl row⟩
          | some job =>
              have found := JobStore.get_claim call k
              obtain ⟨old, _, stored, _, rfl, _⟩ := JobStore.claim_eq_some call
              by_cases same : k = old.id
              · subst same
                obtain rfl : old = row := Option.some.inj (stored.symm.trans present)
                exact ⟨_, by simpa using found, old.precedes_leased _⟩
              · exact ⟨row, by simpa [same, present] using found, Job.Precedes.refl row⟩
  | complete jobId =>
      refine ⟨if row.id = jobId then row.finished else row, ?_, ?_⟩
      · simp [apply, JobStore.get_complete, present]
      · split <;> exact ⟨rfl, le_rfl⟩
  | fail jobId error retry =>
      refine ⟨if row.id = jobId then row.failed error retry else row, ?_, ?_⟩
      · simp [apply, JobStore.get_fail, present]
      · split <;> exact ⟨rfl, le_rfl⟩
  | recoverExpired now =>
      refine ⟨if row.Expired now then row.requeued else row, ?_, ?_⟩
      · simp [apply, JobStore.get_recoverExpired, present]
      · split <;> exact ⟨rfl, le_rfl⟩

end Eis.Observability
