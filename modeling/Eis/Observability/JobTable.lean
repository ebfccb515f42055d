import Eis.Foundation.Run
import Eis.Observability.Jobs

/-!
# The invariant of the job table

A run is a sequence of atomic `JobStore` calls with their replies.  The trace
alone determines which jobs were enqueued, in which order, and how often each
was claimed; the table agrees with it after every call.
-/

set_option autoImplicit false

namespace Eis.Observability

open Transition

abbrev Trace := List (Call × Reply)

def callStep (store : JobStore) (exchange : Call × Reply) (next : JobStore) : Prop :=
  apply store exchange.1 = (next, exchange.2)

def history (calls : List Call) : Trace × JobStore :=
  calls.foldl
    (fun past call => (past.1 ++ [(call, (apply past.2 call).2)], (apply past.2 call).1))
    ([], Table.empty)

def Reply.enqueuedJob : Reply → Option Enqueued
  | .enqueued (some job) => some job.enqueued
  | _ => none

def Reply.claims (id : String) : Reply → Bool
  | .claimed (some job) => decide (job.id = id)
  | _ => false

def enqueuedIn (trace : Trace) : List Enqueued :=
  trace.filterMap fun exchange => exchange.2.enqueuedJob

def claimsOf (id : String) (trace : Trace) : Nat :=
  trace.countP fun exchange => exchange.2.claims id

theorem enqueuedIn_snoc (trace : Trace) (call : Call) (reply : Reply) :
    enqueuedIn (trace ++ [(call, reply)]) = enqueuedIn trace ++ reply.enqueuedJob.toList := by
  cases found : reply.enqueuedJob <;> simp [enqueuedIn, found]

theorem claimsOf_snoc (id : String) (trace : Trace) (call : Call) (reply : Reply) :
    claimsOf id (trace ++ [(call, reply)]) =
      claimsOf id trace + if reply.claims id then 1 else 0 := by
  simp [claimsOf, List.countP_singleton]

/-! ## The invariant -/

/-- `lease_until` is set exactly while the job is running. -/
def Job.LeaseExact (row : Job) : Prop :=
  row.leaseUntil ≠ none ↔ row.status = .running

theorem Job.fresh_leaseExact (id kind payload : String) :
    (Job.fresh id kind payload).LeaseExact := by simp [Job.LeaseExact, Job.fresh]

theorem Job.requeued_leaseExact (row : Job) : row.requeued.LeaseExact := by
  simp [Job.LeaseExact, Job.requeued]

theorem Job.leased_leaseExact (row : Job) (lease : ℚ) : (row.leased lease).LeaseExact := by
  simp [Job.LeaseExact, Job.leased]

theorem Job.finished_leaseExact (row : Job) : row.finished.LeaseExact := by
  simp [Job.LeaseExact, Job.finished]

theorem Job.failed_leaseExact (row : Job) (error : String) (retry : Bool) :
    (row.failed error retry).LeaseExact := by
  cases retry <;> simp [Job.LeaseExact, Job.failed]

/-- The table agrees with the trace that produced it. -/
structure TableAgrees (trace : Trace) (store : JobStore) : Prop where
  entries : store.rows.map Job.enqueued = enqueuedIn trace
  leases : ∀ row ∈ store.rows, row.LeaseExact
  attempts : ∀ id, claimsOf id trace = ((store.get id).map Job.attempts).getD 0

theorem TableAgrees.unchanged {trace : Trace} {store : JobStore} {reply : Reply}
    (agrees : TableAgrees trace store) (call : Call)
    (silent : reply.enqueuedJob = none ∧ ∀ id, reply.claims id = false) :
    TableAgrees (trace ++ [(call, reply)]) store where
  entries := by simp [enqueuedIn_snoc, silent.1, agrees.entries]
  leases := agrees.leases
  attempts id := by simp [claimsOf_snoc, silent.2 id, agrees.attempts id]

theorem TableAgrees.update {trace : Trace} {store : JobStore} {reply : Reply}
    (agrees : TableAgrees trace store) (call : Call) (selected : Job → Bool) (change : Job → Job)
    (keeps : ∀ row, selected row = true → (change row).id = row.id)
    (entries : ∀ row, (change row).enqueued = row.enqueued)
    (leases : ∀ row, (change row).LeaseExact)
    (attempts : ∀ row, (change row).attempts = row.attempts)
    (silent : reply.enqueuedJob = none ∧ ∀ id, reply.claims id = false) :
    TableAgrees (trace ++ [(call, reply)]) (store.updateWhere selected change keeps) where
  entries := by
    rw [Table.column_updateWhere store selected change keeps Job.enqueued entries]
    exact (agrees.unchanged call silent).entries
  leases := Table.forall_updateWhere _ _ _ keeps agrees.leases fun row _ => leases row
  attempts id := by
    have kept : ((store.updateWhere selected change keeps).find id).map Job.attempts =
        (store.get id).map Job.attempts := by
      rw [Table.find_updateWhere, Option.map_map]
      congr 1
      funext row
      cases chosen : selected row <;> simp [chosen, attempts]
    rw [(agrees.unchanged call silent).attempts id]
    exact congrArg (Option.getD · 0) kept.symm

theorem TableAgrees.enqueue {trace : Trace} {store : JobStore} (agrees : TableAgrees trace store)
    (id kind payload : String) :
    TableAgrees
      (trace ++ [(.enqueue id kind payload, (apply store (.enqueue id kind payload)).2)])
      (apply store (.enqueue id kind payload)).1 := by
  cases call : store.enqueue id kind payload with
  | mk next result =>
      simp only [apply, call]
      cases result with
      | none =>
          rw [JobStore.enqueue_eq_none call]
          exact agrees.unchanged _ ⟨rfl, fun _ => rfl⟩
      | some job =>
          obtain ⟨absent, rfl, rows, found⟩ := JobStore.enqueue_eq_some call
          refine ⟨?_, ?_, ?_⟩
          · simp [enqueuedIn_snoc, rows, agrees.entries, Reply.enqueuedJob]
          · intro row member
            rw [rows, List.mem_append, List.mem_singleton] at member
            rcases member with old | rfl
            · exact agrees.leases row old
            · exact Job.fresh_leaseExact id kind payload
          · intro k
            rw [claimsOf_snoc, agrees.attempts k, found k]
            by_cases same : id = k
            · subst same
              simp [absent, Reply.claims, Job.fresh]
            · simp [same, Reply.claims]

theorem TableAgrees.claim {trace : Trace} {store : JobStore} (agrees : TableAgrees trace store)
    (now : ℚ) (leaseSeconds : ℤ) :
    TableAgrees (trace ++ [(.claim now leaseSeconds, (apply store (.claim now leaseSeconds)).2)])
      (apply store (.claim now leaseSeconds)).1 := by
  cases call : store.claim now leaseSeconds with
  | mk next result =>
      simp only [apply, call]
      cases result with
      | none =>
          rw [(JobStore.claim_eq_none call).2]
          exact agrees.unchanged _ ⟨rfl, fun _ => rfl⟩
      | some job =>
          have found := JobStore.get_claim call
          obtain ⟨row, _, stored, _, rfl, rfl⟩ := JobStore.claim_eq_some call
          refine ⟨?_, ?_, ?_⟩
          · rw [enqueuedIn_snoc, ← agrees.entries]
            refine Eq.trans ?_ (List.append_nil _).symm
            exact Table.column_updateWhere store (JobStore.claimGuard row) _
              (fun stored _ => stored.leased_id _) Job.enqueued fun _ => rfl
          · exact Table.forall_updateWhere _ _ _ (fun stored _ => stored.leased_id _) agrees.leases
              fun old _ => old.leased_leaseExact _
          · intro k
            rw [claimsOf_snoc, agrees.attempts k, found k]
            by_cases same : k = row.id
            · subst same
              simp [stored, Reply.claims, Job.leased]
            · simp [same, Reply.claims, Ne.symm same]

theorem TableAgrees.step {trace : Trace} {store next : JobStore} {exchange : Call × Reply}
    (agrees : TableAgrees trace store) (fired : callStep store exchange next) :
    TableAgrees (trace ++ [exchange]) next := by
  obtain ⟨call, reply⟩ := exchange
  obtain ⟨rfl, rfl⟩ : (apply store call).1 = next ∧ (apply store call).2 = reply := by
    rw [show apply store call = (next, reply) from fired]
    exact ⟨rfl, rfl⟩
  cases call with
  | enqueue id kind payload => exact agrees.enqueue id kind payload
  | claim now leaseSeconds => exact agrees.claim now leaseSeconds
  | complete jobId =>
      exact agrees.update _ _ _ (fun row _ => row.finished_id) (fun _ => rfl)
        Job.finished_leaseExact (fun _ => rfl) ⟨rfl, fun _ => rfl⟩
  | fail jobId error retry =>
      exact agrees.update _ _ _ (fun row _ => row.failed_id error retry) (fun _ => rfl)
        (fun row => row.failed_leaseExact error retry) (fun _ => rfl) ⟨rfl, fun _ => rfl⟩
  | recoverExpired now =>
      exact agrees.update _ _ _ (fun row _ => row.requeued_id) (fun _ => rfl)
        Job.requeued_leaseExact (fun _ => rfl) ⟨rfl, fun _ => rfl⟩

theorem TableAgrees.get_of_mem {store : JobStore} {row : Job} (member : row ∈ store.rows) :
    store.get row.id = some row :=
  (Table.find_eq_some_iff store row.id row).mpr ⟨member, rfl⟩

example : (history [.enqueue "a" "agent" "payload", .claim 0 1, .recoverExpired 2,
    .claim 3 30]).2.rows.map Job.attempts = [2] := by decide +kernel

end Eis.Observability
