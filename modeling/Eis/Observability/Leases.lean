import Mathlib.Logic.Function.Basic
import Eis.Foundation.Run
import Eis.Observability.Jobs

/-!
# Leases and the workers that hold them

Any number of workers share one `JobStore`.  A worker keeps the `Job` that its
claim returned until it reports `complete` or `fail`, or is abandoned; leases
are recovered at any clock reading in between.  `complete` and `fail` address
the row by `id` alone, so a report can reach the row after a later claim.
-/

set_option autoImplicit false

namespace Eis.Observability

open Transition

variable {ω : Type} [DecidableEq ω]

structure LeaseState (ω : Type) where
  store : JobStore
  held : ω → Option Job

def LeaseState.init : LeaseState ω := ⟨Table.empty, fun _ => none⟩

inductive LeaseEvent (ω : Type) where
  | enqueue (id kind payload : String)
  | claim (worker : ω) (now : ℚ) (leaseSeconds : ℤ)
  | recoverExpired (now : ℚ)
  | complete (worker : ω)
  | fail (worker : ω) (error : String) (retry : Bool)
  | abandon (worker : ω)

def LeaseEvent.settledBy : LeaseEvent ω → Option ω
  | .complete worker => some worker
  | .fail worker _ _ => some worker
  | _ => none

def LeaseState.next (s : LeaseState ω) : LeaseEvent ω → Option (LeaseState ω)
  | .enqueue id kind payload => some { s with store := (s.store.enqueue id kind payload).1 }
  | .claim worker now leaseSeconds =>
      match s.held worker with
      | some _ => none
      | none => some
          { store := (s.store.claim now leaseSeconds).1
            held := Function.update s.held worker (s.store.claim now leaseSeconds).2 }
  | .recoverExpired now => some { s with store := (s.store.recoverExpired now).1 }
  | .complete worker =>
      match s.held worker with
      | none => none
      | some job => some
          { store := s.store.complete job.id, held := Function.update s.held worker none }
  | .fail worker error retry =>
      match s.held worker with
      | none => none
      | some job => some
          { store := s.store.fail job.id error retry
            held := Function.update s.held worker none }
  | .abandon worker => some { s with held := Function.update s.held worker none }

def leaseStep (s : LeaseState ω) (event : LeaseEvent ω) (t : LeaseState ω) : Prop :=
  s.next event = some t

/-- The worker's claim is the last claim of the job and its lease still runs. -/
def LeaseState.Holds (s : LeaseState ω) (worker : ω) (job : Job) : Prop :=
  s.held worker = some job ∧
    ∃ row, s.store.get job.id = some row ∧ row.status = .running ∧ row.attempts = job.attempts

def LeaseState.Overtaken (s : LeaseState ω) (worker : ω) : Prop :=
  ∃ job row, s.held worker = some job ∧ s.store.get job.id = some row ∧
    job.attempts < row.attempts

/-! ## What a step does -/

theorem leaseStep_claim {s t : LeaseState ω} {worker : ω} {now : ℚ} {leaseSeconds : ℤ} :
    leaseStep s (.claim worker now leaseSeconds) t ↔ s.held worker = none ∧
      t = ⟨(s.store.claim now leaseSeconds).1,
        Function.update s.held worker (s.store.claim now leaseSeconds).2⟩ := by
  unfold leaseStep LeaseState.next
  cases holds : s.held worker <;> simp [holds, eq_comm]

theorem leaseStep_complete {s t : LeaseState ω} {worker : ω} :
    leaseStep s (.complete worker) t ↔ ∃ job, s.held worker = some job ∧
      t = ⟨s.store.complete job.id, Function.update s.held worker none⟩ := by
  unfold leaseStep LeaseState.next
  cases holds : s.held worker <;> simp [holds, eq_comm]

theorem leaseStep_fail {s t : LeaseState ω} {worker : ω} {error : String} {retry : Bool} :
    leaseStep s (.fail worker error retry) t ↔ ∃ job, s.held worker = some job ∧
      t = ⟨s.store.fail job.id error retry, Function.update s.held worker none⟩ := by
  unfold leaseStep LeaseState.next
  cases holds : s.held worker <;> simp [holds, eq_comm]

theorem leaseStep_store {s t : LeaseState ω} {event : LeaseEvent ω}
    (fired : leaseStep s event t) :
    t.store = s.store ∨ ∃ call, t.store = (apply s.store call).1 := by
  cases event with
  | enqueue id kind payload =>
      obtain rfl := Option.some.inj fired
      exact Or.inr ⟨.enqueue id kind payload, rfl⟩
  | claim worker now leaseSeconds =>
      obtain ⟨_, rfl⟩ := leaseStep_claim.mp fired
      exact Or.inr ⟨.claim now leaseSeconds, rfl⟩
  | recoverExpired now =>
      obtain rfl := Option.some.inj fired
      exact Or.inr ⟨.recoverExpired now, rfl⟩
  | complete worker =>
      obtain ⟨job, _, rfl⟩ := leaseStep_complete.mp fired
      exact Or.inr ⟨.complete job.id, rfl⟩
  | fail worker error retry =>
      obtain ⟨job, _, rfl⟩ := leaseStep_fail.mp fired
      exact Or.inr ⟨.fail job.id error retry, rfl⟩
  | abandon worker =>
      obtain rfl := Option.some.inj fired
      exact Or.inl rfl

theorem leaseStep_precedes {s t : LeaseState ω} {event : LeaseEvent ω}
    (fired : leaseStep s event t) {k : String} {row : Job} (present : s.store.get k = some row) :
    ∃ later, t.store.get k = some later ∧ row.Precedes later := by
  rcases leaseStep_store fired with same | ⟨call, stored⟩
  · exact ⟨row, same ▸ present, Job.Precedes.refl row⟩
  · rw [stored]
    exact apply_precedes s.store call k row present

theorem leaseStep_held {s t : LeaseState ω} {event : LeaseEvent ω}
    (fired : leaseStep s event t) {worker : ω} {job : Job} (held : t.held worker = some job) :
    s.held worker = some job ∨ ∃ now leaseSeconds,
      event = .claim worker now leaseSeconds ∧
        s.store.claim now leaseSeconds = (t.store, some job) := by
  have released : ∀ other : ω, Function.update s.held other none worker = some job →
      s.held worker = some job := by
    intro other after
    by_cases same : worker = other
    · simp [same] at after
    · simpa [same] using after
  cases event with
  | enqueue id kind payload =>
      obtain rfl := Option.some.inj fired
      exact Or.inl held
  | claim other now leaseSeconds =>
      obtain ⟨_, rfl⟩ := leaseStep_claim.mp fired
      by_cases same : worker = other
      · subst same
        have reply : (s.store.claim now leaseSeconds).2 = some job := by simpa using held
        exact Or.inr ⟨now, leaseSeconds, rfl, by rw [← reply]⟩
      · exact Or.inl (by simpa [same] using held)
  | recoverExpired now =>
      obtain rfl := Option.some.inj fired
      exact Or.inl held
  | complete other =>
      obtain ⟨done, _, rfl⟩ := leaseStep_complete.mp fired
      exact Or.inl (released other held)
  | fail other error retry =>
      obtain ⟨done, _, rfl⟩ := leaseStep_fail.mp fired
      exact Or.inl (released other held)
  | abandon other =>
      obtain rfl := Option.some.inj fired
      exact Or.inl (released other held)

/-! ## Claims are numbered by the attempt count -/

/-- A held job is an earlier or the latest claim of its row, and no two
workers hold the same claim. -/
structure Tickets (s : LeaseState ω) : Prop where
  issued : ∀ worker job, s.held worker = some job →
    ∃ row, s.store.get job.id = some row ∧ job.attempts ≤ row.attempts
  distinct : ∀ worker other job double, s.held worker = some job →
    s.held other = some double → job.id = double.id → job.attempts = double.attempts →
    worker = other

omit [DecidableEq ω] in
theorem tickets_init : Tickets (LeaseState.init : LeaseState ω) where
  issued _ _ held := by simp [LeaseState.init] at held
  distinct _ _ _ _ held := by simp [LeaseState.init] at held

theorem claim_ticket {store next : JobStore} {now : ℚ} {leaseSeconds : ℤ} {job : Job}
    (call : store.claim now leaseSeconds = (next, some job)) :
    next.get job.id = some job ∧
      ∃ row, store.get job.id = some row ∧ row.status = .queued ∧
        job.attempts = row.attempts + 1 := by
  have found := JobStore.get_claim call job.id
  obtain ⟨row, _, stored, queued, rfl, _⟩ := JobStore.claim_eq_some call
  exact ⟨by simpa using found, row, stored, queued, rfl⟩

omit [DecidableEq ω] in
theorem Tickets.fresh {s : LeaseState ω} (tickets : Tickets s) {now : ℚ} {leaseSeconds : ℤ}
    {next : JobStore} {job : Job} (call : s.store.claim now leaseSeconds = (next, some job))
    {worker : ω} {old : Job} (held : s.held worker = some old) (same : old.id = job.id) :
    old.attempts < job.attempts := by
  obtain ⟨_, row, stored, _, count⟩ := claim_ticket call
  obtain ⟨issuedRow, issuedAt, bound⟩ := tickets.issued worker old held
  rw [same, stored] at issuedAt
  obtain rfl := Option.some.inj issuedAt
  omega

theorem Tickets.step {s t : LeaseState ω} {event : LeaseEvent ω} (tickets : Tickets s)
    (fired : leaseStep s event t) : Tickets t where
  issued worker job held := by
    rcases leaseStep_held fired held with old | ⟨now, leaseSeconds, _, call⟩
    · obtain ⟨row, stored, bound⟩ := tickets.issued worker job old
      obtain ⟨later, present, grown⟩ := leaseStep_precedes fired stored
      exact ⟨later, present, le_trans bound grown.attempts⟩
    · exact ⟨job, (claim_ticket call).1, le_rfl⟩
  distinct worker other job double held heldOther sameId sameCount := by
    rcases leaseStep_held fired held with old | ⟨now, leaseSeconds, rfl, call⟩
    · rcases leaseStep_held fired heldOther with oldOther | ⟨now, leaseSeconds, rfl, call⟩
      · exact tickets.distinct worker other job double old oldOther sameId sameCount
      · have older := tickets.fresh call old sameId
        omega
    · rcases leaseStep_held fired heldOther with oldOther | ⟨_, _, again, _⟩
      · have older := tickets.fresh call oldOther sameId.symm
        omega
      · cases again
        rfl

theorem tickets_of_run {events : List (LeaseEvent ω)} {s : LeaseState ω}
    (run : Run leaseStep LeaseState.init events s) : Tickets s :=
  run.invariant tickets_init fun _ _ _ tickets fired => tickets.step fired

/-! ## Final results -/

/-- Once the lease holder's `complete` is applied, the job stays completed, and
no later claim takes it. -/
def ResultFinal (step : LeaseState ω → LeaseEvent ω → LeaseState ω → Prop)
    (s : LeaseState ω) (event : LeaseEvent ω) (t : LeaseState ω) : Prop :=
  ∀ worker job, event = .complete worker → s.Holds worker job →
    ∀ future u, Run step t future u → ∃ row, u.store.get job.id = some row ∧
      row.status = .completed ∧ row.attempts = job.attempts

/-- A report from a worker whose job has been claimed again leaves the row alone. -/
def StaleReportIgnored (s : LeaseState ω) (event : LeaseEvent ω) (t : LeaseState ω) : Prop :=
  ∀ worker job row, event.settledBy = some worker → s.held worker = some job →
    s.store.get job.id = some row → job.attempts < row.attempts →
    t.store.get job.id = some row

def LeaseSafe (step : LeaseState ω → LeaseEvent ω → LeaseState ω → Prop) : Prop :=
  ∀ past s event t, Run step LeaseState.init past s → step s event t →
    ResultFinal step s event t ∧ StaleReportIgnored s event t

def InTime (s : LeaseState ω) (event : LeaseEvent ω) : Prop :=
  ∀ worker, event.settledBy = some worker → ¬ s.Overtaken worker

/-- The job is completed by its last claim, which nobody holds any more. -/
structure SettledRow (id : String) (count : Nat) (s : LeaseState ω) : Prop where
  tickets : Tickets s
  completed : ∃ row, s.store.get id = some row ∧ row.status = .completed ∧ row.attempts = count
  unheld : ∀ worker job, s.held worker = some job → job.id = id → job.attempts ≠ count

theorem settledRow_of_complete {s t : LeaseState ω} (tickets : Tickets s) {worker : ω} {job : Job}
    (holds : s.Holds worker job) (fired : leaseStep s (.complete worker) t) :
    SettledRow job.id job.attempts t where
  tickets := tickets.step fired
  completed := by
    obtain ⟨held, row, stored, _, count⟩ := holds
    obtain ⟨done, heldDone, rfl⟩ := leaseStep_complete.mp fired
    obtain rfl : job = done := Option.some.inj (held.symm.trans heldDone)
    have rowId : row.id = job.id := Table.find_key _ stored
    exact ⟨row.finished, by simp [JobStore.get_complete, stored, rowId], rfl, count⟩
  unheld other double heldOther sameId sameCount := by
    obtain ⟨held, _⟩ := holds
    obtain ⟨done, _, rfl⟩ := leaseStep_complete.mp fired
    by_cases same : other = worker
    · simp [same] at heldOther
    · have before : s.held other = some double := by simpa [same] using heldOther
      exact same (tickets.distinct other worker double job before held sameId sameCount)

omit [DecidableEq ω] in
theorem SettledRow.no_report {id : String} {count : Nat} {s : LeaseState ω}
    (settled : SettledRow id count s) {event : LeaseEvent ω} (inTime : InTime s event)
    {worker : ω} {job : Job} (reports : event.settledBy = some worker)
    (held : s.held worker = some job) : job.id ≠ id := by
  intro same
  obtain ⟨row, stored, _, count⟩ := settled.completed
  obtain ⟨issuedRow, issuedAt, bound⟩ := settled.tickets.issued worker job held
  rw [same, stored] at issuedAt
  obtain rfl := Option.some.inj issuedAt
  have latest := settled.unheld worker job held same
  refine inTime worker reports ⟨job, row, held, same ▸ stored, ?_⟩
  omega

theorem SettledRow.row_kept {id : String} {count : Nat} {s t : LeaseState ω}
    (settled : SettledRow id count s) {event : LeaseEvent ω} (inTime : InTime s event)
    (fired : leaseStep s event t) :
    ∃ row, t.store.get id = some row ∧ row.status = .completed ∧ row.attempts = count := by
  obtain ⟨row, stored, completed, counted⟩ := settled.completed
  refine ⟨row, ?_, completed, counted⟩
  have rowId : row.id = id := Table.find_key _ stored
  cases event with
  | enqueue newId kind payload =>
      obtain rfl := Option.some.inj fired
      exact s.store.get_enqueue newId kind payload id stored
  | claim worker now leaseSeconds =>
      obtain ⟨_, rfl⟩ := leaseStep_claim.mp fired
      cases call : s.store.claim now leaseSeconds with
      | mk next reply =>
          cases reply with
          | none => exact (JobStore.claim_eq_none call).2 ▸ stored
          | some job =>
              obtain ⟨_, taken, takenAt, queued, _⟩ := claim_ticket call
              have other : ¬ id = job.id := by
                rintro rfl
                obtain rfl := Option.some.inj (stored.symm.trans takenAt)
                rw [completed] at queued
                cases queued
              simp [JobStore.get_claim call, other, stored]
  | recoverExpired now =>
      obtain rfl := Option.some.inj fired
      have unexpired : ¬ row.Expired now := by
        rintro ⟨running, _⟩
        rw [completed] at running
        cases running
      simp [JobStore.get_recoverExpired, stored, unexpired]
  | complete worker =>
      obtain ⟨job, held, rfl⟩ := leaseStep_complete.mp fired
      have other := settled.no_report inTime rfl held
      simp [JobStore.get_complete, stored, rowId, Ne.symm other]
  | fail worker error retry =>
      obtain ⟨job, held, rfl⟩ := leaseStep_fail.mp fired
      have other := settled.no_report inTime rfl held
      simp [JobStore.get_fail, stored, rowId, Ne.symm other]
  | abandon worker =>
      obtain rfl := Option.some.inj fired
      exact stored

theorem SettledRow.step {id : String} {count : Nat} {s t : LeaseState ω}
    (settled : SettledRow id count s) {event : LeaseEvent ω} (inTime : InTime s event)
    (fired : leaseStep s event t) : SettledRow id count t where
  tickets := settled.tickets.step fired
  completed := settled.row_kept inTime fired
  unheld worker job held sameId := by
    rcases leaseStep_held fired held with old | ⟨now, leaseSeconds, _, call⟩
    · exact settled.unheld worker job old sameId
    · -- a completed row cannot be claimed
      obtain ⟨row, stored, completed, _⟩ := settled.completed
      obtain ⟨_, taken, takenAt, queued, _⟩ := claim_ticket call
      rw [sameId, stored] at takenAt
      obtain rfl := Option.some.inj takenAt
      rw [completed] at queued
      cases queued

/-- In every run in which each `complete` and `fail` reaches the store before
the job is claimed again, results are final and stale reports change nothing.
Conversely, a late report on a job that another worker runs always changes
the row. -/
theorem job_results_final :
    LeaseSafe (Guarded InTime (leaseStep : LeaseState ω → LeaseEvent ω → LeaseState ω → Prop)) ∧
    ∀ (s t : LeaseState ω) event worker job row, leaseStep s event t →
      event.settledBy = some worker → s.held worker = some job →
      s.store.get job.id = some row → job.attempts < row.attempts → row.status = .running →
      t.store.get job.id ≠ some row := by
  refine ⟨?_, ?_⟩
  · intro past s event t run fired
    have tickets : Tickets s := tickets_of_run run.of_guarded
    refine ⟨?_, ?_⟩
    · intro worker job completes holds future u later
      subst completes
      have settled : SettledRow job.id job.attempts u :=
        later.invariant (settledRow_of_complete tickets holds fired.2)
          fun _ _ _ settled guarded => settled.step guarded.1 guarded.2
      exact settled.completed
    · intro worker job row reports held stored late
      exact absurd ⟨job, row, held, stored, late⟩ (fired.1 worker reports)
  · intro s t event worker job row fired reports held stored late running unchanged
    have rowId : row.id = job.id := Table.find_key _ stored
    cases event with
    | complete other =>
        obtain rfl : other = worker := Option.some.inj reports
        obtain ⟨done, heldDone, rfl⟩ := leaseStep_complete.mp fired
        obtain rfl := Option.some.inj (held.symm.trans heldDone)
        have written : row.finished = row := by
          simpa [JobStore.get_complete, stored, rowId] using unchanged
        rw [← written] at running
        cases running
    | fail other error retry =>
        obtain rfl : other = worker := Option.some.inj reports
        obtain ⟨done, heldDone, rfl⟩ := leaseStep_fail.mp fired
        obtain rfl := Option.some.inj (held.symm.trans heldDone)
        have written : row.failed error retry = row := by
          simpa [JobStore.get_fail, stored, rowId] using unchanged
        rw [← written] at running
        cases retry <;> cases running
    | enqueue | claim | recoverExpired | abandon => cases reports

/-- The second worker completes the job; the first one, whose lease had run out,
then reports a failure and puts the completed job back into the queue. -/
theorem late_failure_requeues_completed_job :
    ¬ LeaseSafe (leaseStep : LeaseState Bool → LeaseEvent Bool → LeaseState Bool → Prop) := by
  intro safe
  let past : List (LeaseEvent Bool) :=
    [.enqueue "a" "agent" "payload", .claim false 0 1, .recoverExpired 2, .claim true 3 10]
  let job : Job := (((Job.fresh "a" "agent" "payload").leased 1).requeued).leased 13
  have reached : (past.foldlM LeaseState.next LeaseState.init).map
      (fun s => (s.held true, s.store.get "a")) = some (some job, some job) := by decide +kernel
  have requeued : (([.complete true, .fail false "slow" true] : List (LeaseEvent Bool)).foldlM
      LeaseState.next =<< past.foldlM LeaseState.next LeaseState.init).map
      (fun u => (u.store.get "a").map Job.status) = some (some .queued) := by decide +kernel
  obtain ⟨s, folded, facts⟩ := Option.map_eq_some_iff.mp reached
  obtain ⟨heldTrue, stored⟩ := Prod.mk.inj facts
  rw [folded] at requeued
  obtain ⟨u, tail, status⟩ := Option.map_eq_some_iff.mp requeued
  obtain ⟨t, completes, last⟩ := Option.bind_eq_some_iff.mp tail
  have failure : leaseStep t (.fail false "slow" true) u := by
    simpa [leaseStep] using last
  obtain ⟨row, present, completed, _⟩ :=
    (safe past s (.complete true) t (Run.of_foldlM folded) completes).1 true job rfl
      ⟨heldTrue, job, stored, rfl, rfl⟩ [.fail false "slow" true] u (Run.single failure)
  have presentAt : u.store.get "a" = some row := present
  have late : some row.status = some .queued := by
    simpa only [presentAt, Option.map_some] using status
  rw [completed] at late
  cases late

end Eis.Observability
