import Mathlib.Data.List.Dedup
import Mathlib.Data.List.Perm.Subperm
import Mathlib.Data.List.Range
import Eis.Observability.Leases

/-!
# The worker loop

`Worker.run_once` recovers expired leases, claims a job, starts its handler and
reports the outcome.  The store calls and the start of the handler are separate
steps, so any number of workers interleave between them; a worker can be
abandoned at every step (process death or cancellation), which leaves its lease
to expire.
-/

set_option autoImplicit false

namespace Eis.Observability

open Transition

variable {ω : Type} [DecidableEq ω]

inductive RunOnce where
  | idle
  | recovered
  | claimed
  | handling
  deriving DecidableEq

/-- The constructor arguments of each worker; `max_attempts` is shared. -/
structure WorkerConfig (ω : Type) where
  handlers : ω → String → Bool
  leaseSeconds : ω → ℤ
  maxAttempts : Nat

/-- `started` lists the jobs whose handlers were started, oldest first. -/
structure WorkerState (ω : Type) where
  leases : LeaseState ω
  stage : ω → RunOnce
  stopping : ω → Bool
  started : List Job

def WorkerState.init : WorkerState ω :=
  ⟨LeaseState.init, fun _ => .idle, fun _ => false, []⟩

inductive WorkerEvent (ω : Type) where
  | enqueue (id kind payload : String)
  | recoverExpired (worker : ω) (now : ℚ)
  | claim (worker : ω) (now : ℚ)
  | handle (worker : ω)
  | noHandler (worker : ω)
  | returned (worker : ω)
  | raised (worker : ω) (error : String)
  | abandon (worker : ω)
  | stop (worker : ω)

def WorkerState.call (s : WorkerState ω) (worker : ω) (place : RunOnce) (event : LeaseEvent ω) :
    Option (WorkerState ω) :=
  (s.leases.next event).map fun leases =>
    { s with leases, stage := Function.update s.stage worker place }

def WorkerState.next (config : WorkerConfig ω) (s : WorkerState ω) :
    WorkerEvent ω → Option (WorkerState ω)
  | .enqueue id kind payload =>
      (s.leases.next (.enqueue id kind payload)).map fun leases => { s with leases }
  | .recoverExpired worker now =>
      if s.stage worker = .idle ∧ s.stopping worker = false then
        s.call worker .recovered (.recoverExpired now)
      else none
  | .claim worker now =>
      if s.stage worker = .recovered then
        match s.leases.next (.claim worker now (config.leaseSeconds worker)) with
        | none => none
        | some leases => some
            { s with
              leases
              stage := Function.update s.stage worker
                (if (leases.held worker).isSome then .claimed else .idle) }
      else none
  | .handle worker =>
      match s.stage worker, s.leases.held worker with
      | .claimed, some job =>
          if config.handlers worker job.kind then some
            { s with
              stage := Function.update s.stage worker .handling
              started := s.started ++ [job] }
          else none
      | _, _ => none
  | .noHandler worker =>
      match s.stage worker, s.leases.held worker with
      | .claimed, some job =>
          if config.handlers worker job.kind then none
          else s.call worker .idle (.fail worker ("no handler for job kind: " ++ job.kind) false)
      | _, _ => none
  | .returned worker =>
      if s.stage worker = .handling then s.call worker .idle (.complete worker) else none
  | .raised worker error =>
      match s.stage worker, s.leases.held worker with
      | .handling, some job =>
          s.call worker .idle (.fail worker error (decide (job.attempts < config.maxAttempts)))
      | _, _ => none
  | .abandon worker => s.call worker .idle (.abandon worker)
  | .stop worker => some { s with stopping := Function.update s.stopping worker true }

def workerStep (config : WorkerConfig ω) (s : WorkerState ω) (event : WorkerEvent ω)
    (t : WorkerState ω) : Prop :=
  s.next config event = some t

def WorkerState.starts (s : WorkerState ω) (id : String) : Nat :=
  s.started.countP fun job => decide (job.id = id)

def WorkerState.storeCall (config : WorkerConfig ω) (s : WorkerState ω) :
    WorkerEvent ω → Option (LeaseEvent ω)
  | .enqueue id kind payload => some (.enqueue id kind payload)
  | .recoverExpired _ now => some (.recoverExpired now)
  | .claim worker now => some (.claim worker now (config.leaseSeconds worker))
  | .noHandler worker => (s.leases.held worker).map fun job =>
      .fail worker ("no handler for job kind: " ++ job.kind) false
  | .returned worker => some (.complete worker)
  | .raised worker error => (s.leases.held worker).map fun job =>
      .fail worker error (decide (job.attempts < config.maxAttempts))
  | .abandon worker => some (.abandon worker)
  | .handle _ | .stop _ => none

/-! ## What a step does -/

structure Calls (config : WorkerConfig ω) (s t : WorkerState ω) (event : WorkerEvent ω) : Prop where
  lease : ∃ lease, s.storeCall config event = some lease ∧ leaseStep s.leases lease t.leases
  started : t.started = s.started
  claimed : ∀ worker, t.stage worker = .claimed → s.stage worker = .claimed ∨
    ∃ now, event = .claim worker now

structure Starts (s t : WorkerState ω) (worker : ω) (job : Job) : Prop where
  claimed : s.stage worker = .claimed
  held : s.leases.held worker = some job
  leases : t.leases = s.leases
  stage : t.stage = Function.update s.stage worker .handling
  started : t.started = s.started ++ [job]

theorem calls_of_call {config : WorkerConfig ω} {s t : WorkerState ω} {event : WorkerEvent ω}
    {worker : ω} {place : RunOnce} {lease : LeaseEvent ω} (elsewhere : place ≠ .claimed)
    (made : s.storeCall config event = some lease) (call : s.call worker place lease = some t) :
    Calls config s t event := by
  obtain ⟨leases, next, rfl⟩ := Option.map_eq_some_iff.mp call
  refine ⟨⟨lease, made, next⟩, rfl, ?_⟩
  intro other claimed
  by_cases same : other = worker
  · exact absurd (by simpa [same] using claimed) elsewhere
  · exact Or.inl (by simpa [same] using claimed)

theorem workerStep_cases {config : WorkerConfig ω} {s t : WorkerState ω} {event : WorkerEvent ω}
    (fired : workerStep config s event t) :
    Calls config s t event ∨ (∃ worker job, Starts s t worker job) ∨
      (t.leases = s.leases ∧ t.stage = s.stage ∧ t.started = s.started) := by
  cases event with
  | enqueue id kind payload =>
      simp only [workerStep, WorkerState.next] at fired
      obtain ⟨leases, next, rfl⟩ := Option.map_eq_some_iff.mp fired
      exact Or.inl ⟨⟨_, rfl, next⟩, rfl, fun _ claimed => Or.inl claimed⟩
  | recoverExpired worker now =>
      simp only [workerStep, WorkerState.next, Option.ite_none_right_eq_some] at fired
      exact Or.inl (calls_of_call (by simp) rfl fired.2)
  | claim worker now =>
      simp only [workerStep, WorkerState.next, Option.ite_none_right_eq_some] at fired
      obtain ⟨_, fired⟩ := fired
      cases next : s.leases.next (.claim worker now (config.leaseSeconds worker)) with
      | none => simp [next] at fired
      | some leases =>
          simp only [next, Option.some.injEq] at fired
          subst fired
          refine Or.inl ⟨⟨_, rfl, next⟩, rfl, ?_⟩
          intro other claimed
          by_cases same : other = worker
          · exact Or.inr ⟨now, by rw [same]⟩
          · exact Or.inl (by simpa [same] using claimed)
  | handle worker =>
      simp only [workerStep, WorkerState.next] at fired
      split at fired
      · rename_i job place held
        simp only [Option.ite_none_right_eq_some, Option.some.injEq] at fired
        obtain ⟨_, rfl⟩ := fired
        exact Or.inr (Or.inl ⟨worker, job, place, held, rfl, rfl, rfl⟩)
      · cases fired
  | noHandler worker =>
      simp only [workerStep, WorkerState.next] at fired
      split at fired
      · rename_i job place held
        simp only [Option.ite_none_left_eq_some] at fired
        exact Or.inl (calls_of_call (by simp) (by simp [WorkerState.storeCall, held]) fired.2)
      · cases fired
  | returned worker =>
      simp only [workerStep, WorkerState.next, Option.ite_none_right_eq_some] at fired
      exact Or.inl (calls_of_call (by simp) rfl fired.2)
  | raised worker error =>
      simp only [workerStep, WorkerState.next] at fired
      split at fired
      · rename_i job place held
        exact Or.inl (calls_of_call (by simp) (by simp [WorkerState.storeCall, held]) fired)
      · cases fired
  | abandon worker => exact Or.inl (calls_of_call (by simp) rfl fired)
  | stop worker =>
      obtain rfl := Option.some.inj fired
      exact Or.inr (Or.inr ⟨rfl, rfl, rfl⟩)

/-! ## Attempt counts in the store -/

/-- No job has been claimed more than `limit` times, and a queued job fewer. -/
def RowsBounded (limit : Nat) (store : JobStore) : Prop :=
  ∀ id row, store.get id = some row → row.attempts ≤ limit ∧
    (row.status = .queued → row.attempts < limit)

/-- The call puts no job back into the queue that has used up its attempts: no
recovered lease and no recorded retry belongs to such a job. -/
def Spares (limit : Nat) (s : LeaseState ω) : LeaseEvent ω → Prop
  | .recoverExpired now => ∀ id row, s.store.get id = some row → row.Expired now →
      row.attempts < limit
  | .fail worker _ true => ∀ job row, s.held worker = some job →
      s.store.get job.id = some row → row.attempts < limit
  | _ => True

theorem RowsBounded.step {limit : Nat} (positive : 1 ≤ limit) {s t : LeaseState ω}
    {event : LeaseEvent ω} (bounded : RowsBounded limit s.store) (spares : Spares limit s event)
    (fired : leaseStep s event t) : RowsBounded limit t.store := by
  intro id row after
  cases event with
  | enqueue newId kind payload =>
      obtain rfl := Option.some.inj fired
      cases call : s.store.enqueue newId kind payload with
      | mk next reply =>
          simp only [call] at after
          cases reply with
          | none => exact bounded id row (JobStore.enqueue_eq_none call ▸ after)
          | some job =>
              obtain ⟨_, rfl, _, found⟩ := JobStore.enqueue_eq_some call
              rw [found id] at after
              split at after
              · obtain rfl := Option.some.inj after
                exact ⟨Nat.zero_le _, fun _ => positive⟩
              · exact bounded id row after
  | claim worker now leaseSeconds =>
      obtain ⟨_, rfl⟩ := leaseStep_claim.mp fired
      cases call : s.store.claim now leaseSeconds with
      | mk next reply =>
          simp only [call] at after
          cases reply with
          | none => exact bounded id row ((JobStore.claim_eq_none call).2 ▸ after)
          | some job =>
              obtain ⟨old, _, stored, queued, rfl, _⟩ := JobStore.claim_eq_some call
              rw [JobStore.get_claim call id] at after
              split at after
              · obtain rfl := Option.some.inj after
                exact ⟨(bounded old.id old stored).2 queued, fun impossible => by cases impossible⟩
              · exact bounded id row after
  | recoverExpired now =>
      obtain rfl := Option.some.inj fired
      simp only [JobStore.get_recoverExpired] at after
      obtain ⟨old, stored, rfl⟩ := Option.map_eq_some_iff.mp after
      split
      · rename_i expired
        exact ⟨(bounded id old stored).1, fun _ => spares id old stored expired⟩
      · exact bounded id old stored
  | complete worker =>
      obtain ⟨job, held, rfl⟩ := leaseStep_complete.mp fired
      simp only [JobStore.get_complete] at after
      obtain ⟨old, stored, rfl⟩ := Option.map_eq_some_iff.mp after
      split
      · exact ⟨(bounded id old stored).1, fun impossible => by cases impossible⟩
      · exact bounded id old stored
  | fail worker error retry =>
      obtain ⟨job, held, rfl⟩ := leaseStep_fail.mp fired
      simp only [JobStore.get_fail] at after
      obtain ⟨old, stored, rfl⟩ := Option.map_eq_some_iff.mp after
      split
      · rename_i own
        refine ⟨(bounded id old stored).1, ?_⟩
        intro queued
        cases retry with
        | false => cases queued
        | true =>
            have storedAt : s.store.get job.id = some old := by
              rw [← own, Table.find_key _ stored]
              exact stored
            exact spares job old held storedAt
      · exact bounded id old stored
  | abandon worker =>
      obtain rfl := Option.some.inj fired
      exact bounded id row after

/-! ## Handler starts -/

def Job.ticket (job : Job) : String × Nat := (job.id, job.attempts)

/-- Every started handler and every job about to be started used a claim of its
own: attempt numbers start at one and do not exceed the stored count. -/
structure WorkerInv (limit : Nat) (s : WorkerState ω) : Prop where
  tickets : Tickets s.leases
  bounded : RowsBounded limit s.leases.store
  positive : ∀ worker job, s.leases.held worker = some job → 1 ≤ job.attempts
  started : ∀ job ∈ s.started, 1 ≤ job.attempts ∧
    ∃ row, s.leases.store.get job.id = some row ∧ job.attempts ≤ row.attempts
  unstarted : ∀ worker job, s.stage worker = .claimed → s.leases.held worker = some job →
    job.ticket ∉ s.started.map Job.ticket
  distinct : (s.started.map Job.ticket).Nodup

omit [DecidableEq ω] in
theorem workerInv_init (limit : Nat) : WorkerInv limit (WorkerState.init : WorkerState ω) where
  tickets := tickets_init
  bounded := by
    intro id row present
    cases present
  positive worker job held := by cases held
  started job member := by cases member
  unstarted worker job claimed := by cases claimed
  distinct := List.nodup_nil

theorem WorkerInv.of_calls {config : WorkerConfig ω} {s t : WorkerState ω}
    {event : WorkerEvent ω} (inv : WorkerInv config.maxAttempts s)
    (attempts : 1 ≤ config.maxAttempts)
    (spares : ∀ lease, s.storeCall config event = some lease →
      Spares config.maxAttempts s.leases lease)
    (calls : Calls config s t event) : WorkerInv config.maxAttempts t := by
  obtain ⟨lease, made, fired⟩ := calls.lease
  refine ⟨inv.tickets.step fired, inv.bounded.step attempts (spares lease made) fired,
    ?_, ?_, ?_, ?_⟩
  · intro worker job held
    rcases leaseStep_held fired held with old | ⟨now, leaseSeconds, _, call⟩
    · exact inv.positive worker job old
    · obtain ⟨_, row, _, _, count⟩ := claim_ticket call
      omega
  · rw [calls.started]
    intro job member
    obtain ⟨first, row, stored, bound⟩ := inv.started job member
    obtain ⟨later, present, grown⟩ := leaseStep_precedes fired stored
    exact ⟨first, later, present, le_trans bound grown.attempts⟩
  · intro worker job claimed held
    rw [calls.started]
    rcases leaseStep_held fired held with old | ⟨now, leaseSeconds, _, call⟩
    · rcases calls.claimed worker claimed with before | ⟨now, rfl⟩
      · exact inv.unstarted worker job before old
      · obtain rfl : .claim worker now (config.leaseSeconds worker) = lease :=
          Option.some.inj made
        rw [(leaseStep_claim.mp fired).1] at old
        cases old
    · -- the ticket of this claim is larger than those of all started handlers
      intro member
      obtain ⟨done, doneMember, same⟩ := List.mem_map.mp member
      obtain ⟨sameId, sameCount⟩ := Prod.mk.inj same
      obtain ⟨_, row, stored, _, count⟩ := claim_ticket call
      obtain ⟨_, doneRow, doneAt, bound⟩ := inv.started done doneMember
      rw [sameId, stored] at doneAt
      obtain rfl := Option.some.inj doneAt
      omega
  · rw [calls.started]
    exact inv.distinct

theorem WorkerInv.of_starts {limit : Nat} {s t : WorkerState ω} {worker : ω} {job : Job}
    (inv : WorkerInv limit s) (starts : Starts s t worker job) : WorkerInv limit t := by
  have fresh := inv.unstarted worker job starts.claimed starts.held
  refine ⟨starts.leases ▸ inv.tickets, starts.leases ▸ inv.bounded, ?_, ?_, ?_, ?_⟩
  · rw [starts.leases]
    exact inv.positive
  · rw [starts.started, starts.leases]
    intro done member
    rcases List.mem_append.mp member with old | new
    · exact inv.started done old
    · obtain rfl := List.mem_singleton.mp new
      exact ⟨inv.positive worker done starts.held,
        inv.tickets.issued worker done starts.held⟩
  · intro other double claimed held
    rw [starts.leases] at held
    rw [starts.started, List.map_append, List.mem_append, not_or]
    rw [starts.stage] at claimed
    have different : other ≠ worker := by
      rintro rfl
      simp at claimed
    rw [Function.update_of_ne different] at claimed
    refine ⟨inv.unstarted other double claimed held, ?_⟩
    intro same
    obtain ⟨sameId, sameCount⟩ := Prod.mk.inj (List.mem_singleton.mp same)
    exact different (inv.tickets.distinct other worker double job held starts.held
      sameId sameCount)
  · rw [starts.started, List.map_append]
    refine List.nodup_append.mpr ⟨inv.distinct, by simp, ?_⟩
    intro old member new newMember same
    obtain rfl := List.mem_singleton.mp newMember
    exact fresh (same ▸ member)

theorem WorkerInv.step {config : WorkerConfig ω} {s t : WorkerState ω} {event : WorkerEvent ω}
    (inv : WorkerInv config.maxAttempts s) (attempts : 1 ≤ config.maxAttempts)
    (spares : ∀ lease, s.storeCall config event = some lease →
      Spares config.maxAttempts s.leases lease)
    (fired : workerStep config s event t) : WorkerInv config.maxAttempts t := by
  rcases workerStep_cases fired with calls | ⟨worker, job, starts⟩ | ⟨leases, stage, started⟩
  · exact inv.of_calls attempts spares calls
  · exact inv.of_starts starts
  · refine ⟨leases ▸ inv.tickets, leases ▸ inv.bounded, ?_, ?_, ?_, ?_⟩
    · rw [leases]
      exact inv.positive
    · rw [leases, started]
      exact inv.started
    · rw [leases, stage, started]
      exact inv.unstarted
    · rw [started]
      exact inv.distinct

omit [DecidableEq ω] in
theorem WorkerInv.starts_le {limit : Nat} {s : WorkerState ω} (inv : WorkerInv limit s)
    (id : String) : s.starts id ≤ limit := by
  let own := s.started.filter fun job => decide (job.id = id)
  have ownId : ∀ job ∈ own, job ∈ s.started ∧ job.id = id := by
    intro job member
    simpa [own] using member
  have distinct : (own.map Job.attempts).Nodup := by
    refine List.Nodup.map_on ?_ (List.Nodup.filter _ inv.distinct.of_map)
    intro first firstMember second secondMember sameCount
    have sameId := (ownId first firstMember).2.trans (ownId second secondMember).2.symm
    exact List.inj_on_of_nodup_map inv.distinct (ownId first firstMember).1
      (ownId second secondMember).1 (Prod.ext sameId sameCount)
  have range : own.map Job.attempts ⊆ List.range' 1 limit := by
    intro count member
    obtain ⟨job, jobMember, rfl⟩ := List.mem_map.mp member
    obtain ⟨first, row, stored, bound⟩ := inv.started job (ownId job jobMember).1
    have limited := (inv.bounded job.id row stored).1
    exact List.mem_range'_1.mpr ⟨first, by omega⟩
  calc s.starts id = (own.map Job.attempts).length := by
        simp [WorkerState.starts, own, List.countP_eq_length_filter]
    _ ≤ (List.range' 1 limit).length := (List.subperm_of_subset distinct range).length_le
    _ = limit := List.length_range'

/-! ## Bounded attempts -/

/-- The event puts no job that has been claimed `maxAttempts` times back into
the queue. -/
def KeepsBound (config : WorkerConfig ω) (s : WorkerState ω) (event : WorkerEvent ω) : Prop :=
  ∀ lease, s.storeCall config event = some lease → Spares config.maxAttempts s.leases lease

/-- Workers that share `maxAttempts` start each job's handler at most that
often, in every run in which no recovered lease and no retry belongs to a job
already claimed `maxAttempts` times. -/
theorem handler_starts_bounded (config : WorkerConfig ω) (attempts : 1 ≤ config.maxAttempts)
    (events : List (WorkerEvent ω)) (s : WorkerState ω)
    (run : Run (Guarded (KeepsBound config) (workerStep config)) WorkerState.init events s)
    (id : String) : s.starts id ≤ config.maxAttempts := by
  have inv : WorkerInv config.maxAttempts s :=
    run.invariant (workerInv_init config.maxAttempts)
      fun _ _ _ inv fired => inv.step attempts fired.1 fired.2
  exact inv.starts_le id

omit [DecidableEq ω] in
theorem keepsBound_of_few {config : WorkerConfig ω} {s : WorkerState ω} {event : WorkerEvent ω}
    (few : (s.storeCall config event).isNone = true ∨
      ∀ row ∈ s.leases.store.rows, row.attempts < config.maxAttempts) :
    KeepsBound config s event := by
  intro lease made
  rcases few with none | few
  · rw [made] at none
    cases none
  · have stored : ∀ id row, s.leases.store.get id = some row →
        row.attempts < config.maxAttempts := fun id row present =>
      few row ((s.leases.store.find_eq_some_iff id row).mp present).1
    cases lease with
    | recoverExpired now => exact fun id row present _ => stored id row present
    | fail worker error retry =>
        cases retry with
        | false => trivial
        | true => exact fun job row _ present => stored job.id row present
    | enqueue | claim | complete | abandon => trivial

def twoAttempts : WorkerConfig Unit := ⟨fun _ _ => true, fun _ => 300, 2⟩

/-- The first handler is abandoned, and the job is taken up again behind its lease. -/
theorem handler_starts_bounded_abandoned :
    ∃ s : WorkerState Unit, s.starts "a" = 2 ∧ s.starts "a" ≤ twoAttempts.maxAttempts := by
  let events : List (WorkerEvent Unit) :=
    [.enqueue "a" "agent" "payload", .recoverExpired () 0, .claim () 0, .handle (), .abandon (),
      .recoverExpired () 400, .claim () 400, .handle ()]
  have reached : (events.foldlM (fun a event =>
      if (a.storeCall twoAttempts event).isNone = true ∨
          ∀ row ∈ a.leases.store.rows, row.attempts < twoAttempts.maxAttempts then
        a.next twoAttempts event
      else none) WorkerState.init).map (fun s => s.starts "a") = some 2 := by decide +kernel
  obtain ⟨s, folded, starts⟩ := Option.map_eq_some_iff.mp reached
  have run : Run (Guarded (KeepsBound twoAttempts) (workerStep twoAttempts))
      WorkerState.init events s :=
    (Run.of_guarded_foldlM folded).mono fun _ _ _ fired => ⟨keepsBound_of_few fired.1, fired.2⟩
  exact ⟨s, starts, handler_starts_bounded twoAttempts (by decide) events s run "a"⟩

def oneAttempt : WorkerConfig Unit := ⟨fun _ _ => true, fun _ => 300, 1⟩

/-- A handler abandoned on its only attempt is started again after its lease. -/
theorem abandoned_handler_restarts :
    ¬ ∀ (config : WorkerConfig Unit), 1 ≤ config.maxAttempts →
      ∀ (events : List (WorkerEvent Unit)) (s : WorkerState Unit),
        Run (workerStep config) WorkerState.init events s →
          ∀ id, s.starts id ≤ config.maxAttempts := by
  intro bounded
  let events : List (WorkerEvent Unit) :=
    [.enqueue "a" "agent" "payload", .recoverExpired () 0, .claim () 0, .handle (), .abandon (),
      .recoverExpired () 400, .claim () 400, .handle ()]
  have reached : (events.foldlM (WorkerState.next oneAttempt) WorkerState.init).map
      (fun s => s.starts "a") = some 2 := by decide +kernel
  obtain ⟨s, folded, starts⟩ := Option.map_eq_some_iff.mp reached
  have limited := bounded oneAttempt le_rfl events s (Run.of_foldlM folded) "a"
  rw [starts] at limited
  exact absurd limited (by decide)

end Eis.Observability
