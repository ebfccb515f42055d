import Mathlib.Logic.Function.Basic
import Eis.Foundation.Run
import Eis.Observability.Jobs

/-!
# Claims whose SELECT and UPDATE are separate transactions

The deferred transaction of `JobStore.claim` starts at its `UPDATE`, so any
other store call may run between the `SELECT` and the `UPDATE`.  The guard of
the `UPDATE` tests `status='queued'` only, while the returned `Job` is built
from the row that the `SELECT` read.
-/

set_option autoImplicit false

namespace Eis.Observability

open Transition

variable {ω : Type} [DecidableEq ω]

/-- `selected` holds the row and the lease of each claim that has run its
`SELECT` but not yet its `UPDATE`. -/
structure ClaimState (ω : Type) where
  store : JobStore
  selected : ω → Option (Job × ℚ)

def ClaimState.init : ClaimState ω := ⟨Table.empty, fun _ => none⟩

inductive ClaimEvent (ω : Type) where
  | select (caller : ω) (now : ℚ) (leaseSeconds : ℤ)
  | update (caller : ω)
  | enqueue (id kind payload : String)
  | complete (jobId : String)
  | fail (jobId error : String) (retry : Bool)
  | recoverExpired (now : ℚ)

def ClaimState.next (s : ClaimState ω) : ClaimEvent ω → Option (ClaimState ω)
  | .select caller now leaseSeconds =>
      match s.selected caller with
      | some _ => none
      | none => some { s with
          selected := Function.update s.selected caller
            (s.store.claimSelect.map fun row => (row, now + leaseSeconds)) }
  | .update caller =>
      match s.selected caller with
      | none => none
      | some (row, lease) => some
          { store := (s.store.claimUpdate row lease).1
            selected := Function.update s.selected caller none }
  | .enqueue id kind payload => some { s with store := (s.store.enqueue id kind payload).1 }
  | .complete jobId => some { s with store := s.store.complete jobId }
  | .fail jobId error retry => some { s with store := s.store.fail jobId error retry }
  | .recoverExpired now => some { s with store := (s.store.recoverExpired now).1 }

def ClaimState.selectedRow (s : ClaimState ω) : ClaimEvent ω → Option (Job × ℚ)
  | .update caller => s.selected caller
  | _ => none

def ClaimState.reply (s : ClaimState ω) (event : ClaimEvent ω) : Option Job :=
  (s.selectedRow event).bind fun selection => (s.store.claimUpdate selection.1 selection.2).2

omit [DecidableEq ω] in
theorem selecting_caller {s : ClaimState ω} {event : ClaimEvent ω} {selection : Job × ℚ}
    (pending : s.selectedRow event = some selection) :
    ∃ caller, s.selected caller = some selection := by
  cases event with
  | update caller => exact ⟨caller, pending⟩
  | select | enqueue | complete | fail | recoverExpired => cases pending

def claimStep (s : ClaimState ω) (event : ClaimEvent ω) (t : ClaimState ω) : Prop :=
  s.next event = some t

/-! ## What a step does -/

theorem claimStep_select {s t : ClaimState ω} {caller : ω} {now : ℚ} {leaseSeconds : ℤ} :
    claimStep s (.select caller now leaseSeconds) t ↔ s.selected caller = none ∧
      t = ⟨s.store, Function.update s.selected caller
        (s.store.claimSelect.map fun row => (row, now + leaseSeconds))⟩ := by
  unfold claimStep ClaimState.next
  cases pending : s.selected caller <;> simp [pending, eq_comm]

theorem claimStep_update {s t : ClaimState ω} {caller : ω} :
    claimStep s (.update caller) t ↔ ∃ row lease, s.selected caller = some (row, lease) ∧
      t = ⟨(s.store.claimUpdate row lease).1, Function.update s.selected caller none⟩ := by
  unfold claimStep ClaimState.next
  rcases pending : s.selected caller with _ | ⟨row, lease⟩ <;> simp [pending, eq_comm]

omit [DecidableEq ω] in
/-- The `UPDATE` reports a job exactly when it changes the stored row. -/
theorem reply_eq_some_iff {s : ClaimState ω} {event : ClaimEvent ω} {job : Job} :
    s.reply event = some job ↔ ∃ row lease stored, s.selectedRow event = some (row, lease) ∧
      s.store.get row.id = some stored ∧ stored.status = .queued ∧ job = row.leased lease := by
  unfold ClaimState.reply
  rcases pending : s.selectedRow event with _ | ⟨row, lease⟩
  · simp
  · rw [Option.bind_some, JobStore.claimUpdate_reply]
    cases stored : s.store.get row.id with
    | none => simp [stored]
    | some old =>
        by_cases queued : old.status = .queued
        · simp [stored, queued, Job.isQueued, eq_comm]
        · simp [stored, queued, Job.isQueued]

/-- The step does not claim the job; `later` is the row after it. -/
structure Unclaimed (s : ClaimState ω) (event : ClaimEvent ω) (row later : Job) : Prop where
  running : later.status = .running → row.status = .running
  attempts : later.attempts = row.attempts
  error : later.error = row.error ∨ ∃ error retry, event = .fail row.id error retry
  unreported : ∀ job, s.reply event = some job → job.id ≠ row.id

/-- What one step does to the row of one job: an `UPDATE` leases the queued row
it has selected, and every other event leaves the job unclaimed. -/
theorem claimStep_row {s t : ClaimState ω} {event : ClaimEvent ω} (fired : claimStep s event t)
    {id : String} {row : Job} (present : s.store.get id = some row) :
    ∃ later, t.store.get id = some later ∧ row.Precedes later ∧
      ((∃ selected lease, s.selectedRow event = some (selected, lease) ∧ selected.id = row.id ∧
          row.status = .queued ∧ later = row.leased lease) ∨ Unclaimed s event row later) := by
  have silent : s.selectedRow event = none →
      ∀ job, s.reply event = some job → job.id ≠ row.id := by
    intro none job replied
    simp [ClaimState.reply, none] at replied
  have same (none : s.selectedRow event = none) : Unclaimed s event row row :=
    ⟨fun running => running, rfl, Or.inl rfl, silent none⟩
  cases event with
  | select caller now leaseSeconds =>
      obtain ⟨_, rfl⟩ := claimStep_select.mp fired
      exact ⟨row, present, Job.Precedes.refl row, Or.inr (same rfl)⟩
  | update caller =>
      obtain ⟨selected, lease, pending, rfl⟩ := claimStep_update.mp fired
      by_cases taken : row.id = selected.id ∧ row.status = .queued
      · refine ⟨row.leased lease, ?_, row.precedes_leased lease,
          Or.inl ⟨selected, lease, pending, taken.1.symm, taken.2, rfl⟩⟩
        simp [JobStore.get_claimUpdate, present, taken]
      · refine ⟨row, ?_, Job.Precedes.refl row,
          Or.inr ⟨fun running => running, rfl, Or.inl rfl, ?_⟩⟩
        · simp [JobStore.get_claimUpdate, present, taken]
        · intro job replied sameId
          obtain ⟨other, due, stored, pending', found, queued, rfl⟩ :=
            reply_eq_some_iff.mp replied
          obtain ⟨rfl, rfl⟩ := Prod.mk.inj (Option.some.inj (pending.symm.trans pending'))
          have rowId : row.id = id := Table.find_key _ present
          rw [show selected.id = id from sameId.trans rowId, present] at found
          obtain rfl := Option.some.inj found
          exact taken ⟨sameId.symm, queued⟩
  | enqueue newId kind payload =>
      obtain rfl := Option.some.inj fired
      exact ⟨row, s.store.get_enqueue newId kind payload id present, Job.Precedes.refl row,
        Or.inr (same rfl)⟩
  | complete jobId =>
      obtain rfl := Option.some.inj fired
      by_cases own : row.id = jobId
      · refine ⟨row.finished, by simp [JobStore.get_complete, present, own], ⟨rfl, le_rfl⟩,
          Or.inr ⟨?_, rfl, Or.inl rfl, silent rfl⟩⟩
        intro running
        cases running
      · exact ⟨row, by simp [JobStore.get_complete, present, own], Job.Precedes.refl row,
          Or.inr (same rfl)⟩
  | fail jobId error retry =>
      obtain rfl := Option.some.inj fired
      by_cases own : row.id = jobId
      · refine ⟨row.failed error retry, by simp [JobStore.get_fail, present, own], ⟨rfl, le_rfl⟩,
          Or.inr ⟨?_, rfl, Or.inr ⟨error, retry, by rw [own]⟩, silent rfl⟩⟩
        intro running
        cases retry <;> cases running
      · exact ⟨row, by simp [JobStore.get_fail, present, own], Job.Precedes.refl row,
          Or.inr (same rfl)⟩
  | recoverExpired now =>
      obtain rfl := Option.some.inj fired
      by_cases expired : row.Expired now
      · refine ⟨row.requeued, by simp [JobStore.get_recoverExpired, present, expired],
          ⟨rfl, le_rfl⟩, Or.inr ⟨?_, rfl, Or.inl rfl, silent rfl⟩⟩
        intro running
        cases running
      · exact ⟨row, by simp [JobStore.get_recoverExpired, present, expired],
          Job.Precedes.refl row, Or.inr (same rfl)⟩

/-! ## Selected rows are earlier versions of stored rows -/

def SelectionsStored (s : ClaimState ω) : Prop :=
  ∀ caller row lease, s.selected caller = some (row, lease) →
    ∃ stored, s.store.get row.id = some stored ∧ row.Precedes stored

theorem claimStep_selected {s t : ClaimState ω} {event : ClaimEvent ω}
    (fired : claimStep s event t) {caller : ω} {row : Job} {lease : ℚ}
    (pending : t.selected caller = some (row, lease)) :
    s.selected caller = some (row, lease) ∨ s.store.get row.id = some row := by
  cases event with
  | select other now leaseSeconds =>
      obtain ⟨_, rfl⟩ := claimStep_select.mp fired
      by_cases same : caller = other
      · subst same
        obtain ⟨found, selected, exact⟩ : ∃ found, s.store.claimSelect = some found ∧
            (found, now + (leaseSeconds : ℚ)) = (row, lease) := by
          simpa using pending
        obtain rfl := (Prod.mk.inj exact).1
        exact Or.inr (s.store.first_mem selected).1
      · exact Or.inl (by simpa [same] using pending)
  | update other =>
      obtain ⟨taken, due, _, rfl⟩ := claimStep_update.mp fired
      by_cases same : caller = other
      · simp [same] at pending
      · exact Or.inl (by simpa [same] using pending)
  | enqueue | complete | fail | recoverExpired =>
      obtain rfl := Option.some.inj fired
      exact Or.inl pending

theorem SelectionsStored.step {s t : ClaimState ω} {event : ClaimEvent ω}
    (stored : SelectionsStored s) (fired : claimStep s event t) : SelectionsStored t := by
  intro caller row lease pending
  rcases claimStep_selected fired pending with old | read
  · obtain ⟨version, present, precedes⟩ := stored caller row lease old
    obtain ⟨later, kept, grown, _⟩ := claimStep_row fired present
    exact ⟨later, kept, precedes.trans grown⟩
  · obtain ⟨later, kept, grown, _⟩ := claimStep_row fired read
    exact ⟨later, kept, grown⟩

theorem selectionsStored_of_run {past : List (ClaimEvent ω)} {s : ClaimState ω}
    (run : Run claimStep ClaimState.init past s) : SelectionsStored s :=
  run.invariant (fun _ _ _ pending => by simp [ClaimState.init] at pending)
    fun _ _ _ stored fired => stored.step fired

/-! ## What a claim reports -/

/-- The step takes a job from queued to running exactly when its claim reports
that job, so each transition is reported by one claim call. -/
def ReportsTransition (s : ClaimState ω) (event : ClaimEvent ω) (t : ClaimState ω) : Prop :=
  ∀ id, (∃ row taken, s.store.get id = some row ∧ row.status = .queued ∧
      t.store.get id = some taken ∧ taken.status = .running) ↔
    ∃ job, s.reply event = some job ∧ job.id = id

def ReportsStoredRow (s : ClaimState ω) (event : ClaimEvent ω) (t : ClaimState ω) : Prop :=
  ∀ job, s.reply event = some job → t.store.get job.id = some job

/-- A queued row that an `UPDATE` is about to take has the attempt count and
the error that its `SELECT` read. -/
def SelectionCurrent (s : ClaimState ω) (event : ClaimEvent ω) : Prop :=
  ∀ row lease stored, s.selectedRow event = some (row, lease) →
    s.store.get row.id = some stored → stored.status = .queued →
    stored.attempts = row.attempts ∧ stored.error = row.error

theorem reportsTransition {s t : ClaimState ω} {event : ClaimEvent ω}
    (fired : claimStep s event t) : ReportsTransition s event t := by
  intro id
  constructor
  · rintro ⟨row, taken, present, queued, after, running⟩
    obtain ⟨later, kept, _, leased | unclaimed⟩ := claimStep_row fired present
    · obtain ⟨selected, lease, pending, sameId, _, _⟩ := leased
      have rowId : row.id = id := Table.find_key _ present
      have foundAt : s.store.get selected.id = some row := by rw [sameId, rowId, present]
      exact ⟨selected.leased lease,
        reply_eq_some_iff.mpr ⟨selected, lease, row, pending, foundAt, queued, rfl⟩,
        sameId.trans rowId⟩
    · obtain rfl := Option.some.inj (kept.symm.trans after)
      rw [unclaimed.running running] at queued
      cases queued
  · rintro ⟨job, replied, rfl⟩
    obtain ⟨row, lease, stored, pending, present, queued, rfl⟩ := reply_eq_some_iff.mp replied
    obtain ⟨later, kept, _, leased | unclaimed⟩ := claimStep_row fired present
    · obtain ⟨_, _, _, _, _, rfl⟩ := leased
      exact ⟨stored, _, present, queued, kept, rfl⟩
    · exact (unclaimed.unreported _ replied (Table.find_key _ present).symm).elim

theorem reportsStoredRow_iff {s t : ClaimState ω} {event : ClaimEvent ω}
    (selections : SelectionsStored s) (fired : claimStep s event t) :
    ReportsStoredRow s event t ↔ SelectionCurrent s event := by
  have after : ∀ row lease stored, s.selectedRow event = some (row, lease) →
      s.store.get row.id = some stored → stored.status = .queued →
      s.reply event = some (row.leased lease) ∧
        t.store.get row.id = some (stored.leased lease) := by
    intro row lease stored pending present queued
    have replied := reply_eq_some_iff.mpr ⟨row, lease, stored, pending, present, queued, rfl⟩
    obtain ⟨later, kept, _, leased | unclaimed⟩ := claimStep_row fired present
    · obtain ⟨_, due, pending', _, _, rfl⟩ := leased
      obtain ⟨rfl, rfl⟩ := Prod.mk.inj (Option.some.inj (pending.symm.trans pending'))
      exact ⟨replied, kept⟩
    · exact (unclaimed.unreported _ replied (Table.find_key _ present).symm).elim
  constructor
  · intro reports row lease stored pending present queued
    obtain ⟨replied, kept⟩ := after row lease stored pending present queued
    have same : some (stored.leased lease) = some (row.leased lease) :=
      kept.symm.trans (reports _ replied)
    have columns : stored.leased lease = row.leased lease := Option.some.inj same
    exact ⟨by simpa [Job.leased] using congrArg Job.attempts columns,
      by simpa [Job.leased] using congrArg Job.error columns⟩
  · intro current job replied
    obtain ⟨row, lease, stored, pending, present, queued, rfl⟩ := reply_eq_some_iff.mp replied
    obtain ⟨_, kept⟩ := after row lease stored pending present queued
    obtain ⟨attempts, error⟩ := current row lease stored pending present queued
    obtain ⟨caller, selectedBy⟩ := selecting_caller pending
    obtain ⟨version, versionAt, precedes⟩ := selections caller row lease selectedBy
    obtain rfl := Option.some.inj (present.symm.trans versionAt)
    have storedId : stored.id = row.id := Table.find_key _ present
    rw [← Job.leased_congr lease precedes.fixed attempts error, Job.leased_id, storedId]
    exact kept

/-- At every step of every interleaving: each queued-to-running transition is
reported by the one claim that made it, and the reported `Job` is the stored
row exactly when that row still had the attempt count and the error that the
claim's `SELECT` read. -/
theorem claim_reports_stored_row_iff (past : List (ClaimEvent ω)) (s t : ClaimState ω)
    (event : ClaimEvent ω) (run : Run claimStep ClaimState.init past s)
    (fired : claimStep s event t) :
    ReportsTransition s event t ∧ (ReportsStoredRow s event t ↔ SelectionCurrent s event) :=
  ⟨reportsTransition fired, reportsStoredRow_iff (selectionsStored_of_run run) fired⟩

/-- Two claims read the same row: the first `UPDATE` takes it and reports it as it is
stored, and the other claim comes away with nothing. -/
theorem claim_reports_stored_row_undisturbed :
    ∃ s t : ClaimState Bool, s.reply (.update true) =
        some ((Job.fresh "a" "agent" "payload").leased 1) ∧
      ReportsStoredRow s (.update true) t ∧ t.reply (.update false) = none := by
  let past : List (ClaimEvent Bool) :=
    [.enqueue "a" "agent" "payload", .select false 0 1, .select true 0 1]
  let row : Job := Job.fresh "a" "agent" "payload"
  have reached : (past.foldlM ClaimState.next ClaimState.init).map
      (fun s => (s.selected true, s.store.get row.id, s.reply (.update true),
        (s.next (.update true)).map fun t => t.reply (.update false))) =
      some (some (row, 1), some row, some (row.leased 1), some none) := by decide +kernel
  obtain ⟨s, folded, facts⟩ := Option.map_eq_some_iff.mp reached
  obtain ⟨selected, facts⟩ := Prod.mk.inj facts
  obtain ⟨stored, facts⟩ := Prod.mk.inj facts
  obtain ⟨replied, after⟩ := Prod.mk.inj facts
  obtain ⟨t, fired, nothing⟩ := Option.map_eq_some_iff.mp after
  have current : SelectionCurrent s (.update true) := by
    intro read lease version pending present _
    obtain ⟨rfl, rfl⟩ := Prod.mk.inj (Option.some.inj (selected.symm.trans pending))
    obtain rfl := Option.some.inj (stored.symm.trans present)
    exact ⟨rfl, rfl⟩
  have claims := claim_reports_stored_row_iff past s t (.update true) (Run.of_foldlM folded) fired
  exact ⟨s, t, replied, claims.2.mpr current, nothing⟩

/-- The job is claimed and fails back into the queue between the `SELECT` and
the `UPDATE` of the first claim, which then reports its first attempt while
the store records the second. -/
theorem claim_reports_stale_row :
    ¬ ∀ (past : List (ClaimEvent Bool)) (s t : ClaimState Bool) (event : ClaimEvent Bool),
      Run claimStep ClaimState.init past s → claimStep s event t → ReportsStoredRow s event t := by
  intro reports
  let past : List (ClaimEvent Bool) :=
    [.enqueue "a" "agent" "payload", .select false 0 1, .select true 0 1, .update true,
      .fail "a" "boom" true]
  have reached : (past.foldlM ClaimState.next ClaimState.init).map
      (fun s => (s.reply (.update false),
        (s.next (.update false)).map fun t => (t.store.get "a").map Job.attempts)) =
      some (some ((Job.fresh "a" "agent" "payload").leased 1), some (some 2)) := by
    decide +kernel
  obtain ⟨s, folded, facts⟩ := Option.map_eq_some_iff.mp reached
  obtain ⟨replied, after⟩ := Prod.mk.inj facts
  obtain ⟨t, fired, attempts⟩ := Option.map_eq_some_iff.mp after
  have stored : t.store.get "a" = some ((Job.fresh "a" "agent" "payload").leased 1) :=
    reports past s t (.update false) (Run.of_foldlM folded) fired _ replied
  simp [stored, Job.leased, Job.fresh] at attempts

/-! ## Undisturbed claims -/

def Touches (s : ClaimState ω) (event : ClaimEvent ω) (id : String) : Prop :=
  (∃ job, s.reply event = some job ∧ job.id = id) ∨ ∃ error retry, event = .fail id error retry

def ClaimEvent.by (caller : ω) : ClaimEvent ω → Prop
  | .select other _ _ => other = caller
  | .update other => other = caller
  | _ => False

/-- The caller waits before its `UPDATE`, and the stored row still has the
attempt count and the error that it read. -/
def Waiting (caller : ω) (row : Job) (lease : ℚ) (s : ClaimState ω) : Prop :=
  s.selected caller = some (row, lease) ∧ ∃ stored, s.store.get row.id = some stored ∧
    stored.attempts = row.attempts ∧ stored.error = row.error

theorem Waiting.step {caller : ω} {row : Job} {lease : ℚ} {s t : ClaimState ω}
    {event : ClaimEvent ω} (waiting : Waiting caller row lease s)
    (untouched : ¬ Touches s event row.id) (other : ¬ event.by caller)
    (fired : claimStep s event t) : Waiting caller row lease t := by
  obtain ⟨pending, stored, present, attempts, error⟩ := waiting
  have storedId : stored.id = row.id := Table.find_key _ present
  refine ⟨?_, ?_⟩
  · cases event with
    | select caller' now leaseSeconds =>
        obtain ⟨_, rfl⟩ := claimStep_select.mp fired
        simpa [Function.update_of_ne (Ne.symm other)] using pending
    | update caller' =>
        obtain ⟨_, _, _, rfl⟩ := claimStep_update.mp fired
        simpa [Function.update_of_ne (Ne.symm other)] using pending
    | enqueue | complete | fail | recoverExpired =>
        obtain rfl := Option.some.inj fired
        exact pending
  · obtain ⟨later, kept, _, leased | unclaimed⟩ := claimStep_row fired present
    · obtain ⟨selected, due, taken, sameId, queued, rfl⟩ := leased
      have foundAt : s.store.get selected.id = some stored := by rw [sameId, storedId, present]
      have replied := reply_eq_some_iff.mpr ⟨selected, due, stored, taken, foundAt, queued, rfl⟩
      exact absurd (Or.inl ⟨_, replied, sameId.trans storedId⟩) untouched
    · refine ⟨later, kept, unclaimed.attempts.trans attempts, ?_⟩
      rcases unclaimed.error with same | ⟨text, retry, failed⟩
      · exact same.trans error
      · exact absurd (Or.inr ⟨text, retry, storedId ▸ failed⟩) untouched

/-- A claim whose selected job nothing else takes or fails before its `UPDATE`
reports the stored row. -/
theorem selectionCurrent_of_undisturbed {s t : ClaimState ω} {events : List (ClaimEvent ω)}
    {caller : ω} {row : Job} {lease : ℚ} (pending : s.selected caller = some (row, lease))
    (read : s.store.get row.id = some row)
    (run : Run (Guarded (fun a event => ¬ Touches a event row.id ∧ ¬ event.by caller) claimStep)
      s events t) : SelectionCurrent t (.update caller) := by
  have start : Waiting caller row lease s := ⟨pending, row, read, rfl, rfl⟩
  obtain ⟨selected, stored, present, unchanged⟩ : Waiting caller row lease t :=
    run.invariant start fun _ _ _ waiting fired => waiting.step fired.1.1 fired.1.2 fired.2
  intro found due version pending' versionAt _
  obtain ⟨rfl, rfl⟩ := Prod.mk.inj (Option.some.inj (selected.symm.trans pending'))
  obtain rfl := Option.some.inj (present.symm.trans versionAt)
  exact unchanged

end Eis.Observability
