import Eis.Foundation.WriteOnce
import Eis.Performance.Scheduler

/-!
# What a submitter gets

A future is settled once: with the outcome of its own operation, or by the
cancellation of its submitter.  No operation is awaited twice.
-/

set_option autoImplicit false

namespace Eis.Performance

open Transition

variable {τ ν ε : Type}

def OperationOutcome.settled : OperationOutcome ν ε → Future ν ε
  | .returned value => .result value
  | .raised error => .exception error
  | .cancelled => .cancelled

def Settles (task : τ) (s : TaskScheduler τ ν ε) (event : SchedulerEvent τ ν ε)
    (future : Future ν ε) : Prop :=
  s.future task = .pending ∧
    match event with
    | .finish worker outcome =>
        ∃ item, s.tasks[worker]? = some (.working item) ∧ item.submitter = task ∧
          future = outcome.settled
    | .cancelSubmit submitter =>
        submitter = task ∧ s.submitters task = .submitted ∧ future = .cancelled
    | _ => False

/-- How often a task in this state may be queued or awaited. -/
def Submitter.entries : Submitter τ → ℕ
  | .fresh => 0
  | .putting _ => 0
  | .submitted => 1
  | .abandoned => 1

theorem settle_pending (outcome : OperationOutcome ν ε) :
    TaskScheduler.settle .pending outcome = outcome.settled := by
  cases outcome <;> rfl

theorem settle_of_done {future : Future ν ε} (done : future ≠ .pending)
    (outcome : OperationOutcome ν ε) : TaskScheduler.settle future outcome = future := by
  cases future with
  | pending => exact absurd rfl done
  | cancelled | result _ | exception _ => cases outcome <;> rfl

theorem working_of_set {tasks : List (WorkerTask τ)} {worker place : ℕ} {task : WorkerTask τ}
    {item : Item τ} (ended : task.isWorking = false)
    (busy : (tasks.set worker task)[place]? = some (.working item)) :
    tasks[place]? = some (.working item) := by
  by_cases same : worker = place
  · subst same
    rw [List.getElem?_set] at busy
    grind [WorkerTask.isWorking]
  · simpa [List.getElem?_set, same] using busy

theorem working_of_cancel {tasks : List (WorkerTask τ)} {place : ℕ} {item : Item τ}
    (busy : (tasks.map WorkerTask.cancel)[place]? = some (.working item)) :
    tasks[place]? = some (.working item) := by
  rw [List.getElem?_map] at busy
  obtain ⟨task, present, cancelled⟩ := Option.map_eq_some_iff.mp busy
  rw [present]
  cases task with
  | idle => cases cancelled
  | working _ | dying | dead => rw [← cancelled]; rfl

section Invariant
variable [DecidableEq τ]

structure OutcomeInv (s : TaskScheduler τ ν ε) : Prop where
  fresh : ∀ task, s.submitters task = .fresh → s.future task = .pending
  putting : ∀ task item, s.submitters task = .putting item → item.submitter = task
  once : ∀ task, (s.queue.map Item.submitter).count task + s.awaits.count task ≤
    (s.submitters task).entries
  working : ∀ (worker : ℕ) (item : Item τ), s.tasks[worker]? = some (.working item) →
    item.submitter ∈ s.awaits

variable {s t : TaskScheduler τ ν ε}

theorem OutcomeInv.submitted (inv : OutcomeInv s) {worker : ℕ} {item : Item τ}
    (working : s.tasks[worker]? = some (.working item)) :
    s.submitters item.submitter ≠ .fresh := by
  intro fresh
  have awaited := List.count_pos_iff.mpr (inv.working worker item working)
  have once := inv.once item.submitter
  rw [fresh] at once
  simp only [Submitter.entries] at once
  omega

theorem OutcomeInv.quiet (inv : OutcomeInv s) (queue : t.queue = s.queue)
    (awaits : t.awaits = s.awaits) (future : ∀ task, t.future task = s.future task ∨
      s.submitters task ≠ .fresh)
    (submitters : ∀ task, t.submitters task = s.submitters task ∨ t.submitters task = .abandoned)
    (working : ∀ (worker : ℕ) (item : Item τ), t.tasks[worker]? = some (.working item) →
      s.tasks[worker]? = some (.working item)) : OutcomeInv t := by
  have entries : ∀ task, (s.submitters task).entries ≤ (t.submitters task).entries := by
    intro task
    rcases submitters task with same | abandoned
    · rw [same]
    · rw [abandoned]
      cases s.submitters task <;> simp [Submitter.entries]
  constructor
  case fresh =>
    intro task fresh
    rcases submitters task with same | abandoned
    · rcases future task with kept | done
      · exact kept ▸ inv.fresh task (same ▸ fresh)
      · exact absurd (same ▸ fresh) done
    · simp [abandoned] at fresh
  case putting =>
    intro task item putting
    rcases submitters task with same | abandoned
    · exact inv.putting task item (same ▸ putting)
    · simp [abandoned] at putting
  case once => exact fun task => (queue ▸ awaits ▸ inv.once task).trans (entries task)
  case working =>
    intro worker item busy
    exact awaits ▸ inv.working worker item (working worker item busy)

theorem OutcomeInv.start (inv : OutcomeInv s) : OutcomeInv s.start := by
  unfold TaskScheduler.start
  split
  · exact inv
  · refine inv.quiet rfl rfl (fun _ => Or.inl rfl) (fun _ => Or.inl rfl) ?_
    simp [List.getElem?_replicate]

theorem OutcomeInv.enqueue (inv : OutcomeInv s) {item : Item τ}
    (unput : (s.submitters item.submitter).entries = 0) : OutcomeInv (s.enqueue item) := by
  have perm := (List.perm_orderedInsert Item.le item s.queue).map Item.submitter
  constructor
  case fresh =>
    intro task fresh
    by_cases own : task = item.submitter
    · simp [TaskScheduler.enqueue, own] at fresh
    · exact inv.fresh task (by simpa [TaskScheduler.enqueue, own] using fresh)
  case putting =>
    intro task other putting
    by_cases own : task = item.submitter
    · simp [TaskScheduler.enqueue, own] at putting
    · exact inv.putting task other (by simpa [TaskScheduler.enqueue, own] using putting)
  case once =>
    intro task
    have once := inv.once task
    by_cases own : task = item.submitter
    · subst own
      rw [unput] at once
      simp only [TaskScheduler.enqueue, perm.count_eq, List.map_cons, List.count_cons_self,
        Function.update_self, Submitter.entries]
      omega
    · simpa [TaskScheduler.enqueue, perm.count_eq, List.count_cons, own, Ne.symm own] using once
  case working => exact inv.working

theorem OutcomeInv.submit (inv : OutcomeInv s) {task : τ} (fresh : s.submitters task = .fresh)
    (priority : Priority) : OutcomeInv (s.submit task priority) := by
  have same : s.start.submitters = s.submitters ∧ s.start.future = s.future := by
    unfold TaskScheduler.start
    split <;> exact ⟨rfl, rfl⟩
  have ready := inv.start
  unfold TaskScheduler.submit
  generalize s.start = a at same ready
  obtain ⟨sameSubmitters, sameFuture⟩ := same
  rw [← sameSubmitters] at fresh
  rw [← sameFuture]
  have idle : Function.update a.future task .pending = a.future :=
    Function.update_eq_self_iff.mpr (ready.fresh task fresh).symm
  simp only [idle]
  have counted : OutcomeInv { a with sequence := s.sequence + 1 } := { ready with }
  split
  · constructor
    case fresh =>
      intro other unsubmitted
      by_cases own : other = task
      · simp [own] at unsubmitted
      · exact ready.fresh other (by simpa [own] using unsubmitted)
    case putting =>
      intro other item putting
      by_cases own : other = task
      · subst own
        obtain rfl : _ = item := by simpa using putting
        rfl
      · exact ready.putting other item (by simpa [own] using putting)
    case once =>
      intro other
      have once := ready.once other
      by_cases own : other = task
      · subst own
        simpa [fresh, Submitter.entries] using once
      · simpa [own] using once
    case working => exact ready.working
  · refine counted.enqueue ?_
    simp only [fresh, Submitter.entries]

theorem OutcomeInv.take (inv : OutcomeInv s) {worker : ℕ} {item : Item τ} {rest : List (Item τ)}
    (queue : s.queue = item :: rest) : OutcomeInv (s.take worker item rest) := by
  have before : ∀ task, (rest.map Item.submitter).count task +
      (if item.submitter = task then 1 else 0) + s.awaits.count task ≤
        (s.submitters task).entries := by
    intro task
    have once := inv.once task
    rw [queue] at once
    simpa [List.count_cons] using once
  unfold TaskScheduler.take
  split
  · refine ⟨inv.fresh, inv.putting, ?_, inv.working⟩
    intro task
    have once := before task
    simp only [TaskScheduler.taskDone]
    omega
  · refine ⟨inv.fresh, inv.putting, ?_, ?_⟩
    · intro task
      have once := before task
      simp only [List.count_append, List.count_singleton, beq_iff_eq]
      omega
    · intro place other busy
      have held := inv.working place other
      grind

theorem OutcomeInv.cancelSubmit (inv : OutcomeInv s) (task : τ) :
    OutcomeInv (s.cancelSubmit task) := by
  unfold TaskScheduler.cancelSubmit
  split
  · exact inv.quiet rfl rfl (fun _ => Or.inl rfl) (by grind) fun _ _ => id
  · exact inv.quiet rfl rfl (fun _ => Or.inl rfl) (by grind) fun _ _ => id
  · split
    · exact inv
    · exact inv.quiet rfl rfl (by grind) (by grind) fun _ _ => id
  · exact inv

theorem OutcomeInv.step {event : SchedulerEvent τ ν ε} (inv : OutcomeInv s)
    (fired : schedulerStep s event t) : OutcomeInv t := by
  have does := schedulerStep_cases fired
  cases event with
  | start => exact does ▸ inv.start
  | submit task priority => exact does.2 ▸ inv.submit does.1 priority
  | put task =>
      obtain ⟨item, putting, _, rfl⟩ := does
      have named := inv.putting task item putting
      subst named
      refine inv.enqueue ?_
      rw [putting]
      rfl
  | cancelSubmit task => exact does ▸ inv.cancelSubmit task
  | take worker =>
      obtain ⟨item, rest, _, queue, rfl⟩ := does
      exact inv.take queue
  | finish worker outcome =>
      obtain ⟨item, working, rfl⟩ := does
      have submitted := inv.submitted working
      refine inv.quiet rfl rfl ?_ (fun _ => Or.inl rfl) ?_
      · intro task
        by_cases own : task = item.submitter
        · exact Or.inr (own ▸ submitted)
        · exact Or.inl (by simp [TaskScheduler.finish, TaskScheduler.taskDone, own])
      · intro place other busy
        cases outcome <;> exact working_of_set rfl busy
  | die worker =>
      rw [does.2]
      exact inv.quiet rfl rfl (fun _ => Or.inl rfl) (fun _ => Or.inl rfl)
        fun _ _ => working_of_set rfl
  | close =>
      rw [does.2]
      unfold TaskScheduler.close
      split
      · split
        · exact inv.quiet rfl rfl (fun _ => Or.inl rfl) (fun _ => Or.inl rfl)
            fun _ _ => working_of_cancel
        · exact { inv with }
      · exact { inv with }
  | joined =>
      rw [does.2]
      exact inv.quiet rfl rfl (fun _ => Or.inl rfl) (fun _ => Or.inl rfl)
        fun _ _ => working_of_cancel
  | closed =>
      rw [does.2.2]
      refine inv.quiet rfl rfl (fun _ => Or.inl rfl) (fun _ => Or.inl rfl) ?_
      simp [TaskScheduler.finishClose]

theorem OutcomeInv.create {workers maxQueue : ℤ}
    (created : TaskScheduler.create workers maxQueue = .ok s) : OutcomeInv s := by
  unfold TaskScheduler.create at created
  split at created
  · cases created
    constructor <;> simp [Submitter.entries]
  · cases created

theorem future_of_settles {event : SchedulerEvent τ ν ε} {task : τ} {future : Future ν ε}
    (fired : schedulerStep s event t) (settles : Settles task s event future) :
    t.future task = future := by
  have does := schedulerStep_cases fired
  obtain ⟨pending, gives⟩ := settles
  cases event with
  | finish worker outcome =>
      obtain ⟨item, working, rfl⟩ := does
      obtain ⟨other, same, rfl, rfl⟩ := gives
      obtain rfl : item = other := by simpa [working] using same
      simp [TaskScheduler.finish, TaskScheduler.taskDone, pending, settle_pending]
  | cancelSubmit submitter =>
      obtain ⟨rfl, submitted, rfl⟩ := gives
      rw [does]
      simp [TaskScheduler.cancelSubmit, submitted, pending, Future.done, Future.cancel]
  | start | submit _ _ | put _ | take _ | die _ | close | joined | closed => exact gives.elim

theorem future_unchanged {event : SchedulerEvent τ ν ε} (inv : OutcomeInv s)
    (fired : schedulerStep s event t) (task : τ) :
    t.future task = s.future task ∨ Settles task s event (t.future task) := by
  have does := schedulerStep_cases fired
  cases event with
  | start =>
      rw [does]
      unfold TaskScheduler.start
      split <;> exact Or.inl rfl
  | submit submitter priority =>
      obtain ⟨fresh, rfl⟩ := does
      left
      have idle : Function.update s.future submitter .pending = s.future :=
        Function.update_eq_self_iff.mpr (inv.fresh submitter fresh).symm
      unfold TaskScheduler.submit
      simp only [idle]
      split <;> rfl
  | put submitter =>
      obtain ⟨item, _, _, rfl⟩ := does
      exact Or.inl rfl
  | cancelSubmit submitter =>
      rw [does]
      unfold TaskScheduler.cancelSubmit Settles
      cases submitters : s.submitters submitter with
      | fresh | putting _ | abandoned => exact Or.inl rfl
      | submitted =>
          cases future : s.future submitter with
          | pending =>
              by_cases own : task = submitter
              · subst own
                exact Or.inr ⟨future, rfl, submitters, by simp [Future.done, Future.cancel]⟩
              · exact Or.inl (by simp [Future.done, own])
          | cancelled | result _ | exception _ => simp [Future.done]
  | take worker =>
      obtain ⟨item, rest, _, _, rfl⟩ := does
      unfold TaskScheduler.take
      split <;> exact Or.inl rfl
  | finish worker outcome =>
      obtain ⟨item, working, rfl⟩ := does
      have gets : (s.finish worker item outcome).future = Function.update s.future item.submitter
          (TaskScheduler.settle (s.future item.submitter) outcome) := rfl
      by_cases own : task = item.submitter
      · subst own
        rw [gets, Function.update_self]
        by_cases pending : s.future item.submitter = .pending
        · rw [pending, settle_pending]
          exact Or.inr ⟨pending, item, working, rfl, rfl⟩
        · exact Or.inl (settle_of_done pending outcome)
      · exact Or.inl (by rw [gets, Function.update_of_ne own])
  | die worker => exact Or.inl (does.2 ▸ rfl)
  | close =>
      rw [does.2]
      unfold TaskScheduler.close
      split
      · split <;> exact Or.inl rfl
      · exact Or.inl rfl
  | joined => exact Or.inl (does.2 ▸ rfl)
  | closed => exact Or.inl (does.2.2 ▸ rfl)

theorem writeOnce_future (task : τ) :
    WriteOnce schedulerStep OutcomeInv (fun s : TaskScheduler τ ν ε => s.future task) .pending
      (Settles task) where
  kept _ _ _ inv fired := inv.step fired
  blank_of_writes _ _ _ settles := settles.1
  read_of_writes _ _ _ _ fired settles := future_of_settles fired settles
  unchanged _ _ _ inv fired := future_unchanged inv fired task

/-- In every run no operation is awaited twice, and a future that is done holds
what the one event has given it that found it pending. -/
theorem outcomes_delivered {workers maxQueue : ℤ} {initial : TaskScheduler τ ν ε}
    {trace : List (SchedulerEvent τ ν ε)}
    (created : TaskScheduler.create workers maxQueue = .ok initial)
    (run : Run schedulerStep initial trace s) (task : τ) :
    s.awaits.count task ≤ 1 ∧ ∀ future, future ≠ .pending →
      (s.future task = future ↔
        Written schedulerStep (Settles task) initial trace s future) := by
  have start := OutcomeInv.create created
  have blank : initial.future task = .pending := by
    unfold TaskScheduler.create at created
    split at created
    · cases created
      rfl
    · cases created
  have inv : OutcomeInv s := run.invariant start fun _ _ _ inv fired => inv.step fired
  constructor
  · have once := inv.once task
    have most : (s.submitters task).entries ≤ 1 := by
      cases s.submitters task <;> simp [Submitter.entries]
    omega
  · intro future filled
    exact (writeOnce_future task).read_eq_iff start blank run filled

end Invariant

def lone : TaskScheduler ℕ String String where
  workers := 1
  maxQueue := 1
  workersPositive := Nat.one_pos
  maxQueuePositive := Nat.one_pos

def left : List (SchedulerEvent ℕ String String) :=
  [.submit 0 .high, .take 0, .finish 0 (.returned "value"), .submit 1 .normal, .take 0,
    .cancelSubmit 1, .finish 0 (.returned "late")]

theorem outcomes_delivered_left :
    ∃ s, Run schedulerStep lone left s ∧ s.awaits.count 1 ≤ 1 ∧
      Written schedulerStep (Settles 1) lone left s .cancelled := by
  have ran : ∃ s, Run schedulerStep lone left s ∧ s.future 1 = .cancelled :=
    ⟨_, run_of_schedule rfl, rfl⟩
  obtain ⟨s, run, cancelled⟩ := ran
  have created : TaskScheduler.create 1 1 = .ok lone := rfl
  obtain ⟨once, delivered⟩ := outcomes_delivered created run 1
  exact ⟨s, run, once, (delivered .cancelled (by decide)).mp cancelled⟩

end Eis.Performance
