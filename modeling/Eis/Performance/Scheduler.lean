import Mathlib.Data.List.Sort
import Mathlib.Logic.Function.Basic
import Eis.Foundation.Future
import Eis.Foundation.Run

/-!
# The task scheduler

`TaskScheduler` with its submitters, its workers and the one task that closes
it, cut at every await.  An operation and its future go by the name of the task
that submits them.  The queue follows the documentation of
`asyncio.PriorityQueue`: `put` waits while the queue is full, `get` takes the
least item, `join` is woken when `task_done` has been called for every item and
stays woken when more items come.
-/

set_option autoImplicit false

namespace Eis.Performance

open Transition

inductive Priority where
  | background
  | normal
  | high
  | critical
deriving DecidableEq

/-- `int(priority)` -/
def Priority.value : Priority → ℕ
  | .background => 30
  | .normal => 20
  | .high => 10
  | .critical => 0

structure Item (τ : Type) where
  priority : ℕ
  sequence : ℕ
  submitter : τ
deriving DecidableEq

/-- The order of the tuples on the queue; no two have one sequence number. -/
def Item.le {τ : Type} (first second : Item τ) : Prop :=
  first.priority < second.priority ∨
    first.priority = second.priority ∧ first.sequence ≤ second.sequence

instance {τ : Type} : DecidableRel (Item.le (τ := τ)) := fun first second =>
  inferInstanceAs (Decidable (first.priority < second.priority ∨
    first.priority = second.priority ∧ first.sequence ≤ second.sequence))

inductive OperationOutcome (ν ε : Type) where
  | returned (value : ν)
  | raised (error : ε)
  | cancelled
deriving DecidableEq

/-- A worker awaits the queue or an operation; a cancelled one ends at its next
step. -/
inductive WorkerTask (τ : Type) where
  | idle
  | working (item : Item τ)
  | dying
  | dead
deriving DecidableEq

namespace WorkerTask

variable {τ : Type}

def live : WorkerTask τ → Bool
  | .idle => true
  | .working _ => true
  | _ => false

def isWorking : WorkerTask τ → Bool
  | .working _ => true
  | _ => false

/-- `task.cancel()`: the `CancelledError` goes to what the worker awaits, and an
operation may end as it likes all the same. -/
def cancel : WorkerTask τ → WorkerTask τ
  | .idle => .dying
  | task => task

end WorkerTask

/-- A task that calls `submit`; it is abandoned when it is cancelled before its
future is done. -/
inductive Submitter (τ : Type) where
  | fresh
  | putting (item : Item τ)
  | submitted
  | abandoned

inductive Closer where
  | idle
  | draining
  | woken
  | gathering
  | returned
deriving DecidableEq

/-- `puts` and `awaits` list the operations put on the queue and awaited so far. -/
structure TaskScheduler (τ ν ε : Type) where
  workers : ℕ
  maxQueue : ℕ
  workersPositive : 1 ≤ workers
  maxQueuePositive : 1 ≤ maxQueue
  sequence : ℕ := 0
  started : Bool := false
  queue : List (Item τ) := []
  unfinished : ℕ := 0
  tasks : List (WorkerTask τ) := []
  future : τ → Future ν ε := fun _ => .pending
  submitters : τ → Submitter τ := fun _ => .fresh
  closer : Closer := .idle
  puts : List τ := []
  awaits : List τ := []

namespace TaskScheduler

variable {τ ν ε : Type}

def create (workers : ℤ := 4) (maxQueue : ℤ := 128) :
    Except String (TaskScheduler τ ν ε) :=
  if valid : 1 ≤ workers ∧ 1 ≤ maxQueue then
    .ok
      { workers := workers.toNat
        maxQueue := maxQueue.toNat
        workersPositive := by omega
        maxQueuePositive := by omega }
  else .error "workers and max_queue must be positive"

def start (s : TaskScheduler τ ν ε) : TaskScheduler τ ν ε :=
  if s.started then s
  else { s with started := true, tasks := List.replicate s.workers .idle }

def full (s : TaskScheduler τ ν ε) : Bool := decide (s.maxQueue ≤ s.queue.length)

/-- `task_done`, which wakes the `join` when it was the last. -/
def taskDone (s : TaskScheduler τ ν ε) : TaskScheduler τ ν ε :=
  { s with
    unfinished := s.unfinished - 1
    closer := if s.unfinished - 1 = 0 ∧ s.closer = .draining then .woken else s.closer }

/-- What `_worker` does to the future: an `InvalidStateError` of `set_result` is
an exception like any other, and then the future is done. -/
def settle (future : Future ν ε) : OperationOutcome ν ε → Future ν ε
  | .returned value => (future.setResult value).getD future
  | .raised error => if future.done then future else (future.setException error).getD future
  | .cancelled => if future.done then future else future.cancel

/-- `for task in self._tasks: task.cancel()` -/
def cancelTasks (s : TaskScheduler τ ν ε) : TaskScheduler τ ν ε :=
  { s with tasks := s.tasks.map WorkerTask.cancel, closer := .gathering }

/-- `close` up to its first await. -/
def close (s : TaskScheduler τ ν ε) : TaskScheduler τ ν ε :=
  if s.started then
    if s.unfinished = 0 then s.cancelTasks else { s with closer := .draining }
  else { s with closer := .returned }

def finishClose (s : TaskScheduler τ ν ε) : TaskScheduler τ ν ε :=
  { s with tasks := [], started := false, closer := .returned }

section Submitters
variable [DecidableEq τ]

/-- The end of `put`. -/
def enqueue (s : TaskScheduler τ ν ε) (item : Item τ) : TaskScheduler τ ν ε :=
  { s with
    queue := s.queue.orderedInsert Item.le item
    unfinished := s.unfinished + 1
    submitters := Function.update s.submitters item.submitter .submitted
    puts := s.puts ++ [item.submitter] }

/-- `submit` up to its first await. -/
def submit (s : TaskScheduler τ ν ε) (task : τ) (priority : Priority) : TaskScheduler τ ν ε :=
  let item : Item τ := ⟨priority.value, s.sequence, task⟩
  let s : TaskScheduler τ ν ε :=
    { s.start with
      sequence := s.sequence + 1
      future := Function.update s.future task .pending }
  if s.full then { s with submitters := Function.update s.submitters task (.putting item) }
  else s.enqueue item

/-- A cancelled submitter leaves the queue, or takes its future with it. -/
def cancelSubmit (s : TaskScheduler τ ν ε) (task : τ) : TaskScheduler τ ν ε :=
  match s.submitters task with
  | .fresh => { s with submitters := Function.update s.submitters task .abandoned }
  | .putting _ => { s with submitters := Function.update s.submitters task .abandoned }
  | .submitted =>
      if (s.future task).done then s
      else
        { s with
          future := Function.update s.future task (s.future task).cancel
          submitters := Function.update s.submitters task .abandoned }
  | .abandoned => s

/-- `_worker` from its `get` to its next await. -/
def take (s : TaskScheduler τ ν ε) (worker : ℕ) (item : Item τ) (rest : List (Item τ)) :
    TaskScheduler τ ν ε :=
  match s.future item.submitter with
  | .cancelled => { s with queue := rest }.taskDone
  | _ =>
      { s with
        queue := rest
        tasks := s.tasks.set worker (.working item)
        awaits := s.awaits ++ [item.submitter] }

/-- `_worker` from the end of its operation on. -/
def finish (s : TaskScheduler τ ν ε) (worker : ℕ) (item : Item τ)
    (outcome : OperationOutcome ν ε) : TaskScheduler τ ν ε :=
  let task : WorkerTask τ :=
    match outcome with
    | .cancelled => .dead
    | _ => .idle
  { s with
    tasks := s.tasks.set worker task
    future := Function.update s.future item.submitter
      (settle (s.future item.submitter) outcome) }.taskDone

end Submitters

end TaskScheduler

inductive SchedulerEvent (τ ν ε : Type) where
  | start
  | submit (task : τ) (priority : Priority)
  | put (task : τ)
  | cancelSubmit (task : τ)
  | take (worker : ℕ)
  | finish (worker : ℕ) (outcome : OperationOutcome ν ε)
  | die (worker : ℕ)
  | close
  | joined
  | closed

section Machine
variable {τ ν ε : Type} [DecidableEq τ]

def TaskScheduler.next (s : TaskScheduler τ ν ε) :
    SchedulerEvent τ ν ε → Option (TaskScheduler τ ν ε)
  | .start => some s.start
  | .submit task priority =>
      match s.submitters task with
      | .fresh => some (s.submit task priority)
      | _ => none
  | .put task =>
      match s.submitters task with
      | .putting item => if s.full then none else some (s.enqueue item)
      | _ => none
  | .cancelSubmit task => some (s.cancelSubmit task)
  | .take worker =>
      match s.tasks[worker]?, s.queue with
      | some .idle, item :: rest => some (s.take worker item rest)
      | _, _ => none
  | .finish worker outcome =>
      match s.tasks[worker]? with
      | some (.working item) => some (s.finish worker item outcome)
      | _ => none
  | .die worker =>
      match s.tasks[worker]? with
      | some .dying => some { s with tasks := s.tasks.set worker .dead }
      | _ => none
  | .close => if s.closer = .idle then some s.close else none
  | .joined => if s.closer = .woken then some s.cancelTasks else none
  | .closed =>
      if s.closer = .gathering ∧ ∀ task ∈ s.tasks, task = .dead then some s.finishClose
      else none

def schedulerStep (s : TaskScheduler τ ν ε) (event : SchedulerEvent τ ν ε)
    (t : TaskScheduler τ ν ε) : Prop :=
  s.next event = some t

theorem schedulerStep_cases {s t : TaskScheduler τ ν ε} {event : SchedulerEvent τ ν ε}
    (fired : schedulerStep s event t) :
    match event with
    | .start => t = s.start
    | .submit task priority => s.submitters task = .fresh ∧ t = s.submit task priority
    | .put task =>
        ∃ item, s.submitters task = .putting item ∧ s.full = false ∧ t = s.enqueue item
    | .cancelSubmit task => t = s.cancelSubmit task
    | .take worker =>
        ∃ item rest, s.tasks[worker]? = some .idle ∧ s.queue = item :: rest ∧
          t = s.take worker item rest
    | .finish worker outcome =>
        ∃ item, s.tasks[worker]? = some (.working item) ∧ t = s.finish worker item outcome
    | .die worker =>
        s.tasks[worker]? = some .dying ∧ t = { s with tasks := s.tasks.set worker .dead }
    | .close => s.closer = .idle ∧ t = s.close
    | .joined => s.closer = .woken ∧ t = s.cancelTasks
    | .closed =>
        s.closer = .gathering ∧ (∀ task ∈ s.tasks, task = .dead) ∧ t = s.finishClose := by
  unfold schedulerStep TaskScheduler.next at fired
  cases event with
  | start => exact (Option.some.inj fired).symm
  | submit task priority =>
      cases submitter : s.submitters task with
      | fresh => exact ⟨submitter, by simpa [submitter, eq_comm] using fired⟩
      | putting item | submitted | abandoned => simp [submitter] at fired
  | put task =>
      cases submitter : s.submitters task with
      | putting item =>
          cases full : s.full with
          | false => exact ⟨item, submitter, rfl, by simpa [submitter, full, eq_comm] using fired⟩
          | true => simp [submitter, full] at fired
      | fresh | submitted | abandoned => simp [submitter] at fired
  | cancelSubmit task => exact (Option.some.inj fired).symm
  | take worker =>
      simp only at fired
      split at fired
      · rename_i item rest idle queued
        exact ⟨item, rest, idle, queued, (Option.some.inj fired).symm⟩
      · cases fired
  | finish worker outcome =>
      simp only at fired
      split at fired
      · rename_i item working
        exact ⟨item, working, (Option.some.inj fired).symm⟩
      · cases fired
  | die worker =>
      simp only at fired
      split at fired
      · rename_i dying
        exact ⟨dying, (Option.some.inj fired).symm⟩
      · cases fired
  | close => simpa [eq_comm] using fired
  | joined => simpa [eq_comm] using fired
  | closed => simpa [and_assoc, eq_comm] using fired

theorem settle_done (future : Future ν ε) (outcome : OperationOutcome ν ε) :
    (TaskScheduler.settle future outcome).done = true := by
  cases future <;> cases outcome <;> rfl

theorem countP_set_add {α : Type} (p : α → Bool) {tasks : List α} {worker : ℕ} {old : α}
    (present : tasks[worker]? = some old) (new : α) :
    (tasks.set worker new).countP p + (if p old then 1 else 0) =
      tasks.countP p + if p new then 1 else 0 := by
  obtain ⟨within, same⟩ := List.getElem?_eq_some_iff.mp present
  rw [List.countP_set within, same]
  by_cases counted : p old
  · have positive : 0 < tasks.countP p :=
      List.countP_pos_iff.mpr ⟨old, same ▸ List.getElem_mem within, counted⟩
    simp only [counted, if_true]
    omega
  · simp [counted]

theorem run_of_schedule {s t : TaskScheduler τ ν ε} {events : List (SchedulerEvent τ ν ε)}
    (folded : events.foldlM TaskScheduler.next s = some t) : Run schedulerStep s events t :=
  Run.of_foldlM folded

end Machine

end Eis.Performance
