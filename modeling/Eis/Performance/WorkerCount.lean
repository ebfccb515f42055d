import Eis.Performance.Scheduler

/-!
# The number of workers

A worker that is not cancelled ends only with the operation it awaits, when that
ends in a `CancelledError`.
-/

set_option autoImplicit false

namespace Eis.Performance

open Transition

variable {τ ν ε : Type}

def SchedulerEvent.isLoss : SchedulerEvent τ ν ε → Bool
  | .finish _ .cancelled => true
  | _ => false

/-- All workers are there, and what is queued is taken now, or once some
operation has ended. -/
structure WorkersKept [DecidableEq τ] (workers : ℤ) (s : TaskScheduler τ ν ε) : Prop where
  live : (s.tasks.countP WorkerTask.live : ℤ) = workers
  takeable : s.queue ≠ [] → ∃ worker, (∃ t, schedulerStep s (.take worker) t) ∨
    ∃ item, s.tasks[worker]? = some (.working item)

structure SameWorkers (s t : TaskScheduler τ ν ε) : Prop where
  configured : t.workers = s.workers
  closer : t.closer = s.closer
  started : t.started = s.started
  live : t.tasks.countP WorkerTask.live = s.tasks.countP WorkerTask.live
  tasks : s.tasks = [] → t.tasks = []

structure WorkerInv (workers : ℕ) (trace : List (SchedulerEvent τ ν ε))
    (s : TaskScheduler τ ν ε) : Prop where
  configured : s.workers = workers
  unclosed : s.closer = .idle
  unstarted : s.started = false → s.tasks = [] ∧ trace.countP SchedulerEvent.isLoss = 0
  counted : s.started = true →
    s.tasks.countP WorkerTask.live + trace.countP SchedulerEvent.isLoss = workers

variable {workers : ℕ} {trace : List (SchedulerEvent τ ν ε)} {s t : TaskScheduler τ ν ε}

theorem WorkerInv.quiet (inv : WorkerInv workers trace s) {event : SchedulerEvent τ ν ε}
    (lossless : event.isLoss = false) (same : SameWorkers s t) :
    WorkerInv workers (trace ++ [event]) t := by
  have sameLosses : (trace ++ [event]).countP SchedulerEvent.isLoss =
      trace.countP SchedulerEvent.isLoss := by simp [lossless]
  constructor
  case configured => rw [same.configured, inv.configured]
  case unclosed => rw [same.closer, inv.unclosed]
  case unstarted =>
    intro unstarted
    obtain ⟨none, lossless⟩ := inv.unstarted (same.started ▸ unstarted)
    exact ⟨same.tasks none, by rw [sameLosses, lossless]⟩
  case counted =>
    intro started
    rw [same.live, sameLosses]
    exact inv.counted (same.started ▸ started)

theorem WorkerInv.start (inv : WorkerInv workers trace s) : WorkerInv workers trace s.start := by
  unfold TaskScheduler.start
  split
  · exact inv
  · rename_i unstarted
    obtain ⟨_, lossless⟩ := inv.unstarted (by simpa using unstarted)
    constructor
    case configured => exact inv.configured
    case unclosed => exact inv.unclosed
    case unstarted => simp
    case counted =>
      intro _
      have idle : (WorkerTask.idle : WorkerTask τ).live = true := rfl
      rw [List.countP_replicate, if_pos idle, lossless, inv.configured, Nat.add_zero]

theorem SameWorkers.taskDone (unclosed : t.closer = .idle) (same : SameWorkers s t) :
    SameWorkers s t.taskDone := by
  have closer : t.taskDone.closer = t.closer := by simp [TaskScheduler.taskDone, unclosed]
  exact ⟨same.configured, closer.trans same.closer, same.started, same.live, same.tasks⟩

theorem SameWorkers.set {worker : ℕ} {old new : WorkerTask τ}
    (present : s.tasks[worker]? = some old) (alive : old.live = new.live) :
    (s.tasks.set worker new).countP WorkerTask.live = s.tasks.countP WorkerTask.live ∧
      (s.tasks = [] → s.tasks.set worker new = []) := by
  have counted := countP_set_add WorkerTask.live present new
  rw [alive] at counted
  exact ⟨Nat.add_right_cancel counted, by simp_all⟩

theorem SameWorkers.take {worker : ℕ} (unclosed : s.closer = .idle)
    (idle : s.tasks[worker]? = some .idle) (item : Item τ) (rest : List (Item τ)) :
    SameWorkers s (s.take worker item rest) := by
  unfold TaskScheduler.take
  split
  · exact SameWorkers.taskDone unclosed ⟨rfl, rfl, rfl, rfl, id⟩
  · have alive : (WorkerTask.idle : WorkerTask τ).live = (WorkerTask.working item).live := rfl
    obtain ⟨live, tasks⟩ := SameWorkers.set idle alive
    exact ⟨rfl, rfl, rfl, live, tasks⟩

theorem WorkerInv.create {limit maxQueue : ℤ}
    (created : TaskScheduler.create limit maxQueue = .ok s) :
    WorkerInv limit.toNat [] s ∧ 1 ≤ limit := by
  unfold TaskScheduler.create at created
  split at created
  · rename_i valid
    cases created
    exact ⟨⟨rfl, rfl, fun _ => ⟨rfl, rfl⟩, by simp⟩, valid.1⟩
  · cases created

section Steps
variable [DecidableEq τ]

theorem SameWorkers.enqueue (item : Item τ) : SameWorkers s (s.enqueue item) :=
  ⟨rfl, rfl, rfl, rfl, id⟩

theorem SameWorkers.submit (task : τ) (priority : Priority) :
    SameWorkers s.start (s.submit task priority) := by
  unfold TaskScheduler.submit
  simp only
  split
  · exact ⟨rfl, rfl, rfl, rfl, id⟩
  · exact ⟨rfl, rfl, rfl, rfl, id⟩

theorem SameWorkers.cancelSubmit (task : τ) : SameWorkers s (s.cancelSubmit task) := by
  unfold TaskScheduler.cancelSubmit
  split
  · exact ⟨rfl, rfl, rfl, rfl, id⟩
  · exact ⟨rfl, rfl, rfl, rfl, id⟩
  · split
    · exact ⟨rfl, rfl, rfl, rfl, id⟩
    · exact ⟨rfl, rfl, rfl, rfl, id⟩
  · exact ⟨rfl, rfl, rfl, rfl, id⟩

theorem SameWorkers.finish {worker : ℕ} {item : Item τ} {outcome : OperationOutcome ν ε}
    (unclosed : s.closer = .idle) (working : s.tasks[worker]? = some (.working item))
    (survived : outcome ≠ .cancelled) : SameWorkers s (s.finish worker item outcome) := by
  have alive : (WorkerTask.working item).live = (WorkerTask.idle : WorkerTask τ).live := rfl
  obtain ⟨live, tasks⟩ := SameWorkers.set working alive
  unfold TaskScheduler.finish
  cases outcome with
  | returned value => exact SameWorkers.taskDone unclosed ⟨rfl, rfl, rfl, live, tasks⟩
  | raised error => exact SameWorkers.taskDone unclosed ⟨rfl, rfl, rfl, live, tasks⟩
  | cancelled => exact absurd rfl survived

theorem WorkerInv.loss (inv : WorkerInv workers trace s) {worker : ℕ} {item : Item τ}
    (working : s.tasks[worker]? = some (.working item)) :
    WorkerInv workers (trace ++ [.finish worker .cancelled]) (s.finish worker item .cancelled) := by
  have lost := countP_set_add WorkerTask.live working .dead
  have closer : (s.finish worker item .cancelled).closer = .idle := by
    simp [TaskScheduler.finish, TaskScheduler.taskDone, inv.unclosed]
  constructor
  case configured => exact inv.configured
  case unclosed => exact closer
  case unstarted =>
    intro unstarted
    obtain ⟨none, _⟩ := inv.unstarted unstarted
    simp [none] at working
  case counted =>
    intro started
    have counted := inv.counted started
    have losses : (trace ++ [SchedulerEvent.finish worker .cancelled]).countP
        SchedulerEvent.isLoss = trace.countP SchedulerEvent.isLoss + 1 := by
      simp [SchedulerEvent.isLoss]
    rw [losses]
    simp only [WorkerTask.live, if_true, Bool.false_eq_true, if_false] at lost
    change (s.tasks.set worker .dead).countP WorkerTask.live + _ = workers
    omega

theorem WorkerInv.step (inv : WorkerInv workers trace s) {event : SchedulerEvent τ ν ε}
    (unclosed : event ≠ .close) (fired : schedulerStep s event t) :
    WorkerInv workers (trace ++ [event]) t := by
  have does := schedulerStep_cases fired
  cases event with
  | start => exact does ▸ inv.start.quiet rfl ⟨rfl, rfl, rfl, rfl, id⟩
  | submit task priority => exact does.2 ▸ inv.start.quiet rfl (SameWorkers.submit task priority)
  | put task =>
      obtain ⟨item, _, _, rfl⟩ := does
      exact inv.quiet rfl (SameWorkers.enqueue item)
  | cancelSubmit task => exact does ▸ inv.quiet rfl (SameWorkers.cancelSubmit task)
  | take worker =>
      obtain ⟨item, rest, idle, _, rfl⟩ := does
      exact inv.quiet rfl (SameWorkers.take inv.unclosed idle item rest)
  | finish worker outcome =>
      obtain ⟨item, working, rfl⟩ := does
      cases outcome with
      | returned value => exact inv.quiet rfl (SameWorkers.finish inv.unclosed working (by simp))
      | raised error => exact inv.quiet rfl (SameWorkers.finish inv.unclosed working (by simp))
      | cancelled => exact inv.loss working
  | die worker =>
      obtain ⟨dying, rfl⟩ := does
      have alive : (WorkerTask.dying : WorkerTask τ).live = (WorkerTask.dead : WorkerTask τ).live :=
        rfl
      obtain ⟨live, tasks⟩ := SameWorkers.set dying alive
      exact inv.quiet rfl ⟨rfl, rfl, rfl, live, tasks⟩
  | close => exact absurd rfl unclosed
  | joined => simp [inv.unclosed] at does
  | closed => simp [inv.unclosed] at does

theorem takeable_of_live (live : 0 < s.tasks.countP WorkerTask.live) (queued : s.queue ≠ []) :
    ∃ worker, (∃ t, schedulerStep s (.take worker) t) ∨
      ∃ item, s.tasks[worker]? = some (.working item) := by
  obtain ⟨task, member, alive⟩ := List.countP_pos_iff.mp live
  obtain ⟨worker, present⟩ := List.getElem?_of_mem member
  obtain ⟨item, rest, queue⟩ := List.exists_cons_of_ne_nil queued
  refine ⟨worker, ?_⟩
  cases task with
  | idle =>
      refine Or.inl ⟨s.take worker item rest, ?_⟩
      simp [schedulerStep, TaskScheduler.next, present, queue]
  | working item => exact Or.inr ⟨item, present⟩
  | dying => cases alive
  | dead => cases alive

/-- Between `start` and `close` the workers are all there if and only if no
operation has ended in a `CancelledError`. -/
theorem workers_kept_iff {limit maxQueue : ℤ} {initial : TaskScheduler τ ν ε}
    (created : TaskScheduler.create limit maxQueue = .ok initial)
    (run : Run schedulerStep initial trace s) (unclosed : .close ∉ trace)
    (started : s.started = true) :
    WorkersKept limit s ↔ ∀ worker, .finish worker .cancelled ∉ trace := by
  obtain ⟨start, positive⟩ := WorkerInv.create created
  have inv : .close ∉ trace → WorkerInv limit.toNat trace s := by
    refine run.trace_invariant (motive := fun past a => .close ∉ past →
      WorkerInv limit.toNat past a) (fun _ => start) ?_
    intro past a event b inv fired open_
    have earlier : .close ∉ past := fun member => open_ (List.mem_append_left _ member)
    exact (inv earlier).step (fun same => open_ (by simp [same])) fired
  have counted := (inv unclosed).counted started
  constructor
  · intro kept worker lost
    have losses : 0 < trace.countP SchedulerEvent.isLoss :=
      List.countP_pos_iff.mpr ⟨_, lost, rfl⟩
    have live := kept.live
    omega
  · intro spared
    have losses : trace.countP SchedulerEvent.isLoss = 0 := by
      refine List.countP_eq_zero.mpr fun event member lost => ?_
      cases event with
      | finish worker outcome =>
          cases outcome with
          | cancelled => exact spared worker member
          | returned value => cases lost
          | raised error => cases lost
      | start | submit | put | cancelSubmit | take | die | close | joined | closed => cases lost
    exact ⟨by omega, takeable_of_live (by omega)⟩

end Steps

def twoWorkers : TaskScheduler ℕ String String where
  workers := 2
  maxQueue := 1
  workersPositive := Nat.two_pos
  maxQueuePositive := Nat.one_pos

def failingOperation : List (SchedulerEvent ℕ String String) :=
  [.submit 0 .normal, .take 0, .submit 1 .high, .submit 2 .normal, .cancelSubmit 1,
    .finish 0 (.raised "error"), .take 1]

theorem workers_kept_iff_failing :
    ∃ s, Run schedulerStep twoWorkers failingOperation s ∧ WorkersKept 2 s := by
  have ran : ∃ s, Run schedulerStep twoWorkers failingOperation s ∧ s.started = true :=
    ⟨_, run_of_schedule rfl, rfl⟩
  obtain ⟨s, run, started⟩ := ran
  have created : TaskScheduler.create 2 1 = .ok twoWorkers := rfl
  refine ⟨s, run, (workers_kept_iff created run ?_ started).mpr ?_⟩
  · simp [failingOperation]
  · simp [failingOperation]

def cancelledOperations : List (SchedulerEvent ℕ String String) :=
  [.submit 0 .normal, .take 0, .submit 1 .normal, .take 1, .submit 2 .normal,
    .finish 0 .cancelled, .finish 1 .cancelled]

/-- Two cancelled operations leave two workers dead, and the third operation is
never taken. -/
theorem cancelled_operation_ends_worker :
    TaskScheduler.create 2 1 = .ok twoWorkers ∧
      ∃ s, Run schedulerStep twoWorkers cancelledOperations s ∧ s.started = true ∧
        s.tasks = [.dead, .dead] ∧ s.queue = [⟨20, 2, 2⟩] ∧ ¬ WorkersKept 2 s := by
  refine ⟨rfl, _, run_of_schedule rfl, rfl, rfl, rfl, ?_⟩
  intro kept
  exact absurd kept.live (by decide)

end Eis.Performance
