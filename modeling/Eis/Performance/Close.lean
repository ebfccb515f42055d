import Eis.Performance.Scheduler

/-!
# Closing the scheduler

`close` waits until every item is done, and only then cancels the workers.  What
is put on the queue after its `join` has been woken is not waited for.
-/

set_option autoImplicit false

namespace Eis.Performance

open Transition

variable {τ ν ε : Type}

/-- When `close` goes on after its `join` the queue is empty, and nothing is put
on it while `close` waits for the workers that it has cancelled. -/
def NothingLate (s : TaskScheduler τ ν ε) : SchedulerEvent τ ν ε → Prop
  | .joined => s.queue = []
  | .submit _ _ => s.closer ≠ .gathering
  | .put _ => s.closer ≠ .gathering
  | _ => True

instance [DecidableEq τ] (s : TaskScheduler τ ν ε) (event : SchedulerEvent τ ν ε) :
    Decidable (NothingLate s event) :=
  match event with
  | .joined => inferInstanceAs (Decidable (s.queue = []))
  | .submit _ _ => inferInstanceAs (Decidable (s.closer ≠ .gathering))
  | .put _ => inferInstanceAs (Decidable (s.closer ≠ .gathering))
  | .start => isTrue trivial
  | .cancelSubmit _ => isTrue trivial
  | .take _ => isTrue trivial
  | .finish _ _ => isTrue trivial
  | .die _ => isTrue trivial
  | .close => isTrue trivial
  | .closed => isTrue trivial

def TaskScheduler.nextEarly [DecidableEq τ] (s : TaskScheduler τ ν ε)
    (event : SchedulerEvent τ ν ε) : Option (TaskScheduler τ ν ε) :=
  if NothingLate s event then s.next event else none

theorem run_of_early [DecidableEq τ] {s t : TaskScheduler τ ν ε}
    {events : List (SchedulerEvent τ ν ε)}
    (folded : events.foldlM TaskScheduler.nextEarly s = some t) :
    Run (Guarded NothingLate schedulerStep) s events t :=
  Run.of_guarded_foldlM folded

/-- Every operation put on the queue so far has been awaited, except when its
submitter gave up before a worker came, and the future of the submitter is done. -/
structure NoWorkLost [DecidableEq τ] (s : TaskScheduler τ ν ε) : Prop where
  settled : ∀ task ∈ s.puts, (s.future task).done = true
  awaited : ∀ task ∈ s.puts, s.submitters task = .submitted → s.awaits.count task = 1
  once : ∀ task, s.awaits.count task ≤ 1

section Invariant
variable [DecidableEq τ]

structure CloseInv (s : TaskScheduler τ ν ε) : Prop where
  counted : s.unfinished = s.queue.length + s.tasks.countP WorkerTask.isWorking
  unstarted : s.started = false → s.tasks = []
  opened : s.closer ≠ .idle → s.closer ≠ .returned → s.started = true
  unopened : s.started = false → s.closer = .idle → s.puts = [] ∧
    ∀ task item, s.submitters task ≠ .putting item
  distinct : (s.queue.map Item.submitter).Nodup
  queued : ∀ item ∈ s.queue, s.awaits.count item.submitter = 0 ∧
    (s.submitters item.submitter = .submitted ∧ s.future item.submitter = .pending ∨
      s.submitters item.submitter = .abandoned)
  putting : ∀ task item, s.submitters task = .putting item →
    item.submitter = task ∧ s.future task = .pending
  unput : ∀ task, s.submitters task = .fresh ∨ (∃ item, s.submitters task = .putting item) →
    s.awaits.count task = 0
  known : ∀ task ∈ s.puts, s.submitters task = .submitted ∨ s.submitters task = .abandoned
  once : ∀ task, s.awaits.count task ≤ 1
  working : ∀ (worker : ℕ) (item : Item τ), s.tasks[worker]? = some (.working item) →
    s.awaits.count item.submitter = 1
  placed : ∀ task ∈ s.puts, (∃ item ∈ s.queue, item.submitter = task) ∨
    (∃ (worker : ℕ) (item : Item τ), s.tasks[worker]? = some (.working item) ∧
      item.submitter = task) ∨
    ((s.future task).done = true ∧ (s.submitters task = .submitted → s.awaits.count task = 1))
  emptied : s.closer = .gathering → s.queue = []

variable {s t : TaskScheduler τ ν ε}

theorem CloseInv.start (inv : CloseInv s) : CloseInv s.start := by
  unfold TaskScheduler.start
  split
  · exact inv
  · rename_i unstarted
    have none := inv.unstarted (by simpa using unstarted)
    have working : (List.replicate s.workers (WorkerTask.idle : WorkerTask τ)).countP
        WorkerTask.isWorking = 0 := by simp [List.countP_replicate, WorkerTask.isWorking]
    exact { inv with
      counted := by simpa [none, working] using inv.counted
      unstarted := by simp
      opened := by simp
      unopened := by simp
      working := by simp [List.getElem?_replicate]
      placed := by
        intro task member
        have place := inv.placed task member
        simpa [none, List.getElem?_replicate] using place }

theorem CloseInv.enqueue (inv : CloseInv s) {item : Item τ}
    (putting : s.submitters item.submitter = .fresh ∨
      s.submitters item.submitter = .putting item)
    (opened : s.started = false → s.closer ≠ .idle)
    (pending : s.future item.submitter = .pending) (early : s.closer ≠ .gathering) :
    CloseInv (s.enqueue item) := by
  have inserted : ∀ other, other ∈ s.queue.orderedInsert Item.le item ↔
      other = item ∨ other ∈ s.queue := fun other => List.mem_orderedInsert _
  have length : (s.queue.orderedInsert Item.le item).length = s.queue.length + 1 :=
    List.orderedInsert_length Item.le s.queue item
  have perm := (List.perm_orderedInsert Item.le item s.queue).map Item.submitter
  have absent : item.submitter ∉ s.queue.map Item.submitter := by
    intro member
    obtain ⟨other, queued, same⟩ := List.mem_map.mp member
    have := inv.queued other queued
    grind
  have distinct : ((s.queue.orderedInsert Item.le item).map Item.submitter).Nodup :=
    perm.nodup_iff.mpr (List.nodup_cons.mpr ⟨absent, inv.distinct⟩)
  have unawaited := inv.unput item.submitter (by grind)
  exact { inv with
    counted := by
      have counted := inv.counted
      simp only [TaskScheduler.enqueue, length]
      omega
    unopened := by
      intro unstarted idle
      exact absurd idle (opened unstarted)
    distinct := distinct
    queued := by
      intro other member
      rcases (inserted other).mp member with rfl | queued
      · simp [TaskScheduler.enqueue, unawaited, pending]
      · have different : other.submitter ≠ item.submitter :=
          fun same => absent (same ▸ List.mem_map_of_mem queued)
        simpa [TaskScheduler.enqueue, different] using inv.queued other queued
    putting := by
      intro task other
      have own := inv.putting task other
      simp only [TaskScheduler.enqueue, Function.update_apply]
      grind
    unput := by
      intro task
      have own := inv.unput task
      simp only [TaskScheduler.enqueue, Function.update_apply]
      grind
    known := by
      intro task member
      have own := inv.known task
      simp only [TaskScheduler.enqueue, Function.update_apply] at member ⊢
      grind
    placed := by
      intro task member
      have own := inv.placed task
      simp only [TaskScheduler.enqueue, Function.update_apply] at member ⊢
      grind
    emptied := fun gathering => absurd gathering early }

theorem CloseInv.unqueued (inv : CloseInv s) {task : τ} (fresh : s.submitters task = .fresh) :
    ∀ item ∈ s.queue, item.submitter ≠ task := by
  intro item member same
  have own := inv.queued item member
  simp [same, fresh] at own

theorem CloseInv.unknown (inv : CloseInv s) {task : τ} (fresh : s.submitters task = .fresh) :
    ∀ other ∈ s.puts, other ≠ task := by
  intro other member same
  have own := inv.known other member
  simp [same, fresh] at own

theorem CloseInv.submit (inv : CloseInv s) {task : τ} (fresh : s.submitters task = .fresh)
    (priority : Priority) (early : s.closer ≠ .gathering) :
    CloseInv (s.submit task priority) := by
  have same : s.start.started = true ∧ s.start.submitters = s.submitters ∧
      s.start.closer = s.closer ∧ s.start.future = s.future := by
    unfold TaskScheduler.start
    split
    · rename_i started
      exact ⟨started, rfl, rfl, rfl⟩
    · exact ⟨rfl, rfl, rfl, rfl⟩
  have ready := inv.start
  unfold TaskScheduler.submit
  generalize s.start = a at same ready
  obtain ⟨started, sameSubmitters, sameCloser, sameFuture⟩ := same
  rw [← sameSubmitters] at fresh
  rw [← sameCloser] at early
  rw [← sameFuture]
  have reset : CloseInv { a with
      sequence := s.sequence + 1
      future := Function.update a.future task .pending } := by
    exact { ready with
      queued := by
        intro item member
        simpa [ready.unqueued fresh item member] using ready.queued item member
      putting := by
        intro other item putting
        have different : other ≠ task := fun same => by simp [same, fresh] at putting
        simpa [different] using ready.putting other item putting
      placed := by
        intro other member
        simpa [ready.unknown fresh other member] using ready.placed other member }
  simp only
  split
  · exact { reset with
      unopened := by simp [started]
      queued := by
        intro item member
        simpa [reset.unqueued fresh item member] using reset.queued item member
      putting := by
        intro other item putting
        have own := reset.putting other item
        simp only [Function.update_apply] at putting own ⊢
        grind
      unput := by
        intro other
        have own := reset.unput other
        simp only [Function.update_apply]
        grind
      known := by
        intro other member
        simpa [reset.unknown fresh other member] using reset.known other member
      placed := by
        intro other member
        simpa [reset.unknown fresh other member] using reset.placed other member }
  · exact reset.enqueue (Or.inl fresh) (by simp [started]) (by simp) early

theorem CloseInv.abandon (inv : CloseInv s) (task : τ) {future : Future ν ε}
    (kept : (s.future task).done = true → future.done = true) :
    CloseInv { s with
      future := Function.update s.future task future
      submitters := Function.update s.submitters task .abandoned } := by
  exact { inv with
    unopened := by
      intro unstarted idle
      obtain ⟨none, unblocked⟩ := inv.unopened unstarted idle
      refine ⟨none, fun other item => ?_⟩
      by_cases own : other = task
      · simp [own]
      · simpa [own] using unblocked other item
    queued := by
      intro item member
      by_cases own : item.submitter = task
      · exact ⟨(inv.queued item member).1, Or.inr (by simp [own])⟩
      · simpa [own] using inv.queued item member
    putting := by
      intro other item putting
      have different : other ≠ task := fun own => by simp [own] at putting
      simp only [Function.update_of_ne different] at putting ⊢
      exact inv.putting other item putting
    unput := by
      intro other unawaited
      have different : other ≠ task := fun own => by simp [own] at unawaited
      simp only [Function.update_of_ne different] at unawaited
      exact inv.unput other unawaited
    known := by
      intro other member
      by_cases own : other = task
      · exact Or.inr (by simp [own])
      · simpa [own] using inv.known other member
    placed := by
      intro other member
      by_cases own : other = task
      · rcases inv.placed other member with waiting | busy | ⟨done, _⟩
        · exact Or.inl waiting
        · exact Or.inr (Or.inl busy)
        · subst own
          exact Or.inr (Or.inr ⟨by simpa using kept done, by simp⟩)
      · simpa [own] using inv.placed other member }

theorem CloseInv.cancelSubmit (inv : CloseInv s) (task : τ) : CloseInv (s.cancelSubmit task) := by
  have abandoned : CloseInv { s with
      submitters := Function.update s.submitters task .abandoned } := by
    simpa using inv.abandon task (id : (s.future task).done = true → _)
  unfold TaskScheduler.cancelSubmit
  split
  · exact abandoned
  · exact abandoned
  · split
    · exact inv
    · rename_i pending
      exact inv.abandon task fun done => absurd done pending
  · exact inv

theorem CloseInv.taskDone (inv : CloseInv { s with unfinished := s.unfinished - 1 }) :
    CloseInv s.taskDone := by
  have moves : s.taskDone.closer = s.closer ∨
      s.closer = .draining ∧ s.taskDone.closer = .woken := by
    simp only [TaskScheduler.taskDone]
    split
    · rename_i last
      exact Or.inr ⟨last.2, rfl⟩
    · exact Or.inl rfl
  exact { inv with
    opened := by
      rcases moves with same | ⟨draining, _⟩
      · rw [same]
        exact inv.opened
      · exact fun _ _ => inv.opened (by simp [draining]) (by simp [draining])
    unopened := by
      rcases moves with same | ⟨_, woken⟩
      · rw [same]
        exact inv.unopened
      · simp [woken]
    emptied := by
      rcases moves with same | ⟨_, woken⟩
      · rw [same]
        exact inv.emptied
      · simp [woken] }

theorem CloseInv.take (inv : CloseInv s) {worker : ℕ} {item : Item τ} {rest : List (Item τ)}
    (idle : s.tasks[worker]? = some .idle) (queue : s.queue = item :: rest) :
    CloseInv (s.take worker item rest) := by
  have working := countP_set_add WorkerTask.isWorking idle (.working item)
  simp only [WorkerTask.isWorking, Bool.false_eq_true, if_false, if_true, Nat.add_zero] at working
  have distinct : (item :: rest).map Item.submitter |>.Nodup := queue ▸ inv.distinct
  obtain ⟨first, later⟩ := List.nodup_cons.mp distinct
  have unawaited : ∀ other ∈ rest, other.submitter ≠ item.submitter :=
    fun other member same => first (same ▸ List.mem_map_of_mem member)
  have queued : ∀ other ∈ rest, other ∈ s.queue := by
    intro other member
    exact queue ▸ List.mem_cons_of_mem item member
  have counted := inv.counted
  rw [queue, List.length_cons] at counted
  unfold TaskScheduler.take
  split
  · rename_i cancelled
    refine CloseInv.taskDone ?_
    exact { inv with
      counted := by
        simp only
        omega
      distinct := later
      queued := fun other member => inv.queued other (queued other member)
      placed := by
        intro task member
        have own := inv.placed task member
        have front := inv.queued item (by simp [queue])
        grind [Future.done]
      emptied := fun gathering => by simp [inv.emptied gathering] at queue }
  · have one : (s.awaits ++ [item.submitter]).count item.submitter = 1 := by
      simp [(inv.queued item (by simp [queue])).1]
    have others : ∀ task, item.submitter ≠ task →
        (s.awaits ++ [item.submitter]).count task = s.awaits.count task := by
      intro task different
      simp [List.count_append, different]
    exact { inv with
      counted := by
        simp only
        omega
      unstarted := by
        intro closed
        simp [inv.unstarted closed] at idle
      distinct := later
      queued := by
        intro other member
        rw [others _ (Ne.symm (unawaited other member))]
        exact inv.queued other (queued other member)
      unput := by
        intro task fresh
        have own := inv.unput task fresh
        have front := inv.queued item (by simp [queue])
        grind
      once := by
        intro task
        by_cases own : item.submitter = task
        · subst own
          exact one.le
        · rw [others task own]
          exact inv.once task
      working := by
        intro place other taken
        have busy := inv.working place other
        have front := inv.queued item (by simp [queue])
        grind
      placed := by
        intro task member
        by_cases own : item.submitter = task
        · exact Or.inr (Or.inl ⟨worker, item, by grind, own⟩)
        · simp only [others task own]
          rcases inv.placed task member with
            ⟨other, waiting, same⟩ | ⟨place, other, taken, same⟩ | done
          · exact Or.inl ⟨other, by grind, same⟩
          · exact Or.inr (Or.inl ⟨place, other, by grind, same⟩)
          · exact Or.inr (Or.inr done)
      emptied := fun gathering => by simp [inv.emptied gathering] at queue }

theorem finish_eq (worker : ℕ) (item : Item τ) (outcome : OperationOutcome ν ε) :
    ∃ task : WorkerTask τ, task.isWorking = false ∧ s.finish worker item outcome =
      { s with
        tasks := s.tasks.set worker task
        future := Function.update s.future item.submitter
          (TaskScheduler.settle (s.future item.submitter) outcome) }.taskDone := by
  cases outcome with
  | returned value => exact ⟨.idle, rfl, rfl⟩
  | raised error => exact ⟨.idle, rfl, rfl⟩
  | cancelled => exact ⟨.dead, rfl, rfl⟩

theorem CloseInv.finish (inv : CloseInv s) {worker : ℕ} {item : Item τ}
    (working : s.tasks[worker]? = some (.working item)) (outcome : OperationOutcome ν ε) :
    CloseInv (s.finish worker item outcome) := by
  obtain ⟨task, ended, same⟩ := finish_eq (s := s) worker item outcome
  have settled := settle_done (s.future item.submitter) outcome
  have less := countP_set_add WorkerTask.isWorking working task
  have one : (WorkerTask.working item).isWorking = true := rfl
  simp only [ended, one, Bool.false_eq_true, if_false, if_true, Nat.add_zero] at less
  have awaited := inv.working worker item working
  rw [same]
  refine CloseInv.taskDone ?_
  exact { inv with
    counted := by
      have counted := inv.counted
      simp only
      omega
    unstarted := by
      intro closed
      simp [inv.unstarted closed]
    queued := by
      intro other member
      have unawaited := (inv.queued other member).1
      have different : other.submitter ≠ item.submitter := by
        intro own
        simp [own, awaited] at unawaited
      simp only [Function.update_of_ne different]
      exact inv.queued other member
    putting := by
      intro task other putting
      have unawaited := inv.unput task (Or.inr ⟨other, putting⟩)
      have different : task ≠ item.submitter := by
        intro own
        simp [own, awaited] at unawaited
      simp only [Function.update_of_ne different]
      exact inv.putting task other putting
    working := by
      intro place other taken
      have busy := inv.working place other
      grind [WorkerTask.isWorking]
    placed := by
      intro other member
      by_cases own : other = item.submitter
      · subst own
        exact Or.inr (Or.inr ⟨by simpa using settled, fun _ => awaited⟩)
      · simp only [Function.update_of_ne own]
        rcases inv.placed other member with waiting | ⟨place, next, taken, same⟩ | done
        · exact Or.inl waiting
        · exact Or.inr (Or.inl ⟨place, next, by grind, same⟩)
        · exact Or.inr (Or.inr done) }

theorem CloseInv.die (inv : CloseInv s) {worker : ℕ} (dying : s.tasks[worker]? = some .dying) :
    CloseInv { s with tasks := s.tasks.set worker .dead } := by
  have same := countP_set_add WorkerTask.isWorking dying .dead
  simp only [WorkerTask.isWorking, Bool.false_eq_true, if_false, Nat.add_zero] at same
  exact { inv with
    counted := by
      have counted := inv.counted
      simp only
      omega
    unstarted := by
      intro closed
      simp [inv.unstarted closed]
    working := by
      intro place item taken
      have busy := inv.working place item
      grind
    placed := by
      intro task member
      rcases inv.placed task member with waiting | ⟨place, item, taken, named⟩ | done
      · exact Or.inl waiting
      · exact Or.inr (Or.inl ⟨place, item, by grind, named⟩)
      · exact Or.inr (Or.inr done) }

theorem CloseInv.cancelTasks (inv : CloseInv s) (started : s.started = true)
    (empty : s.queue = []) : CloseInv s.cancelTasks := by
  have working : ∀ (worker : ℕ) (item : Item τ),
      (s.tasks.map WorkerTask.cancel)[worker]? = some (.working item) ↔
        s.tasks[worker]? = some (.working item) := by
    intro worker item
    rw [List.getElem?_map]
    cases s.tasks[worker]? with
    | none => simp
    | some task => cases task <;> simp [WorkerTask.cancel]
  have same : (s.tasks.map WorkerTask.cancel).countP WorkerTask.isWorking =
      s.tasks.countP WorkerTask.isWorking := by
    rw [List.countP_map]
    congr 1
    funext task
    cases task <;> rfl
  exact { inv with
    counted := by
      simp only [TaskScheduler.cancelTasks, same]
      exact inv.counted
    unstarted := by simp [TaskScheduler.cancelTasks, started]
    opened := fun _ _ => started
    unopened := by simp [TaskScheduler.cancelTasks]
    working := by
      simp only [TaskScheduler.cancelTasks, working]
      exact inv.working
    placed := by
      simp only [TaskScheduler.cancelTasks, working]
      exact inv.placed
    emptied := fun _ => empty }

theorem CloseInv.close (inv : CloseInv s) : CloseInv s.close := by
  unfold TaskScheduler.close
  split
  · rename_i started
    split
    · rename_i finished
      have counted := inv.counted
      exact inv.cancelTasks started (List.length_eq_zero_iff.mp (by omega))
    · exact { inv with
        opened := fun _ _ => started
        unopened := by simp
        emptied := by simp }
  · exact { inv with
      opened := by simp
      unopened := by simp
      emptied := by simp }

theorem CloseInv.noWorkLost (inv : CloseInv s) (empty : s.queue = [])
    (dead : ∀ task ∈ s.tasks, task = .dead) : NoWorkLost s := by
  have settled : ∀ task ∈ s.puts, (s.future task).done = true ∧
      (s.submitters task = .submitted → s.awaits.count task = 1) := by
    intro task member
    rcases inv.placed task member with ⟨item, waiting, _⟩ | ⟨worker, item, busy, _⟩ | done
    · simp [empty] at waiting
    · cases dead _ (List.mem_of_getElem? busy)
    · exact done
  exact ⟨fun task member => (settled task member).1, fun task member => (settled task member).2,
    inv.once⟩

theorem CloseInv.finishClose (inv : CloseInv s) (dead : ∀ task ∈ s.tasks, task = .dead) :
    CloseInv s.finishClose := by
  have none : s.tasks.countP WorkerTask.isWorking = 0 := by
    refine List.countP_eq_zero.mpr fun task member working => ?_
    rw [dead task member] at working
    cases working
  have gone : ∀ (worker : ℕ) (item : Item τ), s.tasks[worker]? ≠ some (.working item) :=
    fun worker item busy => by cases dead _ (List.mem_of_getElem? busy)
  exact { inv with
    counted := by
      have counted := inv.counted
      simp only [TaskScheduler.finishClose, List.countP_nil]
      omega
    unstarted := fun _ => rfl
    opened := by simp [TaskScheduler.finishClose]
    unopened := by simp [TaskScheduler.finishClose]
    working := by simp [TaskScheduler.finishClose]
    placed := by
      intro task member
      rcases inv.placed task member with waiting | ⟨worker, item, busy, _⟩ | done
      · exact Or.inl waiting
      · exact absurd busy (gone worker item)
      · exact Or.inr (Or.inr done)
    emptied := by simp [TaskScheduler.finishClose] }

theorem CloseInv.step {event : SchedulerEvent τ ν ε} (inv : CloseInv s)
    (early : NothingLate s event) (fired : schedulerStep s event t) : CloseInv t := by
  have does := schedulerStep_cases fired
  cases event with
  | start => exact does ▸ inv.start
  | submit task priority => exact does.2 ▸ inv.submit does.1 priority early
  | put task =>
      obtain ⟨item, putting, _, rfl⟩ := does
      obtain ⟨named, pending⟩ := inv.putting task item putting
      subst named
      have opened : s.started = false → s.closer ≠ .idle := fun unstarted idle =>
        (inv.unopened unstarted idle).2 _ _ putting
      exact inv.enqueue (Or.inr putting) opened pending early
  | cancelSubmit task => exact does ▸ inv.cancelSubmit task
  | take worker =>
      obtain ⟨item, rest, idle, queue, rfl⟩ := does
      exact inv.take idle queue
  | finish worker outcome =>
      obtain ⟨item, working, rfl⟩ := does
      exact inv.finish working outcome
  | die worker => exact does.2 ▸ inv.die does.1
  | close => exact does.2 ▸ inv.close
  | joined =>
      have started := inv.opened (by simp [does.1]) (by simp [does.1])
      exact does.2 ▸ inv.cancelTasks started early
  | closed => exact does.2.2 ▸ inv.finishClose does.2.1

theorem CloseInv.create {workers maxQueue : ℤ}
    (created : TaskScheduler.create workers maxQueue = .ok s) : CloseInv s := by
  unfold TaskScheduler.create at created
  split at created
  · cases created
    constructor <;> simp
  · cases created

/-- `close` returns at once from a scheduler that was not started, or when all
the workers that it has cancelled are dead. -/
theorem returned_cases {event : SchedulerEvent τ ν ε} (fired : schedulerStep s event t)
    (closing : s.closer ≠ .returned) (returned : t.closer = .returned) :
    (s.closer = .idle ∧ s.started = false ∧ t = { s with closer := .returned }) ∨
      s.closer = .gathering ∧ (∀ task ∈ s.tasks, task = .dead) ∧ t = s.finishClose := by
  have kept : t.closer ≠ s.closer := fun same => closing (same ▸ returned)
  have done : t.closer ≠ s.taskDone.closer := by
    intro same
    simp only [returned, TaskScheduler.taskDone] at same
    split at same
    · cases same
    · exact closing same.symm
  have does := schedulerStep_cases fired
  cases event with
  | start =>
      refine absurd ?_ kept
      rw [does]
      unfold TaskScheduler.start
      split
      · rfl
      · rfl
  | submit task priority =>
      refine absurd ?_ kept
      rw [does.2]
      unfold TaskScheduler.submit TaskScheduler.start
      grind [TaskScheduler.enqueue]
  | put task =>
      obtain ⟨item, _, _, rfl⟩ := does
      exact absurd rfl kept
  | cancelSubmit task =>
      refine absurd ?_ kept
      rw [does]
      unfold TaskScheduler.cancelSubmit
      grind
  | take worker =>
      obtain ⟨item, rest, _, _, rfl⟩ := does
      unfold TaskScheduler.take at kept done
      split at kept
      · rename_i cancelled
        exact absurd (by simp [cancelled, TaskScheduler.taskDone]) done
      · exact absurd rfl kept
  | finish worker outcome =>
      obtain ⟨item, _, rfl⟩ := does
      exact absurd rfl done
  | die worker =>
      obtain ⟨_, rfl⟩ := does
      exact absurd rfl kept
  | close =>
      obtain ⟨idle, rfl⟩ := does
      unfold TaskScheduler.close at returned ⊢
      split at returned
      · rename_i started
        split at returned <;> cases returned
      · rename_i unstarted
        simp only [Bool.not_eq_true] at unstarted
        exact Or.inl ⟨idle, unstarted, by simp [unstarted]⟩
  | joined =>
      obtain ⟨_, rfl⟩ := does
      cases returned
  | closed => exact Or.inr does

/-- Where nothing is put on the queue behind the back of `close`, no operation
put on it before `close` returns is lost. -/
theorem close_loses_nothing {workers maxQueue : ℤ} {initial : TaskScheduler τ ν ε}
    {events : List (SchedulerEvent τ ν ε)} {event : SchedulerEvent τ ν ε}
    (created : TaskScheduler.create workers maxQueue = .ok initial)
    (run : Run (Guarded NothingLate schedulerStep) initial events s)
    (fired : Guarded NothingLate schedulerStep s event t)
    (closing : s.closer ≠ .returned) (returned : t.closer = .returned) : NoWorkLost t := by
  have inv : CloseInv s := by
    refine run.invariant (CloseInv.create created) ?_
    intro a e b inv step
    exact inv.step step.1 step.2
  obtain ⟨idle, unstarted, rfl⟩ | ⟨gathering, dead, rfl⟩ :=
    returned_cases fired.2 closing returned
  · obtain ⟨none, _⟩ := inv.unopened unstarted idle
    constructor
    case settled => simp [none]
    case awaited => simp [none]
    case once => exact inv.once
  · have law := inv.noWorkLost (inv.emptied gathering) dead
    exact ⟨law.settled, law.awaited, law.once⟩

end Invariant

def oneWorker : TaskScheduler ℕ String String where
  workers := 1
  maxQueue := 1
  workersPositive := Nat.one_pos
  maxQueuePositive := Nat.one_pos

def putBeforeJoin : List (SchedulerEvent ℕ String String) :=
  [.submit 0 .normal, .take 0, .close, .submit 1 .high, .finish 0 (.returned "value"), .take 0,
    .finish 0 (.raised "error"), .joined, .die 0]

theorem close_loses_nothing_joined :
    ∃ s t, Run (Guarded NothingLate schedulerStep) oneWorker putBeforeJoin s ∧
      schedulerStep s .closed t ∧ t.puts = [0, 1] ∧ NoWorkLost t := by
  have ran : ∃ s t, Run (Guarded NothingLate schedulerStep) oneWorker putBeforeJoin s ∧
      schedulerStep s .closed t ∧ t.puts = [0, 1] ∧ s.closer ≠ .returned ∧ t.closer = .returned :=
    ⟨_, _, run_of_early rfl, rfl, rfl, nofun, rfl⟩
  obtain ⟨s, t, run, fired, puts, closing, returned⟩ := ran
  have created : TaskScheduler.create 1 1 = .ok oneWorker := rfl
  have early : Guarded NothingLate schedulerStep s .closed t := ⟨trivial, fired⟩
  exact ⟨s, t, run, fired, puts, close_loses_nothing created run early closing returned⟩

def putAfterJoin : List (SchedulerEvent ℕ String String) :=
  [.submit 0 .normal, .take 0, .close, .finish 0 (.returned "value"), .submit 1 .normal, .joined,
    .die 0, .closed]

/-- The second operation is put on the queue when the `join` has been woken and
`close` has not gone on yet. -/
theorem late_put_lost :
    TaskScheduler.create 1 1 = .ok oneWorker ∧
      ∃ s, Run schedulerStep oneWorker putAfterJoin s ∧ s.closer = .returned ∧ s.puts = [0, 1] ∧
        s.submitters 1 = .submitted ∧ s.awaits = [0] ∧ s.future 1 = .pending ∧ ¬ NoWorkLost s := by
  refine ⟨rfl, _, run_of_schedule rfl, rfl, rfl, rfl, rfl, rfl, ?_⟩
  intro law
  exact absurd (law.settled 1 (by decide)) (by decide)

end Eis.Performance
