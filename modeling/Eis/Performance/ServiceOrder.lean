import Eis.Performance.Scheduler

/-!
# The order of service

A worker that takes an operation takes the most urgent one that waits, and of
equally urgent ones the one that was submitted first.  Priorities and the order
of the submissions are read off the trace, so the sequence numbers of the code
do not occur in the result.
-/

set_option autoImplicit false

namespace Eis.Performance

open Transition

variable {τ ν ε : Type}

def SchedulerEvent.isSubmit : SchedulerEvent τ ν ε → Bool
  | .submit _ _ => true
  | _ => false

/-- `task` was submitted with this priority, after `order` others. -/
def Submitted (trace : List (SchedulerEvent τ ν ε)) (task : τ) (priority : Priority)
    (order : ℕ) : Prop :=
  ∃ past later, trace = past ++ .submit task priority :: later ∧
    past.countP SchedulerEvent.isSubmit = order

/-- `first` is more urgent than `second`, or as urgent and submitted earlier. -/
def Ahead (trace : List (SchedulerEvent τ ν ε)) (first second : τ) : Prop :=
  ∃ urgent plain earlier later, Submitted trace first urgent earlier ∧
    Submitted trace second plain later ∧
    (urgent.value < plain.value ∨ urgent = plain ∧ earlier < later)

/-- `qsize`; what its submitter has given up is counted until a worker comes. -/
def TaskScheduler.queued (s : TaskScheduler τ ν ε) : ℕ := s.queue.length

/-- What waits for a worker: put on the queue, never awaited, its future open. -/
def TaskScheduler.waiting [DecidableEq τ] (s : TaskScheduler τ ν ε) : List τ :=
  s.puts.filter fun task => decide (task ∉ s.awaits) && !(s.future task).done

theorem Priority.value_injective : Function.Injective Priority.value := by
  intro first second same
  cases first <;> cases second <;> first | rfl | cases same

theorem Item.le_trans {first second third : Item τ} (lower : first.le second)
    (upper : second.le third) : first.le third := by
  unfold Item.le at lower upper ⊢
  omega

theorem Item.le_total (first second : Item τ) : first.le second ∨ second.le first := by
  unfold Item.le
  omega

instance : IsTrans (Item τ) Item.le := ⟨fun _ _ _ => Item.le_trans⟩

instance : Std.Total (Item.le (τ := τ)) := ⟨Item.le_total⟩

namespace Submitted

variable {trace : List (SchedulerEvent τ ν ε)} {task other : τ} {priority second : Priority}
  {order : ℕ}

theorem extend (submitted : Submitted trace task priority order)
    (events : List (SchedulerEvent τ ν ε)) :
    Submitted (trace ++ events) task priority order := by
  obtain ⟨past, later, rfl, counted⟩ := submitted
  exact ⟨past, later ++ events, by simp, counted⟩

theorem last (trace : List (SchedulerEvent τ ν ε)) (task : τ) (priority : Priority) :
    Submitted (trace ++ [.submit task priority]) task priority
      (trace.countP SchedulerEvent.isSubmit) :=
  ⟨trace, [], rfl, rfl⟩

theorem unique (submitted : Submitted trace task priority order)
    (again : Submitted trace other second order) : task = other ∧ priority = second := by
  obtain ⟨past, later, rfl, counted⟩ := submitted
  obtain ⟨before, after, same, recounted⟩ := again
  have longer : ∀ {short long : List (SchedulerEvent τ ν ε)} {event : SchedulerEvent τ ν ε}
      {rest : List (SchedulerEvent τ ν ε)}, event.isSubmit = true →
      long = short ++ event :: rest → short.countP SchedulerEvent.isSubmit ≠
        long.countP SchedulerEvent.isSubmit := by
    intro short long event rest counts split
    subst split
    simp only [List.countP_append, List.countP_cons, counts, if_true]
    omega
  rcases List.append_eq_append_iff.mp same with ⟨between, split, tail⟩ | ⟨between, split, tail⟩
  · cases between with
    | nil =>
        obtain ⟨event, _⟩ := List.cons_eq_cons.mp tail
        simpa [eq_comm] using event
    | cons event rest =>
        obtain ⟨rfl, _⟩ := List.cons_eq_cons.mp tail
        exact absurd (counted.trans recounted.symm) (longer rfl split)
  · cases between with
    | nil =>
        obtain ⟨event, _⟩ := List.cons_eq_cons.mp tail
        simpa [eq_comm] using event
    | cons event rest =>
        obtain ⟨rfl, _⟩ := List.cons_eq_cons.mp tail
        exact absurd (recounted.trans counted.symm) (longer rfl split)

end Submitted

def Item.Recorded (trace : List (SchedulerEvent τ ν ε)) (item : Item τ) : Prop :=
  ∃ priority : Priority, item.priority = priority.value ∧
    Submitted trace item.submitter priority item.sequence

theorem Item.Recorded.extend {trace : List (SchedulerEvent τ ν ε)} {item : Item τ}
    (recorded : item.Recorded trace) (events : List (SchedulerEvent τ ν ε)) :
    item.Recorded (trace ++ events) := by
  obtain ⟨priority, urgency, submitted⟩ := recorded
  exact ⟨priority, urgency, submitted.extend events⟩

theorem Item.Recorded.ahead {trace : List (SchedulerEvent τ ν ε)} {first second : Item τ}
    (recorded : first.Recorded trace) (other : second.Recorded trace) (ordered : first.le second)
    (different : first.submitter ≠ second.submitter) :
    Ahead trace first.submitter second.submitter := by
  obtain ⟨urgent, urgency, submitted⟩ := recorded
  obtain ⟨plain, plainness, resubmitted⟩ := other
  refine ⟨urgent, plain, first.sequence, second.sequence, submitted, resubmitted, ?_⟩
  rcases ordered with less | ⟨same, earlier⟩
  · exact Or.inl (urgency ▸ plainness ▸ less)
  · have level : urgent = plain := Priority.value_injective (by rw [← urgency, ← plainness, same])
    refine Or.inr ⟨level, lt_of_le_of_ne earlier fun equal => different ?_⟩
    exact (submitted.unique (equal ▸ resubmitted)).1

structure ServiceInv (limit : ℕ) (trace : List (SchedulerEvent τ ν ε))
    (s : TaskScheduler τ ν ε) : Prop where
  capacity : s.maxQueue = limit
  numbered : s.sequence = trace.countP SchedulerEvent.isSubmit
  ordered : s.queue.Pairwise Item.le
  bounded : s.queue.length ≤ limit
  queued : ∀ item ∈ s.queue, item.Recorded trace
  putting : ∀ task item, s.submitters task = .putting item →
    item.submitter = task ∧ item.Recorded trace ∧ task ∉ s.puts
  fresh : ∀ task, s.submitters task = .fresh → task ∉ s.puts
  distinct : s.puts.Nodup
  placed : ∀ task ∈ s.puts, (∃ item ∈ s.queue, item.submitter = task) ∨ task ∈ s.awaits ∨
    (s.future task).done = true

variable {limit : ℕ} {trace : List (SchedulerEvent τ ν ε)} {s t : TaskScheduler τ ν ε}

theorem ServiceInv.quiet (inv : ServiceInv limit trace s) {event : SchedulerEvent τ ν ε}
    (other : event.isSubmit = false) (sequence : t.sequence = s.sequence)
    (queue : t.queue = s.queue) (capacity : t.maxQueue = s.maxQueue) (puts : t.puts = s.puts)
    (awaits : t.awaits = s.awaits)
    (submitters : ∀ task, t.submitters task = s.submitters task ∨ t.submitters task = .abandoned)
    (futures : ∀ task, (s.future task).done = true → (t.future task).done = true) :
    ServiceInv limit (trace ++ [event]) t := by
  constructor
  case capacity => exact capacity ▸ inv.capacity
  case numbered => simp [sequence, inv.numbered, other]
  case ordered => exact queue ▸ inv.ordered
  case bounded => exact queue ▸ inv.bounded
  case queued => exact fun item member => (inv.queued item (queue ▸ member)).extend [event]
  case putting =>
    intro task item putting
    rcases submitters task with same | abandoned
    · obtain ⟨named, recorded, unput⟩ := inv.putting task item (same ▸ putting)
      exact ⟨named, recorded.extend [event], puts ▸ unput⟩
    · simp [abandoned] at putting
  case fresh =>
    intro task fresh
    rcases submitters task with same | abandoned
    · exact puts ▸ inv.fresh task (same ▸ fresh)
    · simp [abandoned] at fresh
  case distinct => exact puts ▸ inv.distinct
  case placed =>
    intro task member
    rw [queue, awaits]
    rcases inv.placed task (puts ▸ member) with waiting | awaited | done
    · exact Or.inl waiting
    · exact Or.inr (Or.inl awaited)
    · exact Or.inr (Or.inr (futures task done))

theorem ServiceInv.start_quiet (inv : ServiceInv limit trace s) :
    ServiceInv limit trace s.start := by
  unfold TaskScheduler.start
  split
  · exact inv
  · exact { inv with }

theorem ServiceInv.take (inv : ServiceInv limit trace s) {item : Item τ} {rest : List (Item τ)}
    (worker : ℕ) (queue : s.queue = item :: rest) :
    ServiceInv limit (trace ++ [.take worker]) (s.take worker item rest) := by
  have ordered := queue ▸ inv.ordered
  have bounded := queue ▸ inv.bounded
  have queued : ∀ other ∈ rest, other.Recorded (trace ++ [SchedulerEvent.take worker]) := by
    intro other member
    exact (inv.queued other (queue ▸ List.mem_cons_of_mem item member)).extend _
  have putting : ∀ task other, s.submitters task = .putting other →
      other.submitter = task ∧ other.Recorded (trace ++ [SchedulerEvent.take worker]) ∧
        task ∉ s.puts := by
    intro task other putting
    obtain ⟨named, recorded, unput⟩ := inv.putting task other putting
    exact ⟨named, recorded.extend _, unput⟩
  have numbered : s.sequence =
      (trace ++ [SchedulerEvent.take worker]).countP SchedulerEvent.isSubmit := by
    simp [SchedulerEvent.isSubmit, inv.numbered]
  have room : rest.length ≤ limit := by
    rw [List.length_cons] at bounded
    omega
  unfold TaskScheduler.take
  split
  · rename_i cancelled
    refine ⟨inv.capacity, numbered, ordered.of_cons, room, queued, putting, inv.fresh,
      inv.distinct, ?_⟩
    intro task member
    have place := inv.placed task member
    simp only [queue, List.mem_cons, TaskScheduler.taskDone] at place ⊢
    grind [Future.done]
  · refine ⟨inv.capacity, numbered, ordered.of_cons, room, queued, putting, inv.fresh,
      inv.distinct, ?_⟩
    intro task member
    have place := inv.placed task member
    simp only [queue, List.mem_cons, List.mem_append, List.not_mem_nil] at place ⊢
    grind

theorem ServiceInv.create {workers maxQueue : ℤ}
    (created : TaskScheduler.create workers maxQueue = .ok s) :
    ServiceInv maxQueue.toNat [] s ∧ 1 ≤ maxQueue := by
  unfold TaskScheduler.create at created
  split at created
  · rename_i valid
    cases created
    refine ⟨?_, valid.2⟩
    constructor <;> simp
  · cases created

section Invariant
variable [DecidableEq τ]

theorem ServiceInv.enqueue (inv : ServiceInv limit trace s) {item : Item τ} (room : s.full = false)
    (recorded : item.Recorded trace) (unput : item.submitter ∉ s.puts) :
    ServiceInv limit trace (s.enqueue item) := by
  have inserted : ∀ other, other ∈ s.queue.orderedInsert Item.le item ↔
      other = item ∨ other ∈ s.queue := fun other => List.mem_orderedInsert _
  constructor
  case capacity => exact inv.capacity
  case numbered => exact inv.numbered
  case ordered => exact inv.ordered.orderedInsert item s.queue
  case bounded =>
    have less : s.queue.length < limit := by
      simpa [TaskScheduler.full, inv.capacity] using room
    exact (List.orderedInsert_length Item.le s.queue item).trans_le less
  case queued =>
    intro other member
    rcases (inserted other).mp member with rfl | queued
    · exact recorded
    · exact inv.queued other queued
  case putting =>
    intro task other putting
    by_cases own : task = item.submitter
    · simp [TaskScheduler.enqueue, own] at putting
    · have before : s.submitters task = .putting other := by
        simpa [TaskScheduler.enqueue, own] using putting
      obtain ⟨named, noted, absent⟩ := inv.putting task other before
      exact ⟨named, noted, by simp [TaskScheduler.enqueue, absent, own]⟩
  case fresh =>
    intro task fresh
    by_cases own : task = item.submitter
    · simp [TaskScheduler.enqueue, own] at fresh
    · have before : s.submitters task = .fresh := by
        simpa [TaskScheduler.enqueue, own] using fresh
      simp [TaskScheduler.enqueue, inv.fresh task before, own]
  case distinct =>
    refine List.nodup_append.mpr ⟨inv.distinct, List.nodup_singleton _, ?_⟩
    intro task member other single same
    rw [List.mem_singleton] at single
    exact unput (single ▸ same ▸ member)
  case placed =>
    intro task member
    rcases List.mem_append.mp member with earlier | own
    · rcases inv.placed task earlier with ⟨other, waiting, named⟩ | rest
      · exact Or.inl ⟨other, (inserted other).mpr (Or.inr waiting), named⟩
      · exact Or.inr rest
    · rw [List.mem_singleton] at own
      exact Or.inl ⟨item, (inserted item).mpr (Or.inl rfl), own.symm⟩

theorem ServiceInv.submit (inv : ServiceInv limit trace s) {task : τ}
    (fresh : s.submitters task = .fresh) (priority : Priority) :
    ServiceInv limit (trace ++ [.submit task priority]) (s.submit task priority) := by
  have same : s.start.submitters = s.submitters ∧ s.start.future = s.future := by
    unfold TaskScheduler.start
    split <;> exact ⟨rfl, rfl⟩
  have ready := inv.start_quiet
  unfold TaskScheduler.submit
  generalize s.start = a at same ready
  obtain ⟨sameSubmitters, sameFuture⟩ := same
  rw [← sameSubmitters] at fresh
  rw [← sameFuture]
  have unput := ready.fresh task fresh
  have recorded : Item.Recorded (trace ++ [SchedulerEvent.submit (ν := ν) (ε := ε) task priority])
      ⟨priority.value, s.sequence, task⟩ := by
    refine ⟨priority, rfl, ?_⟩
    rw [inv.numbered]
    exact Submitted.last trace task priority
  have reset : ServiceInv limit (trace ++ [.submit task priority]) { a with
      sequence := s.sequence + 1
      future := Function.update a.future task .pending } := by
    exact { ready with
      numbered := by simp [SchedulerEvent.isSubmit, inv.numbered]
      queued := fun item member => (ready.queued item member).extend _
      putting := by
        intro other item putting
        obtain ⟨named, noted, absent⟩ := ready.putting other item putting
        exact ⟨named, noted.extend _, absent⟩
      placed := by
        intro other member
        have different : other ≠ task := fun own => unput (own ▸ member)
        simpa [different] using ready.placed other member }
  simp only
  split
  · exact { reset with
      putting := by
        intro other item putting
        by_cases own : other = task
        · subst own
          obtain rfl : _ = item := by simpa using putting
          exact ⟨rfl, recorded, unput⟩
        · exact reset.putting other item (by simpa [own] using putting)
      fresh := by
        intro other unsubmitted
        by_cases own : other = task
        · simp [own] at unsubmitted
        · exact reset.fresh other (by simpa [own] using unsubmitted) }
  · rename_i room
    exact reset.enqueue (by simpa using room) recorded unput

theorem ServiceInv.step {event : SchedulerEvent τ ν ε} (inv : ServiceInv limit trace s)
    (fired : schedulerStep s event t) : ServiceInv limit (trace ++ [event]) t := by
  have does := schedulerStep_cases fired
  cases event with
  | start =>
      have same : s.start.sequence = s.sequence ∧ s.start.queue = s.queue ∧
          s.start.maxQueue = s.maxQueue ∧ s.start.puts = s.puts ∧ s.start.awaits = s.awaits ∧
          s.start.submitters = s.submitters ∧ s.start.future = s.future := by
        unfold TaskScheduler.start
        split <;> exact ⟨rfl, rfl, rfl, rfl, rfl, rfl, rfl⟩
      obtain ⟨sequence, queue, capacity, puts, awaits, submitters, future⟩ := same
      rw [does]
      exact inv.quiet rfl sequence queue capacity puts awaits (by simp [submitters])
        (by simp [future])
  | submit task priority => exact does.2 ▸ inv.submit does.1 priority
  | put task =>
      obtain ⟨item, putting, room, rfl⟩ := does
      obtain ⟨named, recorded, unput⟩ := inv.putting task item putting
      have waited : ServiceInv limit (trace ++ [.put task]) s :=
        inv.quiet rfl rfl rfl rfl rfl rfl (fun _ => Or.inl rfl) fun _ => id
      exact waited.enqueue room (recorded.extend _) (named ▸ unput)
  | cancelSubmit task =>
      rw [does]
      unfold TaskScheduler.cancelSubmit
      split
      · exact inv.quiet rfl rfl rfl rfl rfl rfl (by grind) fun _ => id
      · exact inv.quiet rfl rfl rfl rfl rfl rfl (by grind) fun _ => id
      · split
        · exact inv.quiet rfl rfl rfl rfl rfl rfl (fun _ => Or.inl rfl) fun _ => id
        · exact inv.quiet rfl rfl rfl rfl rfl rfl (by grind) (by grind [Future.cancel_done])
      · exact inv.quiet rfl rfl rfl rfl rfl rfl (fun _ => Or.inl rfl) fun _ => id
  | take worker =>
      obtain ⟨item, rest, _, queue, rfl⟩ := does
      exact inv.take worker queue
  | finish worker outcome =>
      obtain ⟨item, _, rfl⟩ := does
      refine inv.quiet rfl rfl rfl rfl rfl rfl (fun _ => Or.inl rfl) ?_
      intro task done
      by_cases own : task = item.submitter
      · simp [TaskScheduler.finish, TaskScheduler.taskDone, own, settle_done]
      · simpa [TaskScheduler.finish, TaskScheduler.taskDone, own] using done
  | die worker =>
      rw [does.2]
      exact inv.quiet rfl rfl rfl rfl rfl rfl (fun _ => Or.inl rfl) fun _ => id
  | close =>
      rw [does.2]
      unfold TaskScheduler.close
      split
      · split
        · exact inv.quiet rfl rfl rfl rfl rfl rfl (fun _ => Or.inl rfl) fun _ => id
        · exact inv.quiet rfl rfl rfl rfl rfl rfl (fun _ => Or.inl rfl) fun _ => id
      · exact inv.quiet rfl rfl rfl rfl rfl rfl (fun _ => Or.inl rfl) fun _ => id
  | joined =>
      rw [does.2]
      exact inv.quiet rfl rfl rfl rfl rfl rfl (fun _ => Or.inl rfl) fun _ => id
  | closed =>
      rw [does.2.2]
      exact inv.quiet rfl rfl rfl rfl rfl rfl (fun _ => Or.inl rfl) fun _ => id

theorem ServiceInv.run {workers maxQueue : ℤ} {initial : TaskScheduler τ ν ε}
    (created : TaskScheduler.create workers maxQueue = .ok initial)
    (run : Run schedulerStep initial trace s) : ServiceInv maxQueue.toNat trace s := by
  refine run.trace_invariant (ServiceInv.create created).1 ?_
  intro past a event b inv fired
  exact inv.step fired

theorem ServiceInv.waiting_queued (inv : ServiceInv limit trace s) {task : τ}
    (waits : task ∈ s.waiting) : ∃ item ∈ s.queue, item.submitter = task := by
  have meets : task ∈ s.puts ∧ task ∉ s.awaits ∧ (s.future task).done = false := by
    simpa [TaskScheduler.waiting] using waits
  obtain ⟨put, unawaited, open_⟩ := meets
  rcases inv.placed task put with queued | awaited | done
  · exact queued
  · exact absurd awaited unawaited
  · simp [open_] at done

theorem ServiceInv.waiting_le_queued (inv : ServiceInv limit trace s) :
    s.waiting.length ≤ s.queued := by
  have distinct : s.waiting.Nodup := inv.distinct.filter _
  have within : s.waiting ⊆ s.queue.map Item.submitter := by
    intro task waits
    obtain ⟨item, queued, named⟩ := inv.waiting_queued waits
    exact List.mem_map.mpr ⟨item, queued, named⟩
  calc s.waiting.length
      ≤ (s.queue.map Item.submitter).length :=
        (List.subperm_of_subset distinct within).length_le
    _ = s.queued := List.length_map _

/-- In every run at most `max_queue` operations are queued, and the one that a
worker begins is ahead of all the others that wait. -/
theorem most_urgent_first {workers maxQueue : ℤ} {initial : TaskScheduler τ ν ε}
    (created : TaskScheduler.create workers maxQueue = .ok initial)
    (run : Run schedulerStep initial trace s) :
    s.waiting.length ≤ s.queued ∧ (s.queued : ℤ) ≤ maxQueue ∧
      ∀ worker t task, schedulerStep s (.take worker) t → t.awaits = s.awaits ++ [task] →
        ∀ other ∈ s.waiting, other ≠ task → Ahead trace task other := by
  have inv := ServiceInv.run created run
  have bounded : s.queued ≤ maxQueue.toNat := inv.bounded
  have positive := (ServiceInv.create created).2
  refine ⟨inv.waiting_le_queued, by omega, ?_⟩
  intro worker t task fired begun other waits different
  obtain ⟨item, rest, _, queue, rfl⟩ := schedulerStep_cases fired
  obtain rfl : item.submitter = task := by
    unfold TaskScheduler.take at begun
    split at begun
    · simp [TaskScheduler.taskDone] at begun
    · simpa using begun
  obtain ⟨second, queued, rfl⟩ := inv.waiting_queued waits
  have later : second ∈ rest := by
    rw [queue] at queued
    exact (List.mem_cons.mp queued).resolve_left fun same => different (same ▸ rfl)
  have ordered := List.rel_of_pairwise_cons (queue ▸ inv.ordered) later
  have first := inv.queued item (queue ▸ List.mem_cons_self)
  exact first.ahead (inv.queued second queued) ordered (Ne.symm different)

end Invariant

def twoPlaces : TaskScheduler ℕ String String where
  workers := 1
  maxQueue := 2
  workersPositive := Nat.one_pos
  maxQueuePositive := Nat.le_succ 1

def urgentLast : List (SchedulerEvent ℕ String String) :=
  [.submit 0 .normal, .take 0, .submit 1 .background, .submit 2 .critical,
    .finish 0 (.returned "value")]

theorem most_urgent_first_overtakes :
    ∃ s t, Run schedulerStep twoPlaces urgentLast s ∧ schedulerStep s (.take 0) t ∧
      s.waiting = [1, 2] ∧ t.awaits = [0, 2] ∧ Ahead urgentLast 2 1 := by
  have ran : ∃ s t, Run schedulerStep twoPlaces urgentLast s ∧ schedulerStep s (.take 0) t ∧
      s.waiting = [1, 2] ∧ s.awaits = [0] ∧ t.awaits = [0, 2] :=
    ⟨_, _, run_of_schedule rfl, rfl, rfl, rfl, rfl⟩
  obtain ⟨s, t, run, fired, waiting, before, after⟩ := ran
  have created : TaskScheduler.create 1 2 = .ok twoPlaces := rfl
  have ahead := (most_urgent_first created run).2.2 0 t 2 fired (by simp [before, after]) 1
    (by simp [waiting]) (by decide)
  exact ⟨s, t, run, fired, waiting, after, ahead⟩

end Eis.Performance
