import Mathlib.Data.Set.List
import Eis.Performance.Scheduler

/-!
# Gathering in batches

`batch_gather`, cut at its awaits.  An operation goes by its place among the operations.
The awaited ones end in any order; `asyncio.gather` follows its documentation: it is
done when all of its awaitables are, with their results in their order, or as soon as
one of them fails.
-/

set_option autoImplicit false

namespace Eis.Performance

open Transition

variable {ν ε : Type}

inductive GatherFailure (ε : Type) where
  | raised (error : ε)
  | cancelled

namespace OperationOutcome

def future : OperationOutcome ν ε → Future ν ε
  | .returned value => .result value
  | .raised error => .exception error
  | .cancelled => .cancelled

def failure? : OperationOutcome ν ε → Option (GatherFailure ε)
  | .returned _ => none
  | .raised error => some (.raised error)
  | .cancelled => some .cancelled

end OperationOutcome

def result? : Future ν ε → Option ν
  | .result value => some value
  | _ => none

/-- Where `batch_gather` stands; `gathering` holds the first failure of the batch. -/
inductive GatherStatus (ν ε : Type) where
  | calling
  | gathering (failure : Option (GatherFailure ε))
  | returned (results : List ν)
  | raised (failure : GatherFailure ε)

/-- `futures` are those of the operations called so far. -/
structure BatchGather (ν ε : Type) where
  count : ℕ
  batchSize : ℕ
  positive : 1 ≤ batchSize
  start : ℕ := 0
  futures : List (Future ν ε) := []
  results : List ν := []
  status : GatherStatus ν ε := .calling

/-- `batch_gather` of `count` operations, up to its loop. -/
def batchGather (count : ℕ) (batchSize : ℤ) : Except String (BatchGather ν ε) :=
  if valid : 1 ≤ batchSize then
    .ok
      { count := count
        batchSize := batchSize.toNat
        positive := by omega }
  else .error "batch_size must be positive"

namespace BatchGather

/-- The end of `operations[start : start + batch_size]`. -/
def batchEnd (s : BatchGather ν ε) : ℕ := min (s.start + s.batchSize) s.count

def batchResults (s : BatchGather ν ε) : Option (List ν) :=
  (s.futures.drop s.start).mapM result?

def outstanding (s : BatchGather ν ε) : ℕ := s.futures.countP fun future => !future.done

/-- An operation ends; `gather` keeps the first failure of its batch. -/
def settle (s : BatchGather ν ε) (operation : ℕ) (outcome : OperationOutcome ν ε) :
    BatchGather ν ε :=
  { s with
    futures := s.futures.set operation outcome.future
    status :=
      match s.status with
      | .gathering none => .gathering outcome.failure?
      | status => status }

end BatchGather

/-- `call` calls the next operation, which returns an awaitable, and `callRaises` one that
raises; `gather` awaits the batch; `settle` ends an awaitable; `resume` comes back from the
batch and `leave` from the loop. -/
inductive GatherEvent (ν ε : Type) where
  | call (operation : ℕ)
  | callRaises (operation : ℕ) (error : ε)
  | gather
  | settle (operation : ℕ) (outcome : OperationOutcome ν ε)
  | resume
  | leave

/-- Nothing else runs between two calls of one batch. -/
def BatchGather.next (s : BatchGather ν ε) : GatherEvent ν ε → Option (BatchGather ν ε)
  | .call operation =>
      match s.status with
      | .calling =>
          if operation = s.futures.length ∧ operation < s.batchEnd then
            some { s with futures := s.futures ++ [.pending] }
          else none
      | _ => none
  | .callRaises operation error =>
      match s.status with
      | .calling =>
          if operation = s.futures.length ∧ operation < s.batchEnd then
            some { s with status := .raised (.raised error) }
          else none
      | _ => none
  | .gather =>
      match s.status with
      | .calling =>
          if s.start < s.count ∧ s.futures.length = s.batchEnd then
            some { s with status := .gathering none }
          else none
      | _ => none
  | .settle operation outcome =>
      match s.status, s.futures[operation]? with
      | .calling, _ => none
      | _, some .pending => some (s.settle operation outcome)
      | _, _ => none
  | .resume =>
      match s.status with
      | .gathering (some failure) => some { s with status := .raised failure }
      | .gathering none =>
          s.batchResults.map fun values =>
            { s with
              results := s.results ++ values
              start := s.start + s.batchSize
              status := .calling }
      | _ => none
  | .leave =>
      match s.status with
      | .calling =>
          if s.count ≤ s.start then some { s with status := .returned s.results } else none
      | _ => none

def gatherStep (s : BatchGather ν ε) (event : GatherEvent ν ε) (t : BatchGather ν ε) : Prop :=
  s.next event = some t

/-! ## Laws of a run -/

namespace GatherEvent

def called? : GatherEvent ν ε → Option ℕ
  | .call operation => some operation
  | .callRaises operation _ => some operation
  | _ => none

def Succeeds : GatherEvent ν ε → Prop
  | .callRaises _ _ => False
  | .settle _ outcome => outcome.failure? = none
  | _ => True

end GatherEvent

def calls (trace : List (GatherEvent ν ε)) : List ℕ := trace.filterMap GatherEvent.called?

/-- When an operation is called, those of the earlier batches have ended. -/
def InTurn (batchSize : ℕ) (event : GatherEvent ν ε) (past : List (GatherEvent ν ε)) : Prop :=
  ∀ operation, event.called? = some operation → ∀ earlier,
    earlier / batchSize < operation / batchSize → ∃ outcome, .settle earlier outcome ∈ past

/-- What a run up to `s` has done.  It ends after finitely many events, with the results of
the operations in their order when none of them has failed. -/
structure OrderedBoundedMap (count batchSize : ℕ) (trace : List (GatherEvent ν ε))
    (s : BatchGather ν ε) : Prop where
  once : (calls trace).Nodup
  bounded : s.outstanding ≤ batchSize
  inTurn : Preceded (InTurn batchSize) trace
  results : ∀ results, s.status = .returned results →
    calls trace = List.range count ∧ results.length = count ∧
      ∀ (operation : ℕ) (value : ν), results[operation]? = some value ↔
        .settle operation (.returned value) ∈ trace
  finite : trace.length ≤ 4 * count + 2
  returns : (∀ event ∈ trace, event.Succeeds) → (∀ event, s.next event = none) →
    ∃ results, s.status = .returned results

def FailedIn (trace : List (GatherEvent ν ε)) (failure : GatherFailure ε) : Prop :=
  (∃ operation outcome, .settle operation outcome ∈ trace ∧ outcome.failure? = some failure) ∨
    ∃ operation error, .callRaises operation error ∈ trace ∧ failure = .raised error

/-- The steps that are left, at most. -/
def BatchGather.potential (s : BatchGather ν ε) : ℕ :=
  2 * (s.count - s.futures.length) + s.outstanding + 2 * (s.count - s.start) +
    match s.status with
    | .calling => 2
    | .gathering _ => 1
    | _ => 0

def StatusInv (trace : List (GatherEvent ν ε)) (s : BatchGather ν ε) : Prop :=
  match s.status with
  | .calling => calls trace = List.range s.futures.length
  | .gathering failure =>
      calls trace = List.range s.futures.length ∧ s.start < s.count ∧
        s.futures.length = s.batchEnd ∧ ∀ first, failure = some first → FailedIn trace first
  | .returned results =>
      calls trace = List.range s.futures.length ∧ s.count ≤ s.start ∧ results = s.results
  | .raised failure => FailedIn trace failure ∧ ∃ called, calls trace = List.range called

structure BatchInv (count batchSize : ℕ) (trace : List (GatherEvent ν ε))
    (s : BatchGather ν ε) : Prop where
  count_eq : s.count = count
  size_eq : s.batchSize = batchSize
  aligned : batchSize ∣ s.start
  begun : min s.start count ≤ s.futures.length
  within : s.futures.length ≤ s.batchEnd
  gathered : s.futures.take s.start = s.results.map .result
  settled : ∀ operation outcome, .settle operation outcome ∈ trace ↔
    s.futures[operation]? = some outcome.future
  inTurn : Preceded (InTurn batchSize) trace
  status : StatusInv trace s
  finite : trace.length + s.potential ≤ 4 * count + 2

variable {count batchSize : ℕ} {trace : List (GatherEvent ν ε)} {s t : BatchGather ν ε}

theorem gatherStep_cases {event : GatherEvent ν ε} (fired : gatherStep s event t) :
    match event with
    | .call operation =>
        s.status = .calling ∧ operation = s.futures.length ∧ operation < s.batchEnd ∧
          t = { s with futures := s.futures ++ [.pending] }
    | .callRaises operation error =>
        s.status = .calling ∧ operation = s.futures.length ∧ operation < s.batchEnd ∧
          t = { s with status := .raised (.raised error) }
    | .gather =>
        s.status = .calling ∧ s.start < s.count ∧ s.futures.length = s.batchEnd ∧
          t = { s with status := .gathering none }
    | .settle operation outcome =>
        s.status ≠ .calling ∧ s.futures[operation]? = some .pending ∧
          t = s.settle operation outcome
    | .resume =>
        (∃ failure, s.status = .gathering (some failure) ∧
          t = { s with status := .raised failure }) ∨
        ∃ values, s.status = .gathering none ∧ s.batchResults = some values ∧
          t = { s with
            results := s.results ++ values
            start := s.start + s.batchSize
            status := .calling }
    | .leave =>
        s.status = .calling ∧ s.count ≤ s.start ∧
          t = { s with status := .returned s.results } := by
  unfold gatherStep BatchGather.next at fired
  cases event with
  | call operation | callRaises operation error | gather =>
      simp only at fired
      split at fired
      · rename_i at_
        obtain ⟨allowed, same⟩ := Option.ite_none_right_eq_some.mp fired
        obtain rfl := Option.some.inj same
        exact ⟨at_, allowed.1, allowed.2, rfl⟩
      · cases fired
  | leave =>
      simp only at fired
      split at fired
      · rename_i at_
        obtain ⟨allowed, same⟩ := Option.ite_none_right_eq_some.mp fired
        obtain rfl := Option.some.inj same
        exact ⟨at_, allowed, rfl⟩
      · cases fired
  | settle operation outcome =>
      simp only at fired
      split at fired
      · cases fired
      · rename_i pending notCalling
        exact ⟨notCalling, pending, (Option.some.inj fired).symm⟩
      · cases fired
  | resume =>
      simp only at fired
      split at fired
      · rename_i failure at_
        exact .inl ⟨failure, at_, (Option.some.inj fired).symm⟩
      · rename_i at_
        obtain ⟨values, all, rfl⟩ := Option.map_eq_some_iff.mp fired
        exact .inr ⟨values, at_, all, rfl⟩
      · cases fired

/-! ## The invariant -/

@[simp] theorem calls_append (events later : List (GatherEvent ν ε)) :
    calls (events ++ later) = calls events ++ calls later := List.filterMap_append

theorem calls_snoc_silent {event : GatherEvent ν ε} (silent : event.called? = none) :
    calls (trace ++ [event]) = calls trace := by
  simp [calls, silent]

theorem outcome_ne_pending (outcome : OperationOutcome ν ε) : outcome.future ≠ .pending := by
  cases outcome <;> simp [OperationOutcome.future]

theorem outcome_future_injective {outcome other : OperationOutcome ν ε}
    (same : outcome.future = other.future) : outcome = other := by
  cases outcome <;> cases other <;> simp_all [OperationOutcome.future]

theorem FailedIn.later {failure : GatherFailure ε} (failed : FailedIn trace failure)
    (event : GatherEvent ν ε) : FailedIn (trace ++ [event]) failure := by
  rcases failed with ⟨operation, outcome, member, fails⟩ | ⟨operation, error, member, same⟩
  · exact .inl ⟨operation, outcome, List.mem_append_left _ member, fails⟩
  · exact .inr ⟨operation, error, List.mem_append_left _ member, same⟩

theorem FailedIn.last {operation : ℕ} {outcome : OperationOutcome ν ε}
    {failure : GatherFailure ε} (fails : outcome.failure? = some failure) :
    FailedIn (trace ++ [.settle operation outcome]) failure :=
  .inl ⟨operation, outcome, by simp, fails⟩

theorem inTurn_of_silent {event : GatherEvent ν ε} (silent : event.called? = none) :
    InTurn batchSize event trace := by
  intro operation called
  rw [silent] at called
  cases called

theorem BatchInv.ended (inv : BatchInv count batchSize trace s) {operation : ℕ}
    (before : operation < s.start) (called : operation < s.futures.length) :
    ∃ value, s.futures[operation]? = some (.result value) ∧
      .settle operation (.returned value) ∈ trace := by
  have within : operation < (s.futures.take s.start).length := by
    rw [List.length_take]
    omega
  rw [inv.gathered, List.length_map] at within
  have found : s.futures[operation]? = some (.result s.results[operation]) := by
    rw [← List.getElem?_take_of_lt before, inv.gathered]
    simp [within]
  exact ⟨_, found, (inv.settled operation (.returned _)).mpr found⟩

theorem BatchInv.calling (inv : BatchInv count batchSize trace s)
    (room : s.futures.length < s.batchEnd) :
    s.start ≤ s.futures.length ∧ s.futures.length < s.start + batchSize ∧
      s.futures.length < count := by
  have begun := inv.begun
  rw [BatchGather.batchEnd, inv.count_eq, inv.size_eq] at room
  omega

theorem BatchInv.next_inTurn (inv : BatchInv count batchSize trace s)
    (room : s.futures.length < s.batchEnd) {event : GatherEvent ν ε}
    (called : event.called? = some s.futures.length) : InTurn batchSize event trace := by
  intro operation same earlier lower
  obtain rfl : s.futures.length = operation := Option.some.inj (called.symm.trans same)
  obtain ⟨batch, start⟩ := inv.aligned
  have place := inv.calling room
  have positive : 0 < batchSize := by omega
  have current : s.futures.length / batchSize = batch := by
    rw [Nat.div_eq_iff positive]
    rw [start, Nat.mul_comm] at place
    omega
  have before : earlier < s.start := by
    rw [current, Nat.div_lt_iff_lt_mul positive] at lower
    rwa [start, Nat.mul_comm]
  obtain ⟨value, _, member⟩ := inv.ended before (by omega)
  exact ⟨_, member⟩

theorem BatchInv.init (positive : 1 ≤ batchSize) :
    BatchInv count batchSize []
      ({ count := count, batchSize := batchSize, positive := positive } : BatchGather ν ε) where
  count_eq := rfl
  size_eq := rfl
  aligned := Nat.dvd_zero _
  begun := by simp
  within := by simp
  gathered := rfl
  settled := by simp
  inTurn := Preceded.nil
  status := rfl
  finite := by
    simp [BatchGather.potential, BatchGather.outstanding]
    omega

theorem BatchInv.call (inv : BatchInv count batchSize trace s) (at_ : s.status = .calling)
    (room : s.futures.length < s.batchEnd) :
    BatchInv count batchSize (trace ++ [.call s.futures.length])
      { s with futures := s.futures ++ [.pending] } where
  count_eq := inv.count_eq
  size_eq := inv.size_eq
  aligned := inv.aligned
  begun := by
    rw [List.length_append]
    exact inv.begun.trans (Nat.le_add_right _ _)
  within := by
    rw [List.length_append]
    exact room
  gathered := by
    have place := inv.calling room
    rw [List.take_append_of_le_length place.1]
    exact inv.gathered
  settled := by
    intro operation outcome
    have fresh := outcome_ne_pending outcome
    rw [List.getElem?_append, List.mem_append, inv.settled]
    split
    · simp
    · rename_i beyond
      have absent : s.futures[operation]? = none := List.getElem?_eq_none (by omega)
      rw [absent, List.getElem?_singleton]
      split <;> simp [fresh.symm]
  inTurn := inv.inTurn.snoc (inv.next_inTurn room rfl)
  status := by
    have called := inv.status
    unfold StatusInv at called ⊢
    simp only [at_] at called ⊢
    rw [calls_append, called, List.length_append, List.length_singleton, List.range_succ]
    rfl
  finite := by
    have finite := inv.finite
    have place := inv.calling room
    have counted := inv.count_eq
    simp only [BatchGather.potential, BatchGather.outstanding, at_, List.length_append,
      List.length_singleton, List.countP_append, List.countP_singleton, Future.done,
      Bool.not_false, if_true] at finite ⊢
    omega

theorem BatchInv.move (inv : BatchInv count batchSize trace s) {event : GatherEvent ν ε}
    {status : GatherStatus ν ε}
    (unsettling : ∀ operation outcome, event ≠ .settle operation outcome)
    (inTurn : InTurn batchSize event trace)
    (said : StatusInv (trace ++ [event]) { s with status := status })
    (closer : ({ s with status := status } : BatchGather ν ε).potential < s.potential) :
    BatchInv count batchSize (trace ++ [event]) { s with status := status } where
  count_eq := inv.count_eq
  size_eq := inv.size_eq
  aligned := inv.aligned
  begun := inv.begun
  within := inv.within
  gathered := inv.gathered
  settled := by
    intro operation outcome
    rw [List.mem_append, inv.settled]
    simp [(unsettling operation outcome).symm]
  inTurn := inv.inTurn.snoc inTurn
  status := said
  finite := by
    have finite := inv.finite
    rw [List.length_append, List.length_singleton]
    omega

theorem BatchInv.raise (inv : BatchInv count batchSize trace s) {event : GatherEvent ν ε}
    {failure : GatherFailure ε}
    (unsettling : ∀ operation outcome, event ≠ .settle operation outcome)
    (inTurn : InTurn batchSize event trace) (failed : FailedIn (trace ++ [event]) failure)
    (called : ∃ called, calls (trace ++ [event]) = List.range called)
    (running : ∀ ended, s.status ≠ .raised ended)
    (open_ : ∀ results, s.status ≠ .returned results) :
    BatchInv count batchSize (trace ++ [event]) { s with status := .raised failure } := by
  refine inv.move unsettling inTurn ⟨failed, called⟩ ?_
  cases at_ : s.status with
  | calling | gathering _ =>
      simp only [BatchGather.potential, BatchGather.outstanding, at_]
      omega
  | returned results => exact absurd at_ (open_ results)
  | raised ended => exact absurd at_ (running ended)

theorem BatchInv.gather (inv : BatchInv count batchSize trace s) (at_ : s.status = .calling)
    (more : s.start < s.count) (full : s.futures.length = s.batchEnd) :
    BatchInv count batchSize (trace ++ [.gather]) { s with status := .gathering none } := by
  refine inv.move (by simp) (inTurn_of_silent rfl) ?said ?closer
  case said =>
    have called := inv.status
    unfold StatusInv at called
    simp only [at_] at called
    refine ⟨?_, more, full, fun _ failed => nomatch failed⟩
    exact (calls_snoc_silent rfl).trans called
  case closer =>
    simp only [BatchGather.potential, BatchGather.outstanding, at_]
    omega

theorem BatchInv.start_le (inv : BatchInv count batchSize trace s) {operation : ℕ}
    (pending : s.futures[operation]? = some .pending) : s.start ≤ operation := by
  by_contra before
  obtain ⟨value, found, _⟩ := inv.ended (by omega) (List.getElem?_eq_some_iff.mp pending).1
  rw [pending] at found
  cases found

theorem outstanding_settle {operation : ℕ} (outcome : OperationOutcome ν ε)
    (pending : s.futures[operation]? = some .pending) :
    (s.settle operation outcome).outstanding + 1 = s.outstanding := by
  obtain ⟨called, waits⟩ := List.getElem?_eq_some_iff.mp pending
  have done : outcome.future.done = true := by cases outcome <;> rfl
  have counted : 0 < s.futures.countP fun future => !future.done := by
    rw [List.countP_pos_iff]
    exact ⟨_, List.getElem_mem called, by rw [waits]; rfl⟩
  simp only [BatchGather.outstanding, BatchGather.settle]
  rw [List.countP_set called, waits, done]
  exact Nat.sub_add_cancel counted

theorem BatchInv.settle (inv : BatchInv count batchSize trace s) {operation : ℕ}
    {outcome : OperationOutcome ν ε} (uncalling : s.status ≠ .calling)
    (pending : s.futures[operation]? = some .pending) :
    BatchInv count batchSize (trace ++ [.settle operation outcome])
      (s.settle operation outcome) where
  count_eq := inv.count_eq
  size_eq := inv.size_eq
  aligned := inv.aligned
  begun := by simpa [BatchGather.settle] using inv.begun
  within := by
    have within := inv.within
    simpa only [BatchGather.settle, BatchGather.batchEnd, List.length_set] using within
  gathered := (List.take_set_of_le (inv.start_le pending)).trans inv.gathered
  settled := by
    intro other ended
    have called := (List.getElem?_eq_some_iff.mp pending).1
    rw [List.mem_append, inv.settled, BatchGather.settle, List.getElem?_set]
    by_cases same : operation = other
    · subst same
      rw [pending]
      simp only [called, if_true, Option.some.injEq, List.mem_singleton,
        GatherEvent.settle.injEq, true_and]
      constructor
      · rintro (waits | rfl)
        · exact absurd waits.symm (outcome_ne_pending ended)
        · rfl
      · exact fun futures => .inr (outcome_future_injective futures.symm)
    · simp [same, Ne.symm same]
  inTurn := inv.inTurn.snoc (inTurn_of_silent rfl)
  status := by
    have before := inv.status
    unfold StatusInv at before ⊢
    rw [calls_snoc_silent rfl]
    cases at_ : s.status with
    | calling => exact absurd at_ uncalling
    | returned results =>
        simp only [at_, BatchGather.settle, List.length_set] at before ⊢
        exact before
    | raised failure =>
        simp only [at_, BatchGather.settle] at before ⊢
        exact ⟨before.1.later _, before.2⟩
    | gathering failure =>
        simp only [at_] at before
        obtain ⟨called, more, full, failed⟩ := before
        cases failure with
        | some first =>
            simp only [at_, BatchGather.settle, List.length_set]
            exact ⟨called, more, full, fun own same => (failed own same).later _⟩
        | none =>
            simp only [at_, BatchGather.settle, List.length_set]
            exact ⟨called, more, full, fun own same => FailedIn.last same⟩
  finite := by
    have finite := inv.finite
    have fewer := outstanding_settle outcome pending
    have status : (match (s.settle operation outcome).status with
        | .calling => 2
        | .gathering _ => 1
        | _ => 0) = match s.status with
        | .calling => 2
        | .gathering _ => 1
        | _ => 0 := by
      unfold BatchGather.settle
      rcases s.status with _ | (_ | _) | _ | _ <;> rfl
    simp only [BatchGather.potential] at finite ⊢
    rw [status]
    simp only [BatchGather.settle, List.length_append, List.length_singleton,
      List.length_set] at finite fewer ⊢
    omega

theorem mapM_result?_eq_some_iff {futures : List (Future ν ε)} {values : List ν} :
    futures.mapM result? = some values ↔ futures = values.map .result := by
  induction futures generalizing values with
  | nil => cases values <;> simp
  | cons future rest ih =>
      cases future with
      | result value =>
          rw [List.mapM_cons]
          cases values with
          | nil => cases rest.mapM result? <;> simp [result?]
          | cons own values => simp [result?, Option.bind_eq_some_iff, ih, and_comm]
      | pending | cancelled | exception error => cases values <;> simp [List.mapM_cons, result?]

theorem BatchInv.resume (inv : BatchInv count batchSize trace s)
    (at_ : s.status = .gathering none) {values : List ν} (all : s.batchResults = some values) :
    BatchInv count batchSize (trace ++ [.resume])
      { s with
        results := s.results ++ values
        start := s.start + s.batchSize
        status := .calling } := by
  have before := inv.status
  unfold StatusInv at before
  simp only [at_] at before
  obtain ⟨called, more, full, _⟩ := before
  have counted := inv.count_eq
  have sized := inv.size_eq
  have behind : s.futures.length ≤ s.start + s.batchSize := by
    rw [full]
    exact Nat.min_le_left _ _
  exact
    { count_eq := counted
      size_eq := sized
      aligned := Nat.dvd_add inv.aligned ⟨1, by omega⟩
      begun := by
        rw [full, BatchGather.batchEnd, counted]
      within := by
        rw [full]
        simp only [BatchGather.batchEnd]
        omega
      gathered := by
        rw [List.take_of_length_le behind, ← List.take_append_drop s.start s.futures,
          inv.gathered, mapM_result?_eq_some_iff.mp all, List.map_append]
      settled := by simpa using inv.settled
      inTurn := inv.inTurn.snoc (inTurn_of_silent rfl)
      status := by
        unfold StatusInv
        exact (calls_snoc_silent rfl).trans called
      finite := by
        have finite := inv.finite
        have positive := s.positive
        simp only [BatchGather.potential, BatchGather.outstanding, at_, List.length_append,
          List.length_singleton] at finite ⊢
        omega }

theorem BatchInv.leave (inv : BatchInv count batchSize trace s) (at_ : s.status = .calling)
    (past : s.count ≤ s.start) :
    BatchInv count batchSize (trace ++ [.leave]) { s with status := .returned s.results } := by
  refine inv.move (by simp) (inTurn_of_silent rfl) ?said ?closer
  case said =>
    have called := inv.status
    unfold StatusInv at called
    simp only [at_] at called
    exact ⟨(calls_snoc_silent rfl).trans called, past, rfl⟩
  case closer =>
    simp only [BatchGather.potential, BatchGather.outstanding, at_]
    omega

theorem BatchInv.step (inv : BatchInv count batchSize trace s) {event : GatherEvent ν ε}
    (fired : gatherStep s event t) : BatchInv count batchSize (trace ++ [event]) t := by
  have cases := gatherStep_cases fired
  cases event with
  | call operation =>
      obtain ⟨at_, rfl, room, rfl⟩ := cases
      exact inv.call at_ room
  | callRaises operation error =>
      obtain ⟨at_, rfl, room, rfl⟩ := cases
      have called := inv.status
      unfold StatusInv at called
      simp only [at_] at called
      refine inv.raise (by simp) (inv.next_inTurn room rfl)
        (.inr ⟨s.futures.length, error, by simp, rfl⟩) ⟨s.futures.length + 1, ?_⟩
        (by simp [at_]) (by simp [at_])
      rw [calls_append, called, List.range_succ]
      rfl
  | gather =>
      obtain ⟨at_, more, full, rfl⟩ := cases
      exact inv.gather at_ more full
  | settle operation outcome =>
      obtain ⟨uncalling, pending, rfl⟩ := cases
      exact inv.settle uncalling pending
  | resume =>
      rcases cases with ⟨failure, at_, rfl⟩ | ⟨values, at_, all, rfl⟩
      · have before := inv.status
        unfold StatusInv at before
        simp only [at_] at before
        obtain ⟨called, _, _, failed⟩ := before
        refine inv.raise (by simp) (inTurn_of_silent rfl)
          ((failed failure rfl).later _) ⟨_, (calls_snoc_silent rfl).trans called⟩
          (by simp [at_]) (by simp [at_])
      · exact inv.resume at_ all
  | leave =>
      obtain ⟨at_, past, rfl⟩ := cases
      exact inv.leave at_ past

theorem BatchInv.run (positive : 1 ≤ batchSize)
    (run : Run gatherStep { count := count, batchSize := batchSize, positive := positive }
      trace s) : BatchInv count batchSize trace s :=
  run.trace_invariant (BatchInv.init positive) fun _ _ _ _ inv fired => inv.step fired

/-! ## Results in order -/

theorem BatchInv.bounded (inv : BatchInv count batchSize trace s) : s.outstanding ≤ batchSize := by
  have settled : (s.futures.take s.start).countP (fun future => !future.done) = 0 := by
    rw [inv.gathered, List.countP_map, List.countP_eq_zero]
    exact fun _ _ => Bool.noConfusion
  have running : (s.futures.drop s.start).length ≤ batchSize := by
    have within := inv.within
    rw [BatchGather.batchEnd, inv.size_eq] at within
    rw [List.length_drop]
    omega
  calc s.outstanding
      = (s.futures.take s.start).countP (fun future => !future.done) +
          (s.futures.drop s.start).countP (fun future => !future.done) := by
        rw [← List.countP_append, List.take_append_drop]
        rfl
    _ ≤ 0 + (s.futures.drop s.start).length :=
        Nat.add_le_add settled.le List.countP_le_length
    _ ≤ batchSize := by rwa [Nat.zero_add]

theorem BatchInv.once (inv : BatchInv count batchSize trace s) : (calls trace).Nodup := by
  have status := inv.status
  unfold StatusInv at status
  cases at_ : s.status with
  | calling =>
      simp only [at_] at status
      exact status ▸ List.nodup_range
  | gathering failure | returned results =>
      simp only [at_] at status
      exact status.1 ▸ List.nodup_range
  | raised failure =>
      simp only [at_] at status
      obtain ⟨_, called, all⟩ := status
      exact all ▸ List.nodup_range

theorem BatchInv.results (inv : BatchInv count batchSize trace s) {results : List ν}
    (returned : s.status = .returned results) :
    calls trace = List.range count ∧ results.length = count ∧
      ∀ (operation : ℕ) (value : ν), results[operation]? = some value ↔
        .settle operation (.returned value) ∈ trace := by
  have status := inv.status
  unfold StatusInv at status
  simp only [returned] at status
  obtain ⟨called, past, rfl⟩ := status
  have begun := inv.begun
  have within := inv.within
  have counted := inv.count_eq
  rw [BatchGather.batchEnd] at within
  have all : s.futures.length = count := by omega
  have futures : s.futures = s.results.map .result := by
    rw [← inv.gathered, List.take_of_length_le (by omega)]
  refine ⟨all ▸ called, ?_, ?_⟩
  · rw [← all, futures, List.length_map]
  · intro operation value
    rw [inv.settled, futures]
    simp [OperationOutcome.future]

theorem BatchInv.batchResults_ne_none (inv : BatchInv count batchSize trace s)
    (succeed : ∀ event ∈ trace, event.Succeeds) (stuck : ∀ event, s.next event = none)
    (at_ : s.status = .gathering none) : s.batchResults ≠ none := by
  have settled : s.futures.drop s.start ∈ Set.range (List.map .result) := by
    rw [Set.range_list_map]
    intro future member
    obtain ⟨operation, found⟩ := List.getElem?_of_mem (List.mem_of_mem_drop member)
    have ended : ∀ outcome : OperationOutcome ν ε, future = outcome.future →
        ∃ value, outcome = .returned value := by
      rintro outcome rfl
      have succeeded := succeed _ ((inv.settled operation outcome).mpr found)
      cases outcome with
      | returned value => exact ⟨value, rfl⟩
      | raised error => cases succeeded
      | cancelled => cases succeeded
    cases future with
    | result value => exact ⟨value, rfl⟩
    | pending =>
        have next := stuck (.settle operation .cancelled)
        simp [BatchGather.next, at_, found] at next
    | cancelled =>
        obtain ⟨value, same⟩ := ended .cancelled rfl
        cases same
    | exception error =>
        obtain ⟨value, same⟩ := ended (.raised error) rfl
        cases same
  obtain ⟨values, same⟩ := settled
  rw [BatchGather.batchResults, mapM_result?_eq_some_iff.mpr same.symm]
  exact Option.some_ne_none values

/-- When nothing fails, a state without a next event is the end of the loop. -/
theorem BatchInv.returns (inv : BatchInv count batchSize trace s)
    (succeed : ∀ event ∈ trace, event.Succeeds) (stuck : ∀ event, s.next event = none) :
    ∃ results, s.status = .returned results := by
  have unfailed : ∀ failure, ¬ FailedIn trace failure := by
    rintro failure (⟨operation, outcome, member, fails⟩ | ⟨operation, error, member, _⟩)
    · have none : outcome.failure? = none := succeed _ member
      rw [none] at fails
      cases fails
    · exact succeed _ member
  have status := inv.status
  unfold StatusInv at status
  cases at_ : s.status with
  | returned results => exact ⟨results, rfl⟩
  | raised failure =>
      simp only [at_] at status
      exact absurd status.1 (unfailed failure)
  | calling =>
      by_cases more : s.start < s.count
      · by_cases full : s.futures.length = s.batchEnd
        · have next := stuck .gather
          simp [BatchGather.next, at_, more, full] at next
        · have room : s.futures.length < s.batchEnd := lt_of_le_of_ne inv.within full
          have next := stuck (.call s.futures.length)
          simp [BatchGather.next, at_, room] at next
      · have next := stuck .leave
        simp [BatchGather.next, at_] at next
        omega
  | gathering failure =>
      simp only [at_] at status
      cases failure with
      | some first => exact absurd (status.2.2.2 first rfl) (unfailed first)
      | none =>
          have waiting : s.batchResults = none := by
            have next := stuck .resume
            simpa [BatchGather.next, at_] using next
          exact absurd waiting (inv.batchResults_ne_none succeed stuck at_)

/-- For every number of operations and every batch size that is allowed, in every run. -/
theorem batch_gather_ordered_bounded_map (ν ε : Type) (count : ℕ) (batchSize : ℤ)
    (positive : 1 ≤ batchSize) :
    ∃ init : BatchGather ν ε, batchGather count batchSize = .ok init ∧
      ∀ trace s, Run gatherStep init trace s →
        OrderedBoundedMap count batchSize.toNat trace s := by
  refine ⟨_, dif_pos positive, ?_⟩
  intro trace s run
  have inv := BatchInv.run (by omega) run
  exact
    { once := inv.once
      bounded := inv.bounded
      inTurn := inv.inTurn
      results := fun _ returned => inv.results returned
      finite := (Nat.le_add_right _ _).trans inv.finite
      returns := inv.returns }

theorem gather_of_foldlM (folded : trace.foldlM BatchGather.next s = some t) :
    Run gatherStep s trace t := Run.of_foldlM folded

def threeOperations : List (GatherEvent String String) :=
  [.call 0, .call 1, .gather, .settle 1 (.returned "b"), .settle 0 (.returned "a"), .resume,
    .call 2, .gather, .settle 2 (.returned "c"), .resume, .leave]

theorem batch_gather_three_operations :
    ∃ init s : BatchGather String String, batchGather 3 2 = .ok init ∧
      Run gatherStep init threeOperations s ∧ s.status = .returned ["a", "b", "c"] ∧
        OrderedBoundedMap 3 2 threeOperations s := by
  obtain ⟨init, made, all⟩ := batch_gather_ordered_bounded_map String String 3 2 (by decide)
  have run : ∃ s, threeOperations.foldlM BatchGather.next init = some s ∧
      s.status = .returned ["a", "b", "c"] := by
    obtain rfl := Except.ok.inj made
    exact ⟨_, rfl, rfl⟩
  obtain ⟨s, folded, returned⟩ := run
  have run := gather_of_foldlM folded
  exact ⟨init, s, made, run, returned, all _ _ run⟩

end Eis.Performance
