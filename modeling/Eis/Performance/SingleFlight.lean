import Mathlib.Logic.Function.Basic
import Eis.Foundation.Future
import Eis.Foundation.Run
import Eis.Performance.CacheMap

/-!
# Single flight

`get_or_set` of any number of tasks on one cache, cut at its two awaits: the
owner of a flight awaits its factory, everyone else the future of the owner.
Cancelling a task that awaits a future cancels that future, for all who await
it; cancelling an owner makes its factory end in a `CancelledError`, which
`except Exception` does not catch.
-/

set_option autoImplicit false

namespace Eis.Performance

open Transition

variable {τ ν ε : Type}

inductive Outcome (ν ε : Type) where
  | returned (value : Option ν)
  | raised (error : ε)
  | invalidState
  | cancelled
deriving DecidableEq

inductive FactoryOutcome (ν ε : Type) where
  | returned (value : Option ν)
  | raised (error : ε)
  | cancelled
deriving DecidableEq

/-- A caller that is done keeps the owner of the flight it owned or joined, and
none when it found the value in the cache. -/
inductive Caller (τ ν ε : Type) where
  | fresh
  | running (key : String)
  | waiting (key : String) (owner : τ)
  | done (flight : Option τ) (outcome : Outcome ν ε)

/-- What `await future` returns or raises once the future is done. -/
def awaited : Future (Option ν) ε → Option (Outcome ν ε)
  | .pending => none
  | .cancelled => some .cancelled
  | .result value => some (.returned value)
  | .exception error => some (.raised error)

/-- A future goes by the name of the task that created it. -/
structure Flights (τ ν ε : Type) where
  cache : AsyncResponseCache ν
  inflight : String → Option τ
  future : τ → Future (Option ν) ε
  callers : τ → Caller τ ν ε
  cancelRequested : τ → Bool

namespace Flights

def init (cache : AsyncResponseCache ν) : Flights τ ν ε :=
  { cache := cache
    inflight := fun _ => none
    future := fun _ => .pending
    callers := fun _ => .fresh
    cancelRequested := fun _ => false }

variable [DecidableEq τ]

def setCaller (s : Flights τ ν ε) (task : τ) (caller : Caller τ ν ε) : Flights τ ν ε :=
  { s with callers := Function.update s.callers task caller }

def setFuture (s : Flights τ ν ε) (task : τ) (future : Future (Option ν) ε) : Flights τ ν ε :=
  { s with future := Function.update s.future task future }

def setInflight (s : Flights τ ν ε) (key : String) (owner : Option τ) : Flights τ ν ε :=
  { s with inflight := Function.update s.inflight key owner }

/-- `get_or_set` up to its first await. -/
def call (s : Flights τ ν ε) (task : τ) (key : String) (now : ℚ) : Flights τ ν ε :=
  match s.cache.get key now with
  | (cache, some value) =>
      { s with cache := cache }.setCaller task (.done none (.returned (some value)))
  | (cache, none) =>
      match s.inflight key with
      | none =>
          (({ s with cache := cache }.setInflight key (some task)).setFuture task
            .pending).setCaller task (.running key)
      | some owner =>
          match awaited (s.future owner) with
          | none => { s with cache := cache }.setCaller task (.waiting key owner)
          | some outcome => { s with cache := cache }.setCaller task (.done (some owner) outcome)

/-- The owner from the end of its factory on.  When the future is done already,
`set_exception` fails as `set_result` did, and its error leaves the call. -/
def settle (s : Flights τ ν ε) (task : τ) (key : String) (outcome : FactoryOutcome ν ε)
    (now : ℚ) : Flights τ ν ε :=
  match outcome with
  | .returned value =>
      match (s.future task).setResult value with
      | some future =>
          (({ s with cache := (s.cache.set key value none now).1 }.setFuture task
            future).setCaller task (.done (some task) (.returned value))).setInflight key none
      | none =>
          ({ s with cache := (s.cache.set key value none now).1 }.setCaller task
            (.done (some task) .invalidState)).setInflight key none
  | .raised error =>
      match (s.future task).setException error with
      | some future =>
          ((s.setFuture task future).setCaller task
            (.done (some task) (.raised error))).setInflight key none
      | none => (s.setCaller task (.done (some task) .invalidState)).setInflight key none
  | .cancelled => (s.setCaller task (.done (some task) .cancelled)).setInflight key none

/-- `task.cancel()` -/
def cancel (s : Flights τ ν ε) (task : τ) : Flights τ ν ε :=
  match s.callers task with
  | .fresh =>
      { s with cancelRequested := Function.update s.cancelRequested task true }.setCaller task
        (.done none .cancelled)
  | .running _ => { s with cancelRequested := Function.update s.cancelRequested task true }
  | .waiting _ owner =>
      { s with cancelRequested := Function.update s.cancelRequested task true }.setFuture owner
        (s.future owner).cancel
  | .done _ _ => s

end Flights

/-- A factory ends in a `CancelledError` only when its owner is cancelled. -/
inductive FlightEvent (τ ν ε : Type) where
  | call (task : τ) (key : String) (now : ℚ)
  | settle (task : τ) (outcome : FactoryOutcome ν ε) (now : ℚ)
  | cancel (task : τ)
  | wake (task : τ)

section Machine
variable [DecidableEq τ]

def Flights.next (s : Flights τ ν ε) : FlightEvent τ ν ε → Option (Flights τ ν ε)
  | .call task key now =>
      match s.callers task with
      | .fresh => some (s.call task key now)
      | _ => none
  | .settle task outcome now =>
      match s.callers task, outcome with
      | .running key, .cancelled =>
          if s.cancelRequested task then some (s.settle task key .cancelled now) else none
      | .running key, outcome => some (s.settle task key outcome now)
      | _, _ => none
  | .cancel task => some (s.cancel task)
  | .wake task =>
      match s.callers task with
      | .waiting _ owner =>
          (awaited (s.future owner)).map fun outcome =>
            s.setCaller task (.done (some owner)
              (if s.cancelRequested task then .cancelled else outcome))
      | _ => none

def flightStep (s : Flights τ ν ε) (event : FlightEvent τ ν ε) (t : Flights τ ν ε) : Prop :=
  s.next event = some t

end Machine

/-! ## What the flights of a trace leave behind -/

def FactoryOutcome.outcome : FactoryOutcome ν ε → Outcome ν ε
  | .returned value => .returned value
  | .raised error => .raised error
  | .cancelled => .cancelled

def Called (trace : List (FlightEvent τ ν ε)) (task : τ) (key : String) : Prop :=
  ∃ now, .call task key now ∈ trace

def Ended (trace : List (FlightEvent τ ν ε)) (owner : τ) (outcome : Outcome ν ε) : Prop :=
  ∃ result now, .settle owner result now ∈ trace ∧ result ≠ .cancelled ∧ result.outcome = outcome

/-- The call of `task` ended as the factory of an owner of its key did: of the
flight it owned or joined, or of an earlier one whose value it found cached. -/
def Served (trace : List (FlightEvent τ ν ε)) (task : τ) (flight : Option τ)
    (outcome : Outcome ν ε) : Prop :=
  ∃ key owner, Called trace task key ∧ Called trace owner key ∧ Ended trace owner outcome ∧
    (flight = some owner ∨ flight = none ∧ ∃ value, outcome = .returned (some value))

structure SingleFlight (trace : List (FlightEvent τ ν ε)) (s : Flights τ ν ε) : Prop where
  oneFactory : ∀ key one other, s.callers one = .running key → s.callers other = .running key →
    one = other
  served : ∀ task flight outcome, s.callers task = .done flight outcome →
    s.cancelRequested task = false → Served trace task flight outcome
  attended : ∀ task key owner, s.callers task = .waiting key owner →
    (s.future owner).done = true ∨ s.callers owner = .running key

/-- No task is cancelled while it waits on a pending future, and no owner ends
in a `CancelledError` while others wait. -/
def Undisturbed (s : Flights τ ν ε) : FlightEvent τ ν ε → Prop
  | .cancel task => ∀ key owner, s.callers task = .waiting key owner →
      (s.future owner).done = true
  | .settle task .cancelled _ => ∀ other key, s.callers other ≠ .waiting key task
  | _ => True

structure FlightInv (trace : List (FlightEvent τ ν ε)) (s : Flights τ ν ε) : Prop where
  owned : ∀ key owner, s.inflight key = some owner ↔ s.callers owner = .running key
  unsettled : ∀ owner key, s.callers owner = .running key → s.future owner = .pending
  uncancelled : ∀ owner, s.future owner ≠ .cancelled
  attended : ∀ task key owner, s.callers task = .waiting key owner →
    s.callers owner ≠ .fresh ∧ ((s.future owner).done = true ∨ s.callers owner = .running key)
  called : ∀ task key, s.callers task = .running key → Called trace task key
  joined : ∀ task key owner, s.callers task = .waiting key owner →
    Called trace task key ∧ Called trace owner key
  ended : ∀ owner outcome, awaited (s.future owner) = some outcome → Ended trace owner outcome
  stored : ∀ key entry value, s.cache.entries.get? key = some entry → entry.value = some value →
    ∃ owner, Called trace owner key ∧ Ended trace owner (.returned (some value))
  served : ∀ task flight outcome, s.callers task = .done flight outcome →
    s.cancelRequested task = false → Served trace task flight outcome

section Traces
variable {trace : List (FlightEvent τ ν ε)} {s : Flights τ ν ε}

theorem Called.later {task : τ} {key : String} (called : Called trace task key)
    (event : FlightEvent τ ν ε) : Called (trace ++ [event]) task key := by
  obtain ⟨now, member⟩ := called
  exact ⟨now, List.mem_append_left _ member⟩

theorem Called.last (task : τ) (key : String) (now : ℚ) :
    Called (trace ++ [.call task key now]) task key :=
  ⟨now, by simp⟩

theorem Ended.later {owner : τ} {outcome : Outcome ν ε} (ended : Ended trace owner outcome)
    (event : FlightEvent τ ν ε) : Ended (trace ++ [event]) owner outcome := by
  obtain ⟨result, now, member, same⟩ := ended
  exact ⟨result, now, List.mem_append_left _ member, same⟩

theorem Ended.last (owner : τ) {result : FactoryOutcome ν ε} (now : ℚ)
    (uncancelled : result ≠ .cancelled) :
    Ended (trace ++ [.settle owner result now]) owner result.outcome :=
  ⟨result, now, by simp, uncancelled, rfl⟩

theorem Served.later {task : τ} {flight : Option τ} {outcome : Outcome ν ε}
    (served : Served trace task flight outcome) (event : FlightEvent τ ν ε) :
    Served (trace ++ [event]) task flight outcome := by
  obtain ⟨key, owner, caller, starter, ended, flown⟩ := served
  exact ⟨key, owner, caller.later event, starter.later event, ended.later event, flown⟩

theorem Ended.outcome_ne {owner : τ} {outcome : Outcome ν ε} (ended : Ended trace owner outcome) :
    outcome ≠ .cancelled ∧ outcome ≠ .invalidState := by
  obtain ⟨result, now, member, uncancelled, rfl⟩ := ended
  cases result with
  | returned value => simp [FactoryOutcome.outcome]
  | raised error => simp [FactoryOutcome.outcome]
  | cancelled => exact absurd rfl uncancelled

theorem Served.outcome_ne {task : τ} {flight : Option τ} {outcome : Outcome ν ε}
    (served : Served trace task flight outcome) :
    outcome ≠ .cancelled ∧ outcome ≠ .invalidState := by
  obtain ⟨key, owner, caller, starter, ended, flown⟩ := served
  exact ended.outcome_ne

theorem FlightInv.later (inv : FlightInv trace s) (event : FlightEvent τ ν ε) :
    FlightInv (trace ++ [event]) s where
  owned := inv.owned
  unsettled := inv.unsettled
  uncancelled := inv.uncancelled
  attended := inv.attended
  called task key running := (inv.called task key running).later event
  joined task key owner waiting :=
    (inv.joined task key owner waiting).imp (·.later event) (·.later event)
  ended owner outcome settled := (inv.ended owner outcome settled).later event
  stored key entry value found same := by
    obtain ⟨owner, called, ended⟩ := inv.stored key entry value found same
    exact ⟨owner, called.later event, ended.later event⟩
  served task flight outcome done unflagged :=
    (inv.served task flight outcome done unflagged).later event

theorem FlightInv.singleFlight (inv : FlightInv trace s) : SingleFlight trace s where
  oneFactory key one other first second :=
    Option.some.inj (((inv.owned key one).mpr first).symm.trans ((inv.owned key other).mpr second))
  served := inv.served
  attended task key owner waiting := (inv.attended task key owner waiting).2

theorem FlightInv.read (inv : FlightInv trace s) (key : String) (now : ℚ) :
    FlightInv trace { s with cache := (s.cache.get key now).1 } :=
  { inv with
    stored := fun other entry value found same =>
      inv.stored other entry value (AsyncResponseCache.get?_get found) same }

theorem FlightInv.store (inv : FlightInv trace s) (key : String) (value : Option ν) (now : ℚ)
    (stored : ∃ owner, Called trace owner key ∧ Ended trace owner (.returned value)) :
    FlightInv trace { s with cache := (s.cache.set key value none now).1 } :=
  { inv with
    stored := by
      intro other entry present found same
      obtain ⟨rfl, written⟩ | old := AsyncResponseCache.get?_set found
      · rw [← same, written]
        exact stored
      · exact inv.stored other entry present old same }

theorem FlightInv.init {cache : AsyncResponseCache ν}
    (unfilled : ∀ key, cache.entries.get? key = none) :
    FlightInv ([] : List (FlightEvent τ ν ε)) (Flights.init cache) := by
  constructor <;> simp [Flights.init, awaited, unfilled]

end Traces

/-! ## Every step keeps the invariant -/

section Steps
variable [DecidableEq τ] {trace : List (FlightEvent τ ν ε)} {s : Flights τ ν ε}

theorem FlightInv.flag (inv : FlightInv trace s) (task : τ) :
    FlightInv trace { s with cancelRequested := Function.update s.cancelRequested task true } :=
  { inv with
    served := by
      intro other flight outcome done unflagged
      by_cases same : other = task
      · simp [same] at unflagged
      · simp only [Function.update_of_ne same] at unflagged
        exact inv.served other flight outcome done unflagged }

theorem FlightInv.move (inv : FlightInv trace s) {task : τ} {caller : Caller τ ν ε}
    (idle : ∀ key, s.callers task ≠ .running key) (begun : caller ≠ .fresh)
    (still : ∀ key, caller ≠ .running key)
    (joins : ∀ key owner, caller = .waiting key owner →
      s.inflight key = some owner ∧ Called trace task key)
    (ends : ∀ flight outcome, caller = .done flight outcome →
      s.cancelRequested task = false → Served trace task flight outcome) :
    FlightInv trace (s.setCaller task caller) := by
  have others : ∀ owner key, (s.setCaller task caller).callers owner = .running key ↔
      s.callers owner = .running key := by
    intro owner key
    by_cases own : owner = task
    · simp [Flights.setCaller, own, idle key, still key]
    · simp [Flights.setCaller, own]
  exact { inv with
    owned := by
      intro key owner
      rw [others]
      exact inv.owned key owner
    unsettled := by
      intro owner key running
      exact inv.unsettled owner key ((others owner key).mp running)
    attended := by
      intro other key owner waiting
      have attended : s.callers owner ≠ .fresh ∧
          ((s.future owner).done = true ∨ s.callers owner = .running key) := by
        by_cases own : other = task
        · simp only [own, Flights.setCaller, Function.update_self] at waiting
          have running := (inv.owned key owner).mp (joins key owner waiting).1
          exact ⟨by simp [running], Or.inr running⟩
        · simp only [Flights.setCaller, Function.update_of_ne own] at waiting
          exact inv.attended other key owner waiting
      refine ⟨?_, attended.2.imp_right (others owner key).mpr⟩
      by_cases own : owner = task
      · simpa [Flights.setCaller, own] using begun
      · simpa [Flights.setCaller, own] using attended.1
    called := by
      intro owner key running
      exact inv.called owner key ((others owner key).mp running)
    joined := by
      intro other key owner waiting
      by_cases own : other = task
      · simp only [own, Flights.setCaller, Function.update_self] at waiting
        obtain ⟨flown, called⟩ := joins key owner waiting
        exact ⟨own ▸ called, inv.called owner key ((inv.owned key owner).mp flown)⟩
      · simp only [Flights.setCaller, Function.update_of_ne own] at waiting
        exact inv.joined other key owner waiting
    served := by
      intro other flight outcome done unflagged
      by_cases own : other = task
      · simp only [own, Flights.setCaller, Function.update_self] at done unflagged
        exact own ▸ ends flight outcome done unflagged
      · simp only [Flights.setCaller, Function.update_of_ne own] at done
        exact inv.served other flight outcome done unflagged }

theorem FlightInv.finish (inv : FlightInv trace s) {task : τ} {flight : Option τ}
    {outcome : Outcome ν ε} (idle : ∀ key, s.callers task ≠ .running key)
    (served : s.cancelRequested task = false → Served trace task flight outcome) :
    FlightInv trace (s.setCaller task (.done flight outcome)) := by
  refine inv.move idle (by simp) (by simp) (by simp) ?_
  intro own result same unflagged
  obtain ⟨rfl, rfl⟩ := Caller.done.inj same
  exact served unflagged

theorem FlightInv.join (inv : FlightInv trace s) {task owner : τ} {key : String}
    (fresh : s.callers task = .fresh) (flown : s.inflight key = some owner)
    (called : Called trace task key) :
    FlightInv trace (s.setCaller task (.waiting key owner)) := by
  refine inv.move (by simp [fresh]) (by simp) (by simp) ?_ (by simp)
  intro own flight same
  obtain ⟨rfl, rfl⟩ := Caller.waiting.inj same
  exact ⟨flown, called⟩

theorem FlightInv.own (inv : FlightInv trace s) {task : τ} {key : String}
    (fresh : s.callers task = .fresh) (free : s.inflight key = none)
    (called : Called trace task key) :
    FlightInv trace (((s.setInflight key (some task)).setFuture task .pending).setCaller task
      (.running key)) := by
  have unowned : ∀ owner, s.callers owner ≠ .running key := by
    intro owner running
    simp [(inv.owned key owner).mpr running] at free
  simp only [Flights.setCaller, Flights.setFuture, Flights.setInflight]
  exact { inv with
    owned := by
      intro other owner
      have owned := inv.owned other owner
      have absent := unowned owner
      grind [Function.update_apply]
    unsettled := by
      intro owner other running
      by_cases own : owner = task
      · simp [own]
      · simp only [Function.update_of_ne own] at running ⊢
        exact inv.unsettled owner other running
    uncancelled := by
      intro owner
      by_cases own : owner = task
      · simp [own]
      · simpa [own] using inv.uncancelled owner
    attended := by
      intro other k owner waiting
      have attended := inv.attended other k owner
      grind [Function.update_apply]
    called := by
      intro owner other running
      by_cases own : owner = task
      · subst own
        obtain rfl : key = other := by simpa using running
        exact called
      · simp only [Function.update_of_ne own] at running
        exact inv.called owner other running
    joined := by
      intro other k owner waiting
      have different : other ≠ task := fun own => by simp [own] at waiting
      simp only [Function.update_of_ne different] at waiting
      exact inv.joined other k owner waiting
    ended := by
      intro owner outcome settled
      have different : owner ≠ task := fun own => by simp [own, awaited] at settled
      simp only [Function.update_of_ne different] at settled
      exact inv.ended owner outcome settled
    served := by
      intro other flight outcome done unflagged
      have different : other ≠ task := fun own => by simp [own] at done
      simp only [Function.update_of_ne different] at done
      exact inv.served other flight outcome done unflagged }

theorem FlightInv.land (inv : FlightInv trace s) {task : τ} {key : String} {outcome : Outcome ν ε}
    {future : Future (Option ν) ε} (running : s.callers task = .running key)
    (attended : future = .pending → ∀ other k, s.callers other ≠ .waiting k task)
    (result : ∀ settled, awaited future = some settled → Ended trace task settled)
    (uncancelled : future ≠ .cancelled)
    (served : s.cancelRequested task = false → Ended trace task outcome) :
    FlightInv trace (((s.setFuture task future).setCaller task
      (.done (some task) outcome)).setInflight key none) := by
  have only := inv.singleFlight.oneFactory key task
  simp only [Flights.setCaller, Flights.setFuture, Flights.setInflight]
  exact { inv with
    owned := by
      intro other owner
      have owned := inv.owned other owner
      have same := only owner running
      grind [Function.update_apply]
    unsettled := by
      intro owner other flying
      have different : owner ≠ task := fun own => by simp [own] at flying
      simp only [Function.update_of_ne different] at flying ⊢
      exact inv.unsettled owner other flying
    uncancelled := by
      intro owner
      by_cases own : owner = task
      · simpa [own] using uncancelled
      · simpa [own] using inv.uncancelled owner
    attended := by
      intro other k owner waiting
      have before := inv.attended other k owner
      grind [Function.update_apply, Future.done]
    called := by
      intro owner other flying
      have different : owner ≠ task := fun own => by simp [own] at flying
      simp only [Function.update_of_ne different] at flying
      exact inv.called owner other flying
    joined := by
      intro other k owner waiting
      have different : other ≠ task := fun own => by simp [own] at waiting
      simp only [Function.update_of_ne different] at waiting
      exact inv.joined other k owner waiting
    ended := by
      intro owner settled same
      by_cases own : owner = task
      · subst own
        exact result settled (by simpa using same)
      · simp only [Function.update_of_ne own] at same
        exact inv.ended owner settled same
    served := by
      intro other flight settled done unflagged
      by_cases own : other = task
      · subst own
        simp only [Function.update_self, Caller.done.injEq] at done
        obtain ⟨rfl, rfl⟩ := done
        have called := inv.called other key running
        exact ⟨key, other, called, called, served unflagged, Or.inl rfl⟩
      · simp only [Function.update_of_ne own] at done
        exact inv.served other flight settled done unflagged }

theorem run_of_foldlM {t : Flights τ ν ε} (folded : trace.foldlM Flights.next s = some t) :
    Run flightStep s trace t :=
  Run.of_foldlM folded

theorem FlightInv.call (inv : FlightInv trace s) {task : τ} (key : String) (now : ℚ)
    (fresh : s.callers task = .fresh) :
    FlightInv (trace ++ [.call task key now]) (s.call task key now) := by
  have called : Called (trace ++ [.call task key now]) task key := Called.last task key now
  have read := (inv.later (.call task key now)).read key now
  unfold Flights.call
  rcases answer : s.cache.get key now with ⟨cache, _ | value⟩
  · simp only [answer] at read ⊢
    cases flown : s.inflight key with
    | none => exact read.own fresh flown called
    | some owner =>
        have pending := inv.unsettled owner key ((inv.owned key owner).mp flown)
        simp only [pending, awaited]
        exact read.join fresh flown called
  · simp only [answer] at read ⊢
    refine read.finish (by simp [fresh]) fun _ => ?_
    obtain ⟨entry, present, same⟩ := AsyncResponseCache.get_eq_some (congrArg Prod.snd answer)
    obtain ⟨owner, starter, ended⟩ := inv.stored key entry value present same
    exact ⟨key, owner, called, starter.later _, ended.later _, Or.inr ⟨rfl, value, rfl⟩⟩

theorem FlightInv.settle (inv : FlightInv trace s) {task : τ} {key : String}
    {result : FactoryOutcome ν ε} (now : ℚ) (running : s.callers task = .running key)
    (unattended : result = .cancelled → ∀ other k, s.callers other ≠ .waiting k task)
    (requested : result = .cancelled → s.cancelRequested task = true) :
    FlightInv (trace ++ [.settle task result now]) (s.settle task key result now) := by
  have pending := inv.unsettled task key running
  have past := inv.later (.settle task result now)
  cases result with
  | returned value =>
      have ended : Ended (trace ++ [.settle task (.returned value) now]) task
        (.returned value) := Ended.last task now (by simp)
      have called := past.called task key running
      simp only [Flights.settle, pending, Future.setResult]
      refine (past.store key value now ⟨task, called, ended⟩).land running (by simp)
        ?_ (by simp) fun _ => ended
      intro settled same
      obtain rfl : Outcome.returned value = settled := Option.some.inj same
      exact ended
  | raised error =>
      have ended : Ended (trace ++ [.settle task (.raised error) now]) task
        (.raised error) := Ended.last task now (by simp)
      simp only [Flights.settle, pending, Future.setException]
      refine past.land running (by simp) ?_ (by simp) fun _ => ended
      intro settled same
      obtain rfl : Outcome.raised error = settled := Option.some.inj same
      exact ended
  | cancelled =>
      have unchanged : s.setFuture task (s.future task) = s := by simp [Flights.setFuture]
      have landed : FlightInv (trace ++ [.settle task .cancelled now])
          (((s.setFuture task (s.future task)).setCaller task
            (.done (some task) .cancelled)).setInflight key none) :=
        past.land running (fun _ => unattended rfl) (past.ended task) (past.uncancelled task)
          (by simp [requested rfl])
      rwa [unchanged] at landed

theorem FlightInv.cancel (inv : FlightInv trace s) (task : τ)
    (undisturbed : ∀ key owner, s.callers task = .waiting key owner →
      (s.future owner).done = true) :
    FlightInv (trace ++ [.cancel task]) (s.cancel task) := by
  have flagged := (inv.later (.cancel task)).flag task
  unfold Flights.cancel
  cases caller : s.callers task with
  | fresh => exact flagged.finish (by simp [caller]) (by simp)
  | running key => exact flagged
  | waiting key owner =>
      have settled := Future.cancel_of_done (undisturbed key owner caller)
      simpa [settled, Flights.setFuture] using flagged
  | done flight outcome => exact inv.later _

theorem FlightInv.wake (inv : FlightInv trace s) {task owner : τ} {key : String}
    {outcome : Outcome ν ε} (waiting : s.callers task = .waiting key owner)
    (settled : awaited (s.future owner) = some outcome) :
    FlightInv (trace ++ [.wake task]) (s.setCaller task (.done (some owner)
      (if s.cancelRequested task then .cancelled else outcome))) := by
  have past := inv.later (.wake task)
  refine past.finish (by simp [waiting]) fun unflagged => ?_
  rw [if_neg (by simp [unflagged])]
  obtain ⟨caller, starter⟩ := past.joined task key owner waiting
  exact ⟨key, owner, caller, starter, past.ended owner outcome settled, Or.inl rfl⟩

theorem FlightInv.step {event : FlightEvent τ ν ε} {t : Flights τ ν ε} (inv : FlightInv trace s)
    (undisturbed : Undisturbed s event) (fired : flightStep s event t) :
    FlightInv (trace ++ [event]) t := by
  unfold flightStep Flights.next at fired
  cases event with
  | call task key now =>
      cases caller : s.callers task with
      | fresh =>
          simp only [caller, Option.some.injEq] at fired
          exact fired ▸ inv.call key now caller
      | running _ | waiting _ _ | done _ _ => simp [caller] at fired
  | settle task result now =>
      cases caller : s.callers task with
      | running key =>
          cases result with
          | returned _ | raised _ =>
              simp only [caller, Option.some.injEq] at fired
              exact fired ▸ inv.settle now caller (by simp) (by simp)
          | cancelled =>
              simp only [caller, Option.ite_none_right_eq_some, Option.some.injEq] at fired
              exact fired.2 ▸ inv.settle now caller (fun _ => undisturbed) fun _ => fired.1
      | fresh | waiting _ _ | done _ _ => simp [caller] at fired
  | cancel task =>
      simp only [Option.some.injEq] at fired
      exact fired ▸ inv.cancel task undisturbed
  | wake task =>
      cases caller : s.callers task with
      | waiting key owner =>
          simp only [caller, Option.map_eq_some_iff] at fired
          obtain ⟨outcome, settled, rfl⟩ := fired
          exact inv.wake caller settled
      | fresh | running _ | done _ _ => simp [caller] at fired

/-- In every run that disturbs nobody, a key has at most one factory in flight,
every caller that is not cancelled ends as a factory for its key did, and nobody
waits on a future whose owner has gone. -/
theorem undisturbed_single_flight {maxEntries : ℤ} {ttl : ℚ} {cache : AsyncResponseCache ν}
    {trace : List (FlightEvent τ ν ε)}
    (created : AsyncResponseCache.create maxEntries ttl = .ok cache)
    (run : Run (Guarded Undisturbed flightStep) (Flights.init cache) trace s) :
    SingleFlight trace s := by
  have start := FlightInv.init (τ := τ) (ε := ε) (AsyncResponseCache.get?_create created)
  refine (run.trace_invariant (motive := FlightInv) start ?_).singleFlight
  intro past a event b inv fired
  exact inv.step fired.1 fired.2

end Steps

def responses : AsyncResponseCache String where
  maxEntries := 512
  ttl := 300
  maxEntriesPositive := by decide
  ttlPositive := by decide

def sharedFlight : List (FlightEvent ℕ String String) :=
  [.call 0 "key" 0, .call 1 "key" 0, .settle 0 (.returned (some "value")) 1, .wake 1]

theorem undisturbed_single_flight_shared :
    ∃ s, s.callers 1 = .done (some 0) (.returned (some "value")) ∧ SingleFlight sharedFlight s := by
  have run : ∃ s, Run flightStep (Flights.init responses) sharedFlight s ∧
      s.callers 1 = .done (some 0) (.returned (some "value")) :=
    ⟨_, run_of_foldlM rfl, rfl⟩
  obtain ⟨s, run, joined⟩ := run
  have created : AsyncResponseCache.create 512 300 = .ok responses := rfl
  refine ⟨s, joined, undisturbed_single_flight created (run.guarded ?_)⟩
  simp [sharedFlight, Undisturbed]

/-- Tasks 0, 1 and 2 share the flight of task 0, and task 1 is cancelled. -/
def cancelledWaiter : List (FlightEvent ℕ String String) :=
  [.call 0 "key" 0, .call 1 "key" 0, .call 2 "key" 0, .cancel 1,
    .settle 0 (.returned (some "value")) 1, .wake 2]

def cancelledOwner : List (FlightEvent ℕ String String) :=
  [.call 0 "key" 0, .call 1 "key" 0, .cancel 0, .settle 0 .cancelled 1]

/-- A cancelled waiter takes the other callers along, and the waiters of a
cancelled owner are left alone with a future that stays pending. -/
theorem cancellation_crosses_flights :
    AsyncResponseCache.create 512 300 = .ok responses ∧
      (∃ s, Run flightStep (Flights.init responses) cancelledWaiter s ∧
        (s.callers 0 = .done (some 0) .invalidState ∧ s.cancelRequested 0 = false) ∧
        (s.callers 2 = .done (some 0) .cancelled ∧ s.cancelRequested 2 = false) ∧
        ¬ SingleFlight cancelledWaiter s) ∧
      ∃ s, Run flightStep (Flights.init responses) cancelledOwner s ∧
        (s.callers 1 = .waiting "key" 0 ∧ s.cancelRequested 1 = false) ∧
        (s.callers 0 = .done (some 0) .cancelled ∧ s.future 0 = .pending) ∧
        ¬ SingleFlight cancelledOwner s := by
  refine ⟨rfl, ⟨_, run_of_foldlM rfl, ⟨rfl, rfl⟩, ⟨rfl, rfl⟩, ?_⟩,
    ⟨_, run_of_foldlM rfl, ⟨rfl, rfl⟩, ⟨rfl, rfl⟩, ?_⟩⟩
  · intro law
    exact (law.served 0 (some 0) .invalidState rfl rfl).outcome_ne.2 rfl
  · intro law
    rcases law.attended 1 "key" 0 rfl with settled | running
    · cases settled
    · cases running

end Eis.Performance
