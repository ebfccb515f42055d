import Eis.Performance.SingleFlight

/-!
# Memoized values

`get_or_set` in sequential use, next to `get`, `set` and `clear`.  A factory may use the
cache itself before it ends, so the calls that have not returned are a stack.
-/

set_option autoImplicit false

namespace Eis.Performance

open Transition

variable {ν : Type}

/-- What `get_or_set` returns without its factory: `if cached is not None`. -/
def AsyncResponseCache.served (cache : AsyncResponseCache ν) (key : String) (now : ℚ) :
    Option (Option ν) :=
  (cache.get key now).2.map some

/-- How a factory ends; what it raises goes out of the call. -/
inductive FactoryEnd (ν : Type) where
  | returned (value : Option ν)
  | raised

/-- `flights` are the keys whose factories run, the innermost first. -/
structure CacheSession (ν : Type) where
  cache : AsyncResponseCache ν
  flights : List String := []

/-- Calls with the readings of the clock.  `getOrSet` goes up to the factory or returns
without it, and `settle` is the end of the innermost factory. -/
inductive SessionEvent (ν : Type) where
  | get (key : String) (now : ℚ)
  | set (key : String) (value : Option ν) (ttlSeconds : Option ℚ) (now : ℚ)
  | clear
  | getOrSet (key : String) (cacheable : Bool) (now : ℚ)
  | settle (outcome : FactoryEnd ν) (now : ℚ)

namespace CacheSession

/-- A factory that asks for its own key waits for itself. -/
def next (s : CacheSession ν) : SessionEvent ν → Option (CacheSession ν)
  | .get key now => some { s with cache := (s.cache.get key now).1 }
  | .set key value ttlSeconds now =>
      some { s with cache := (s.cache.set key value ttlSeconds now).1 }
  | .clear => some { s with cache := s.cache.clear }
  | .getOrSet _ false _ => some s
  | .getOrSet key true now =>
      match s.cache.served key now with
      | some _ => some { s with cache := (s.cache.get key now).1 }
      | none =>
          if key ∈ s.flights then none
          else some ⟨(s.cache.get key now).1, key :: s.flights⟩
  | .settle outcome now =>
      match s.flights with
      | [] => none
      | key :: rest =>
          match outcome with
          | .returned value => some ⟨(s.cache.set key value none now).1, rest⟩
          | .raised => some { s with flights := rest }

end CacheSession

def sessionStep (s : CacheSession ν) (event : SessionEvent ν) (t : CacheSession ν) : Prop :=
  s.next event = some t

/-! ## Returned values and their entries -/

inductive ReturnsValue (s : CacheSession ν) (key : String) (value : Option ν) :
    SessionEvent ν → Prop where
  | served {now : ℚ} (found : s.cache.served key now = some value) :
      ReturnsValue s key value (.getOrSet key true now)
  | made {now : ℚ} {rest : List String} (own : s.flights = key :: rest) :
      ReturnsValue s key value (.settle (.returned value) now)

/-- `event` leaves the entry of the key alone: it neither clears the cache nor evicts or
writes that key, and the clock reads a time before the entry expires. -/
def Leaves (key : String) (entry : Entry ν) (s : CacheSession ν) : SessionEvent ν → Prop
  | .get _ now => now < entry.expiresAt
  | .set other value ttlSeconds now =>
      other ≠ key ∧ key ∉ (s.cache.set other value ttlSeconds now).2 ∧ now < entry.expiresAt
  | .clear => False
  | .getOrSet _ _ now => now < entry.expiresAt
  | .settle .raised now => now < entry.expiresAt
  | .settle (.returned value) now =>
      (∀ other rest, s.flights = other :: rest →
        other ≠ key ∧ key ∉ (s.cache.set other value none now).2) ∧ now < entry.expiresAt

namespace AsyncResponseCache

variable {cache : AsyncResponseCache ν} {key : String} {entry : Entry ν}

theorem served_of_live {now : ℚ} (found : cache.entries.get? key = some entry)
    (unexpired : now < entry.expiresAt) : cache.served key now = entry.value.map some := by
  unfold served
  obtain ⟨absent, _⟩ | ⟨own, present, expired, _⟩ | ⟨own, present, _, hit⟩ :=
    cache.get_cases key now
  · rw [found] at absent
    cases absent
  · obtain rfl := Option.some.inj (found.symm.trans present)
    exact absurd unexpired (not_lt.mpr expired)
  · obtain rfl := Option.some.inj (found.symm.trans present)
    rw [hit]

theorem get?_get_of_live (found : cache.entries.get? key = some entry) {now : ℚ}
    (unexpired : now < entry.expiresAt) (other : String) :
    (cache.get other now).1.entries.get? key = some entry := by
  obtain ⟨_, missed⟩ | ⟨own, present, expired, dropped⟩ | ⟨own, present, _, hit⟩ :=
    cache.get_cases other now
  · rw [missed]
    exact found
  · rw [dropped]
    simp only [OrderedDict.get?_pop]
    split
    · rename_i same
      subst same
      obtain rfl := Option.some.inj (found.symm.trans present)
      exact absurd unexpired (not_lt.mpr expired)
    · exact found
  · rw [hit]
    simp only [OrderedDict.get?_putLast]
    split
    · rename_i same
      subst same
      exact present.symm.trans found
    · exact found

theorem get?_set_of_ne (found : cache.entries.get? key = some entry) {other : String}
    {value : Option ν} {ttlSeconds : Option ℚ} {now : ℚ} (different : other ≠ key)
    (kept : key ∉ (cache.set other value ttlSeconds now).2) :
    (cache.set other value ttlSeconds now).1.entries.get? key = some entry := by
  rcases trimmed : (cache.entries.putLast other
    ⟨value, now + lifetime cache.ttl ttlSeconds⟩).trim cache.maxEntries with ⟨evicted, entries⟩
  have stays := (cache.entries.putLast other
    ⟨value, now + lifetime cache.ttl ttlSeconds⟩).get?_trim cache.maxEntries key
  rw [set_eq cache other value ttlSeconds now trimmed] at kept ⊢
  rw [trimmed, OrderedDict.get?_putLast, if_neg kept, if_neg different.symm] at stays
  exact stays.trans found

theorem get?_set_self (cache : AsyncResponseCache ν) (key : String) (value : Option ν)
    (ttlSeconds : Option ℚ) (now : ℚ) :
    (cache.set key value ttlSeconds now).1.entries.get? key =
      some ⟨value, now + lifetime cache.ttl ttlSeconds⟩ := by
  rcases trimmed : (cache.entries.putLast key
    ⟨value, now + lifetime cache.ttl ttlSeconds⟩).trim cache.maxEntries with ⟨evicted, entries⟩
  have stays := cache.entries.get?_trim_putLast key
    ⟨value, now + lifetime cache.ttl ttlSeconds⟩ cache.maxEntriesPositive
  rw [set_eq cache key value ttlSeconds now trimmed]
  rwa [trimmed] at stays

end AsyncResponseCache

variable {s t : CacheSession ν} {key : String} {value : Option ν} {entry : Entry ν}
variable {event : SessionEvent ν}

theorem ReturnsValue.stored (returned : ReturnsValue s key value event)
    (fired : sessionStep s event t) :
    ∃ entry, t.cache.entries.get? key = some entry ∧ entry.value = value := by
  unfold sessionStep CacheSession.next at fired
  cases returned with
  | @served now found =>
      simp only [found] at fired
      obtain rfl := Option.some.inj fired
      unfold AsyncResponseCache.served at found
      obtain ⟨_, missed⟩ | ⟨_, _, _, dropped⟩ | ⟨own, present, _, hit⟩ :=
        s.cache.get_cases key now
      · simp [missed] at found
      · simp [dropped] at found
      · rw [hit] at found ⊢
        obtain ⟨stored, same, rfl⟩ := Option.map_eq_some_iff.mp found
        refine ⟨own, ?_, same⟩
        rw [OrderedDict.get?_putLast, if_pos rfl]
  | made own =>
      simp only [own] at fired
      obtain rfl := Option.some.inj fired
      exact ⟨_, s.cache.get?_set_self key value none _, rfl⟩

theorem Leaves.step (found : s.cache.entries.get? key = some entry)
    (leaves : Leaves key entry s event) (fired : sessionStep s event t) :
    t.cache.entries.get? key = some entry := by
  unfold sessionStep CacheSession.next at fired
  cases event with
  | get other now =>
      obtain rfl := Option.some.inj fired
      exact AsyncResponseCache.get?_get_of_live found leaves other
  | set other value ttlSeconds now =>
      obtain rfl := Option.some.inj fired
      exact AsyncResponseCache.get?_set_of_ne found leaves.1 leaves.2.1
  | clear => exact leaves.elim
  | getOrSet other cacheable now =>
      have kept := AsyncResponseCache.get?_get_of_live found leaves other
      cases cacheable with
      | false =>
          obtain rfl := Option.some.inj fired
          exact found
      | true =>
          simp only at fired
          split at fired
          · obtain rfl := Option.some.inj fired
            exact kept
          · obtain ⟨_, same⟩ := Option.ite_none_left_eq_some.mp fired
            obtain rfl := Option.some.inj same
            exact kept
  | settle outcome now =>
      simp only at fired
      split at fired
      · cases fired
      · rename_i other rest open_
        cases outcome with
        | returned value =>
            obtain rfl := Option.some.inj fired
            obtain ⟨different, kept⟩ := leaves.1 other rest open_
            exact AsyncResponseCache.get?_set_of_ne found different kept
        | raised =>
            obtain rfl := Option.some.inj fired
            exact found

theorem stored_of_run {later : List (SessionEvent ν)}
    (found : s.cache.entries.get? key = some entry)
    (run : Run (Guarded (Leaves key entry) sessionStep) s later t) :
    t.cache.entries.get? key = some entry :=
  run.invariant (motive := fun u => u.cache.entries.get? key = some entry) found
    fun _ _ _ kept fired => fired.1.step kept fired.2

/-- For every key and value, after a `get_or_set` that returned the value: while its entry
stays, each later one returns it without its factory exactly when the value is not `None`. -/
theorem memoized_iff (returned : ReturnsValue s key value event)
    (fired : sessionStep s event t) :
    ∃ entry, t.cache.entries.get? key = some entry ∧ entry.value = value ∧
      ∀ later u, Run (Guarded (Leaves key entry) sessionStep) t later u →
        ∀ now, now < entry.expiresAt →
          (u.cache.served key now = some value ↔ value ≠ none) := by
  obtain ⟨entry, stored, same⟩ := returned.stored fired
  refine ⟨entry, stored, same, ?_⟩
  intro later u run now unexpired
  rw [AsyncResponseCache.served_of_live (stored_of_run stored run) unexpired, same]
  cases value <;> simp

theorem session_of_foldlM {events : List (SessionEvent ν)}
    (folded : events.foldlM CacheSession.next s = some t) : Run sessionStep s events t :=
  Run.of_foldlM folded

/-! ### A value that is `None` -/

def running : CacheSession String := ⟨(responses.get "answer" 0).1, ["answer"]⟩

def answered (value : Option String) : CacheSession String :=
  ⟨(running.cache.set "answer" value none 0).1, []⟩

theorem returns_answer (value : Option String) :
    ReturnsValue running "answer" value (.settle (.returned value) 0) := .made rfl

theorem memoized_answer :
    ∃ entry, (answered (some "42")).cache.entries.get? "answer" = some entry ∧
      entry.value = some "42" ∧ ∀ later u,
        Run (Guarded (Leaves "answer" entry) sessionStep) (answered (some "42")) later u →
          ∀ now, now < entry.expiresAt →
            (u.cache.served "answer" now = some (some "42") ↔ some "42" ≠ none) :=
  memoized_iff (returns_answer (some "42")) rfl

/-- The factory returned `None`, which is stored for 300 seconds and counts as a hit when it
is read; the next call runs its factory all the same. -/
theorem none_not_memoized :
    Run sessionStep ⟨responses, []⟩ [.getOrSet "answer" true 0, .settle (.returned none) 0]
        (answered none) ∧
      ReturnsValue running "answer" none (.settle (.returned none) 0) ∧
      (answered none).cache.entries.get? "answer" = some ⟨none, 0 + 300⟩ ∧
      ((answered none).cache.get "answer" 1).1.hits = (answered none).cache.hits + 1 ∧
      (answered none).cache.served "answer" 1 ≠ some none ∧
      ∃ u, sessionStep (answered none) (.getOrSet "answer" true 1) u ∧
        u.flights = ["answer"] := by
  have stored : (answered none).cache.entries.get? "answer" = some ⟨none, 0 + 300⟩ :=
    running.cache.get?_set_self "answer" none none 0
  have unserved : (answered none).cache.served "answer" 1 = none :=
    AsyncResponseCache.served_of_live stored (by decide +kernel)
  have step : (answered none).next (.getOrSet "answer" true 1) =
      some ⟨((answered none).cache.get "answer" 1).1, ["answer"]⟩ := by
    simp only [CacheSession.next, unserved]
    rfl
  refine ⟨session_of_foldlM rfl, returns_answer none, stored, by decide +kernel, ?_, _, step, rfl⟩
  rw [unserved]
  exact (Option.some_ne_none none).symm

end Eis.Performance
