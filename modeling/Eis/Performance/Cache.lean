import Mathlib.Algebra.Order.Ring.Rat
import Eis.Foundation.OrderedDict

/-!
# The response cache

`AsyncResponseCache` without its single flight.  The lock guards code that never
awaits, so it is free whenever a task asks for it and every call is one step.
A cached value is an `Option`: `T` may be a type with `None`, and `get` answers
`None` for a miss too.
-/

set_option autoImplicit false

namespace Eis.Performance

structure CacheStats where
  hits : ℕ := 0
  misses : ℕ := 0
  stores : ℕ := 0
  evictions : ℕ := 0
deriving DecidableEq

structure Entry (ν : Type) where
  value : Option ν
  expiresAt : ℚ

structure AsyncResponseCache (ν : Type) where
  maxEntries : ℕ
  ttl : ℚ
  maxEntriesPositive : 1 ≤ maxEntries
  ttlPositive : 0 < ttl
  entries : OrderedDict String (Entry ν) := Table.empty
  hits : ℕ := 0
  misses : ℕ := 0
  stores : ℕ := 0
  evictions : ℕ := 0

namespace AsyncResponseCache

variable {ν : Type}

def create (maxEntries : ℤ := 512) (ttlSeconds : ℚ := 300) :
    Except String (AsyncResponseCache ν) :=
  if valid : 1 ≤ maxEntries ∧ 0 < ttlSeconds then
    .ok
      { maxEntries := maxEntries.toNat
        ttl := ttlSeconds
        maxEntriesPositive := by omega
        ttlPositive := valid.2 }
  else .error "max_entries must be positive and ttl_seconds must be positive"

def get (cache : AsyncResponseCache ν) (key : String) (now : ℚ) :
    AsyncResponseCache ν × Option ν :=
  match cache.entries.get? key with
  | none => ({ cache with misses := cache.misses + 1 }, none)
  | some entry =>
      if entry.expiresAt ≤ now then
        ({ cache with
          entries := cache.entries.pop key
          misses := cache.misses + 1 }, none)
      else
        ({ cache with
          entries := cache.entries.moveToEnd key
          hits := cache.hits + 1 }, entry.value)

/-- `ttl_seconds or self._ttl` -/
def lifetime (ttl : ℚ) (ttlSeconds : Option ℚ) : ℚ :=
  match ttlSeconds with
  | none => ttl
  | some seconds => if seconds = 0 then ttl else seconds

/-- The new cache, and the keys that the loop at the end of `set` evicts. -/
def set (cache : AsyncResponseCache ν) (key : String) (value : Option ν)
    (ttlSeconds : Option ℚ) (now : ℚ) : AsyncResponseCache ν × List String :=
  match ((cache.entries.setItem key ⟨value, now + lifetime cache.ttl ttlSeconds⟩).moveToEnd
    key).trim cache.maxEntries with
  | (evicted, entries) =>
      ({ cache with
        entries := entries
        stores := cache.stores + 1
        evictions := cache.evictions + evicted.length }, evicted.map Prod.fst)

def clear (cache : AsyncResponseCache ν) : AsyncResponseCache ν :=
  { cache with entries := Table.empty }

def stats (cache : AsyncResponseCache ν) : CacheStats :=
  ⟨cache.hits, cache.misses, cache.stores, cache.evictions⟩

/-! ## Calls -/

inductive CacheCall (ν : Type) where
  | get (key : String)
  | set (key : String) (value : Option ν) (ttlSeconds : Option ℚ)
  | clear

def CacheCall.isGet : CacheCall ν → Bool
  | .get _ => true
  | _ => false

/-- A call with its clock reading, what it returned and what it evicted. -/
structure Exchange (ν : Type) where
  call : CacheCall ν
  now : ℚ
  reply : Option ν
  evicted : List String

def apply (cache : AsyncResponseCache ν) (call : CacheCall ν) (now : ℚ) :
    AsyncResponseCache ν × Option ν × List String :=
  match call with
  | .get key => ((cache.get key now).1, (cache.get key now).2, [])
  | .set key value ttlSeconds =>
      ((cache.set key value ttlSeconds now).1, none, (cache.set key value ttlSeconds now).2)
  | .clear => (cache.clear, none, [])

def cacheStep (cache : AsyncResponseCache ν) (exchange : Exchange ν)
    (next : AsyncResponseCache ν) : Prop :=
  cache.apply exchange.call exchange.now = (next, exchange.reply, exchange.evicted)

/-! ## What the calls do to the entries -/

theorem get_cases (cache : AsyncResponseCache ν) (key : String) (now : ℚ) :
    (cache.entries.get? key = none ∧
        cache.get key now = ({ cache with misses := cache.misses + 1 }, none)) ∨
      (∃ entry, cache.entries.get? key = some entry ∧ entry.expiresAt ≤ now ∧
        cache.get key now = ({ cache with
          entries := cache.entries.pop key
          misses := cache.misses + 1 }, none)) ∨
      ∃ entry, cache.entries.get? key = some entry ∧ now < entry.expiresAt ∧
        cache.get key now = ({ cache with
          entries := cache.entries.putLast key entry
          hits := cache.hits + 1 }, entry.value) := by
  unfold get
  cases found : cache.entries.get? key with
  | none => exact Or.inl ⟨rfl, rfl⟩
  | some entry =>
      by_cases expired : entry.expiresAt ≤ now
      · exact Or.inr (Or.inl ⟨entry, rfl, expired, by simp [expired]⟩)
      · refine Or.inr (Or.inr ⟨entry, rfl, not_le.mp expired, ?_⟩)
        simp [expired, OrderedDict.moveToEnd, found]

theorem set_eq (cache : AsyncResponseCache ν) (key : String) (value : Option ν)
    (ttlSeconds : Option ℚ) (now : ℚ) {evicted : List (String × Entry ν)}
    {entries : OrderedDict String (Entry ν)}
    (trimmed : (cache.entries.putLast key
      ⟨value, now + lifetime cache.ttl ttlSeconds⟩).trim cache.maxEntries = (evicted, entries)) :
    cache.set key value ttlSeconds now =
      ({ cache with
        entries := entries
        stores := cache.stores + 1
        evictions := cache.evictions + evicted.length }, evicted.map Prod.fst) := by
  unfold set
  rw [OrderedDict.moveToEnd_setItem, trimmed]

theorem get?_create {maxEntries : ℤ} {ttl : ℚ} {cache : AsyncResponseCache ν}
    (created : create maxEntries ttl = .ok cache) (key : String) :
    cache.entries.get? key = none := by
  unfold create at created
  split at created
  · cases created
    rfl
  · cases created

theorem get?_get {cache : AsyncResponseCache ν} {key other : String} {now : ℚ} {entry : Entry ν}
    (found : (cache.get key now).1.entries.get? other = some entry) :
    cache.entries.get? other = some entry := by
  obtain ⟨_, missed⟩ | ⟨_, _, _, expired⟩ | ⟨live, present, _, hit⟩ := cache.get_cases key now
  · simpa [missed] using found
  · simp only [expired, OrderedDict.get?_pop] at found
    split at found
    · cases found
    · exact found
  · simp only [hit, OrderedDict.get?_putLast] at found
    split at found
    · rename_i same
      rw [same, present, found]
    · exact found

theorem get_eq_some {cache : AsyncResponseCache ν} {key : String} {now : ℚ} {value : ν}
    (answered : (cache.get key now).2 = some value) :
    ∃ entry, cache.entries.get? key = some entry ∧ entry.value = some value := by
  obtain ⟨_, missed⟩ | ⟨_, _, _, expired⟩ | ⟨entry, present, _, hit⟩ := cache.get_cases key now
  · simp [missed] at answered
  · simp [expired] at answered
  · exact ⟨entry, present, by simpa [hit] using answered⟩

theorem get?_set {cache : AsyncResponseCache ν} {key other : String} {value : Option ν}
    {ttlSeconds : Option ℚ} {now : ℚ} {entry : Entry ν}
    (found : (cache.set key value ttlSeconds now).1.entries.get? other = some entry) :
    other = key ∧ entry.value = value ∨ cache.entries.get? other = some entry := by
  rcases trimmed : (cache.entries.putLast key
    ⟨value, now + lifetime cache.ttl ttlSeconds⟩).trim cache.maxEntries with ⟨evicted, entries⟩
  have kept : entries = ((cache.entries.putLast key
      ⟨value, now + lifetime cache.ttl ttlSeconds⟩).trim cache.maxEntries).2 := by rw [trimmed]
  rw [set_eq cache key value ttlSeconds now trimmed] at found
  simp only [kept, OrderedDict.get?_trim, OrderedDict.get?_putLast] at found
  split at found
  · cases found
  · split at found
    · rename_i same
      cases found
      exact Or.inl ⟨same, rfl⟩
    · exact Or.inr found

end AsyncResponseCache

end Eis.Performance
