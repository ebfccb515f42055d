import Mathlib.Data.List.Infix
import Eis.Foundation.Run
import Eis.Performance.Cache

/-!
# The cache as a bounded map with expiry and recency

`TtlLruMap` is what the cache stands for: for each key the value and the expiry
of the latest `set` that was neither evicted nor cleared, and the time of the
last `set` or successful read.  The map that a trace describes is computed from
the calls alone; the entries of the cache agree with it after every call, an
expired entry being dropped only when it is read.
-/

set_option autoImplicit false

namespace Eis.Performance

open Transition

structure TtlLruMap (κ ν : Type) where
  latest : κ → Option (ν × ℚ)
  used : κ → ℕ
  time : ℕ

namespace TtlLruMap

variable {κ ν : Type}

def empty : TtlLruMap κ ν := ⟨fun _ => none, fun _ => 0, 0⟩

/-- The value of the latest `set` while it has not expired. -/
def live (map : TtlLruMap κ ν) (key : κ) (now : ℚ) : Option ν :=
  match map.latest key with
  | none => none
  | some (value, expiresAt) => if now < expiresAt then some value else none

variable [DecidableEq κ]

def touch (map : TtlLruMap κ ν) (key : κ) : TtlLruMap κ ν :=
  { map with
    used := Function.update map.used key (map.time + 1)
    time := map.time + 1 }

theorem touch_below {map : TtlLruMap κ ν} (below : ∀ other, map.used other ≤ map.time)
    (key other : κ) : (map.touch key).used other ≤ (map.touch key).time := by
  have earlier := below other
  by_cases own : other = key <;> simp [touch, own]
  omega

def read (map : TtlLruMap κ ν) (key : κ) (now : ℚ) : TtlLruMap κ ν :=
  if (map.live key now).isSome then map.touch key else map

def write (map : TtlLruMap κ ν) (key : κ) (value : ν) (expiresAt : ℚ) : TtlLruMap κ ν :=
  { map.touch key with latest := Function.update map.latest key (some (value, expiresAt)) }

def forget (map : TtlLruMap κ ν) (keys : List κ) : TtlLruMap κ ν :=
  { map with latest := fun key => if key ∈ keys then none else map.latest key }

def clear (map : TtlLruMap κ ν) : TtlLruMap κ ν :=
  { map with latest := fun _ => none }

end TtlLruMap

namespace AsyncResponseCache

variable {ν : Type}

def advance (ttl : ℚ) (map : TtlLruMap String (Option ν)) (exchange : Exchange ν) :
    TtlLruMap String (Option ν) :=
  match exchange.call with
  | .get key => map.read key exchange.now
  | .set key value ttlSeconds =>
      (map.write key value (exchange.now + lifetime ttl ttlSeconds)).forget exchange.evicted
  | .clear => map.clear

/-- The map that a trace describes, for a cache with this default `ttl`. -/
def reference (ttl : ℚ) (trace : List (Exchange ν)) : TtlLruMap String (Option ν) :=
  trace.foldl (advance ttl) TtlLruMap.empty

theorem reference_snoc (ttl : ℚ) (trace : List (Exchange ν)) (exchange : Exchange ν) :
    reference ttl (trace ++ [exchange]) = advance ttl (reference ttl trace) exchange := by
  simp [reference]

/-! ## The simulation -/

/-- The entries are those of the map, less expired ones that were read, in the
order of their last use. -/
structure Simulates (trace : List (Exchange ν)) (map : TtlLruMap String (Option ν))
    (cache : AsyncResponseCache ν) : Prop where
  held : ∀ key entry, cache.entries.get? key = some entry →
    map.latest key = some (entry.value, entry.expiresAt)
  dropped : ∀ key value expiresAt, map.latest key = some (value, expiresAt) →
    cache.entries.get? key = none → ∃ exchange ∈ trace, expiresAt ≤ exchange.now
  ranked : cache.entries.Ranked map.used
  below : ∀ key, map.used key ≤ map.time
  bounded : cache.entries.rows.length ≤ cache.maxEntries
  counted : cache.hits + cache.misses = trace.countP fun exchange => exchange.call.isGet

theorem Simulates.live_eq {trace : List (Exchange ν)} {map : TtlLruMap String (Option ν)}
    {cache : AsyncResponseCache ν} (simulates : Simulates trace map cache) {now : ℚ}
    (clock : ∀ exchange ∈ trace, exchange.now ≤ now) (key : String) :
    map.live key now =
      ((cache.entries.get? key).filter fun entry => now < entry.expiresAt).map Entry.value := by
  cases found : cache.entries.get? key with
  | some entry =>
      rw [TtlLruMap.live, simulates.held key entry found]
      by_cases unexpired : now < entry.expiresAt
      · simp [unexpired]
      · simp [unexpired, not_lt.mp unexpired]
  | none =>
      unfold TtlLruMap.live
      cases latest : map.latest key with
      | none => rfl
      | some stored =>
          obtain ⟨exchange, member, expired⟩ :=
            simulates.dropped key stored.1 stored.2 latest found
          have past : ¬ now < stored.2 := not_lt.mpr (expired.trans (clock exchange member))
          simp [past]

theorem create_eq_ok {maxEntries : ℤ} {ttl : ℚ} {cache : AsyncResponseCache ν}
    (created : create maxEntries ttl = .ok cache) :
    (cache.maxEntries : ℤ) = maxEntries ∧ cache.ttl = ttl := by
  unfold create at created
  split at created
  · rename_i valid
    obtain rfl := Except.ok.inj created
    exact ⟨by simp only; omega, rfl⟩
  · cases created

theorem simulates_create {maxEntries : ℤ} {ttl : ℚ} {cache : AsyncResponseCache ν}
    (created : create maxEntries ttl = .ok cache) :
    Simulates [] (reference cache.ttl []) cache := by
  unfold create at created
  split at created
  · obtain rfl := Except.ok.inj created
    constructor
    case held =>
      intro key entry found
      cases found
    case dropped =>
      intro key value expiresAt stored
      cases stored
    case ranked => exact OrderedDict.Ranked.empty _
    case below => exact fun key => le_rfl
    case bounded => exact Nat.zero_le _
    case counted => rfl
  · cases created

section Step
variable {trace : List (Exchange ν)} {map : TtlLruMap String (Option ν)}
variable {cache : AsyncResponseCache ν}

theorem Simulates.dropped_snoc (simulates : Simulates trace map cache) (exchange : Exchange ν)
    {key : String} {value : Option ν} {expiresAt : ℚ}
    (latest : map.latest key = some (value, expiresAt))
    (absent : cache.entries.get? key = none) :
    ∃ earlier ∈ trace ++ [exchange], expiresAt ≤ earlier.now := by
  obtain ⟨earlier, member, expired⟩ := simulates.dropped key value expiresAt latest absent
  exact ⟨earlier, List.mem_append_left _ member, expired⟩

theorem Simulates.counted_get (simulates : Simulates trace map cache) {exchange : Exchange ν}
    {key : String} (called : exchange.call = .get key) :
    (trace ++ [exchange]).countP (fun earlier => earlier.call.isGet) =
      cache.hits + cache.misses + 1 := by
  rw [List.countP_append, simulates.counted]
  simp [called, CacheCall.isGet]

theorem Simulates.expire (simulates : Simulates trace map cache) {exchange : Exchange ν}
    {key : String} (called : exchange.call = .get key) {entry : Entry ν}
    (found : cache.entries.get? key = some entry) (expired : entry.expiresAt ≤ exchange.now) :
    Simulates (trace ++ [exchange]) map
      { cache with
        entries := cache.entries.pop key
        misses := cache.misses + 1 } := by
  constructor
  case held =>
    intro other stored present
    rw [OrderedDict.get?_pop] at present
    split at present
    · cases present
    · exact simulates.held other stored present
  case dropped =>
    intro other value expiresAt latest absent
    rw [OrderedDict.get?_pop] at absent
    split at absent
    · rename_i own
      subst own
      have same := (simulates.held other entry found).symm.trans latest
      obtain ⟨rfl, rfl⟩ := Prod.mk.inj (Option.some.inj same)
      exact ⟨exchange, List.mem_append_right _ (List.mem_singleton_self _), expired⟩
    · exact simulates.dropped_snoc exchange latest absent
  case ranked => exact simulates.ranked.pop key
  case below => exact simulates.below
  case bounded => exact (List.length_filter_le _ _).trans simulates.bounded
  case counted =>
    rw [simulates.counted_get called]
    rfl

theorem Simulates.hit (simulates : Simulates trace map cache) {exchange : Exchange ν}
    {key : String} (called : exchange.call = .get key) {entry : Entry ν}
    (found : cache.entries.get? key = some entry) :
    Simulates (trace ++ [exchange]) (map.touch key)
      { cache with
        entries := cache.entries.putLast key entry
        hits := cache.hits + 1 } := by
  constructor
  case held =>
    intro other stored present
    rw [OrderedDict.get?_putLast] at present
    split at present
    · rename_i own
      obtain rfl := Option.some.inj present
      exact own ▸ simulates.held key entry found
    · exact simulates.held other stored present
  case dropped =>
    intro other value expiresAt latest absent
    rw [OrderedDict.get?_putLast] at absent
    split at absent
    · cases absent
    · exact simulates.dropped_snoc exchange latest absent
  case ranked =>
    exact simulates.ranked.putLast key entry fun other =>
      Nat.lt_succ_of_le (simulates.below other)
  case below => exact TtlLruMap.touch_below simulates.below key
  case bounded =>
    have same := OrderedDict.length_pop found
    have bounded := simulates.bounded
    simp only [OrderedDict.length_putLast]
    omega
  case counted =>
    rw [simulates.counted_get called]
    exact Nat.add_right_comm cache.hits 1 cache.misses

theorem Simulates.get (simulates : Simulates trace map cache) (exchange : Exchange ν)
    {key : String} (called : exchange.call = .get key)
    (clock : ∀ earlier ∈ trace, earlier.now ≤ exchange.now) :
    Simulates (trace ++ [exchange]) (map.read key exchange.now)
      (cache.get key exchange.now).1 := by
  have live := simulates.live_eq clock key
  rcases get_cases cache key exchange.now with
    ⟨absent, answer⟩ | ⟨entry, found, expired, answer⟩ | ⟨entry, found, unexpired, answer⟩
  · have unread : map.read key exchange.now = map := by
      simp [TtlLruMap.read, live, absent]
    rw [answer, unread]
    exact
      { simulates with
        dropped := fun other value expiresAt => simulates.dropped_snoc exchange
        counted := (simulates.counted_get called).symm }
  · have unread : map.read key exchange.now = map := by
      simp [TtlLruMap.read, live, found, not_lt.mpr expired]
    rw [answer, unread]
    exact simulates.expire called found expired
  · have used : map.read key exchange.now = map.touch key := by
      simp [TtlLruMap.read, live, found, unexpired]
    rw [answer, used]
    exact simulates.hit called found

theorem Simulates.clear (simulates : Simulates trace map cache) (exchange : Exchange ν)
    (called : exchange.call = .clear) :
    Simulates (trace ++ [exchange]) map.clear cache.clear := by
  constructor
  case held =>
    intro key entry found
    cases found
  case dropped =>
    intro key value expiresAt latest
    cases latest
  case ranked => exact OrderedDict.Ranked.empty _
  case below => exact simulates.below
  case bounded => exact Nat.zero_le _
  case counted =>
    rw [List.countP_append, ← simulates.counted]
    simp [called, CacheCall.isGet, AsyncResponseCache.clear]

theorem Simulates.store (simulates : Simulates trace map cache) (exchange : Exchange ν)
    (uncounted : exchange.call.isGet = false) (key : String) (entry : Entry ν)
    {popped : List (String × Entry ν)} {entries : OrderedDict String (Entry ν)}
    (trimmed : (cache.entries.putLast key entry).trim cache.maxEntries = (popped, entries))
    (stores evictions : ℕ) :
    Simulates (trace ++ [exchange])
      ((map.write key entry.value entry.expiresAt).forget (popped.map Prod.fst))
      { cache with entries := entries, stores := stores, evictions := evictions } := by
  have stays : ∀ other, entries.get? other =
      if other ∈ popped.map Prod.fst then none
      else if other = key then some entry else cache.entries.get? other := by
    intro other
    have found := (cache.entries.putLast key entry).get?_trim cache.maxEntries other
    rwa [trimmed, OrderedDict.get?_putLast] at found
  have latest : ∀ other,
      ((map.write key entry.value entry.expiresAt).forget (popped.map Prod.fst)).latest other =
        if other ∈ popped.map Prod.fst then none
        else if other = key then some (entry.value, entry.expiresAt) else map.latest other := by
    intro other
    simp only [TtlLruMap.forget, TtlLruMap.write, Function.update_apply]
  constructor
  case held =>
    intro other stored present
    rw [stays] at present
    rw [latest]
    split at present
    · cases present
    · rename_i kept
      rw [if_neg kept]
      split at present
      · rename_i own
        obtain rfl := Option.some.inj present
        exact if_pos own
      · rename_i different
        rw [if_neg different]
        exact simulates.held other stored present
  case dropped =>
    intro other value expiresAt stored absent
    rw [stays] at absent
    rw [latest] at stored
    split at stored
    · cases stored
    · rename_i kept
      rw [if_neg kept] at absent
      split at stored
      · rename_i own
        rw [if_pos own] at absent
        cases absent
      · rename_i different
        rw [if_neg different] at absent
        exact simulates.dropped_snoc exchange stored absent
  case ranked =>
    have ranked := (simulates.ranked.putLast key entry fun other =>
      Nat.lt_succ_of_le (simulates.below other)).trim cache.maxEntries
    rwa [trimmed] at ranked
  case below => exact TtlLruMap.touch_below simulates.below key
  case bounded =>
    have length := (cache.entries.putLast key entry).length_trim cache.maxEntries
    rw [trimmed] at length
    exact length.le.trans (Nat.min_le_left _ _)
  case counted =>
    rw [List.countP_append, ← simulates.counted]
    simp [uncounted]

variable {next : AsyncResponseCache ν} {exchange : Exchange ν}

theorem Simulates.step (simulates : Simulates trace map cache)
    (fired : cacheStep cache exchange next)
    (clock : ∀ earlier ∈ trace, earlier.now ≤ exchange.now) :
    Simulates (trace ++ [exchange]) (advance cache.ttl map exchange) next ∧
      next.ttl = cache.ttl ∧ next.maxEntries = cache.maxEntries := by
  unfold cacheStep apply at fired
  unfold advance
  cases called : exchange.call with
  | get key =>
      simp only [called, Prod.mk.injEq] at fired
      obtain ⟨rfl, _, _⟩ := fired
      refine ⟨simulates.get exchange called clock, ?_⟩
      rcases get_cases cache key exchange.now with
        ⟨_, answer⟩ | ⟨_, _, _, answer⟩ | ⟨_, _, _, answer⟩ <;>
        rw [answer] <;> exact ⟨rfl, rfl⟩
  | set key value ttlSeconds =>
      simp only [called, Prod.mk.injEq] at fired
      obtain ⟨rfl, _, evicted⟩ := fired
      rcases trimmed : (cache.entries.putLast key
        ⟨value, exchange.now + lifetime cache.ttl ttlSeconds⟩).trim cache.maxEntries with
        ⟨popped, entries⟩
      have uncounted : exchange.call.isGet = false := by rw [called]; rfl
      rw [set_eq cache key value ttlSeconds exchange.now trimmed] at evicted ⊢
      rw [← evicted]
      exact ⟨simulates.store exchange uncounted key _ trimmed _ _, rfl, rfl⟩
  | clear =>
      simp only [called, Prod.mk.injEq] at fired
      obtain ⟨rfl, _, _⟩ := fired
      exact ⟨simulates.clear exchange called, rfl, rfl⟩

theorem Simulates.answer (simulates : Simulates trace map cache)
    (fired : cacheStep cache exchange next)
    (clock : ∀ earlier ∈ trace, earlier.now ≤ exchange.now) {key : String}
    (called : exchange.call = .get key) :
    exchange.reply = (map.live key exchange.now).join := by
  have live := simulates.live_eq clock key
  unfold cacheStep apply at fired
  simp only [called, Prod.mk.injEq] at fired
  rw [← fired.2.1, live]
  rcases get_cases cache key exchange.now with
    ⟨absent, answer⟩ | ⟨entry, found, expired, answer⟩ | ⟨entry, found, unexpired, answer⟩
  · simp [answer, absent]
  · simp [answer, found, Option.filter, not_lt.mpr expired]
  · simp [answer, found, Option.filter, unexpired]

theorem Simulates.evicts (simulates : Simulates trace map cache)
    (fired : cacheStep cache exchange next) {key : String} (evicted : key ∈ exchange.evicted) :
    (map.latest key).isSome ∧ next.entries.get? key = none ∧
      next.entries.rows.length = cache.maxEntries ∧
      ∀ other entry, next.entries.get? other = some entry →
        (advance cache.ttl map exchange).used key <
          (advance cache.ttl map exchange).used other := by
  unfold cacheStep apply at fired
  unfold advance
  cases called : exchange.call with
  | get key =>
      simp only [called, Prod.mk.injEq] at fired
      rw [← fired.2.2] at evicted
      cases evicted
  | clear =>
      simp only [called, Prod.mk.injEq] at fired
      rw [← fired.2.2] at evicted
      cases evicted
  | set written value ttlSeconds =>
      simp only [called, Prod.mk.injEq] at fired
      obtain ⟨rfl, _, out⟩ := fired
      have popped := fun (item : String × Entry ν) (outItem : item ∈ ((cache.entries.putLast
          written ⟨value, exchange.now + lifetime cache.ttl ttlSeconds⟩).trim
            cache.maxEntries).1) =>
        simulates.ranked.putLast_trim written _
          (fun other => Nat.lt_succ_of_le (simulates.below other)) cache.maxEntriesPositive outItem
      have gone := (cache.entries.putLast written
        ⟨value, exchange.now + lifetime cache.ttl ttlSeconds⟩).get?_trim cache.maxEntries key
      rcases trimmed : (cache.entries.putLast written
        ⟨value, exchange.now + lifetime cache.ttl ttlSeconds⟩).trim cache.maxEntries with
        ⟨evictedItems, entries⟩
      rw [trimmed] at popped gone
      rw [set_eq cache written value ttlSeconds exchange.now trimmed] at out ⊢
      simp only at out
      rw [← out] at evicted ⊢
      obtain ⟨item, outItem, rfl⟩ := List.mem_map.mp evicted
      obtain ⟨old, full, lower⟩ := popped item outItem
      refine ⟨by rw [simulates.held item.1 item.2 old]; rfl, ?_, full, ?_⟩
      · rw [gone, if_pos evicted]
      · intro other entry present
        exact lower (other, entry) ((OrderedDict.get?_eq_some_iff _ _ _).mp present)

end Step

/-! ## The law of the cache -/

/-- What holds after a trace of calls: the size is bounded, a `get` answers with
the latest value that is live, an eviction removes from a full cache what was
used before everything that stays, and the counters count. -/
structure CacheLaw (maxEntries : ℤ) (ttl : ℚ) (trace : List (Exchange ν))
    (cache : AsyncResponseCache ν) : Prop where
  bounded : (cache.entries.rows.length : ℤ) ≤ maxEntries
  answered : ∀ past exchange later key, trace = past ++ exchange :: later →
    exchange.call = .get key → exchange.reply = ((reference ttl past).live key exchange.now).join
  evicted : ∀ past exchange, trace = past ++ [exchange] → ∀ key ∈ exchange.evicted,
    ((reference ttl past).latest key).isSome ∧ cache.entries.get? key = none ∧
      (cache.entries.rows.length : ℤ) = maxEntries ∧
      ∀ other entry, cache.entries.get? other = some entry →
        (reference ttl trace).used key < (reference ttl trace).used other
  counted : cache.hits + cache.misses = trace.countP fun exchange => exchange.call.isGet

structure Reached (maxEntries : ℤ) (ttl : ℚ) (trace : List (Exchange ν))
    (cache : AsyncResponseCache ν) : Prop where
  sameLimit : (cache.maxEntries : ℤ) = maxEntries
  sameTtl : cache.ttl = ttl
  simulates : Simulates trace (reference ttl trace) cache
  answered : ∀ past exchange later key, trace = past ++ exchange :: later →
    exchange.call = .get key → exchange.reply = ((reference ttl past).live key exchange.now).join

theorem Reached.step {maxEntries : ℤ} {ttl : ℚ} {trace : List (Exchange ν)}
    {cache next : AsyncResponseCache ν} {exchange : Exchange ν}
    (reached : Reached maxEntries ttl trace cache) (fired : cacheStep cache exchange next)
    (clock : ∀ earlier ∈ trace, earlier.now ≤ exchange.now) :
    Reached maxEntries ttl (trace ++ [exchange]) next := by
  obtain ⟨simulates, sameTtl, sameLimit⟩ := reached.simulates.step fired clock
  constructor
  case sameLimit => rw [sameLimit, reached.sameLimit]
  case sameTtl => rw [sameTtl, reached.sameTtl]
  case simulates =>
    rw [reference_snoc]
    exact reached.sameTtl ▸ simulates
  case answered =>
    have earlier : Preceded (fun own past => ∀ key, own.call = .get key →
        own.reply = ((reference ttl past).live key own.now).join) trace :=
      fun past own later split key called => reached.answered past own later key split called
    have preceded := earlier.snoc fun key called => reached.simulates.answer fired clock called
    exact fun past own later key split called => preceded past own later split key called

theorem reached_run {maxEntries : ℤ} {ttl : ℚ} {initial cache : AsyncResponseCache ν}
    {trace : List (Exchange ν)} (created : create maxEntries ttl = .ok initial)
    (run : Run cacheStep initial trace cache)
    (clock : trace.Pairwise fun earlier later => earlier.now ≤ later.now) :
    Reached maxEntries ttl trace cache := by
  induction run with
  | nil =>
      have simulates := simulates_create created
      obtain ⟨sameLimit, sameTtl⟩ := create_eq_ok created
      constructor
      case sameLimit => exact sameLimit
      case sameTtl => exact sameTtl
      case simulates => exact sameTtl ▸ simulates
      case answered => exact fun past exchange later key split => by simp at split
  | snoc _ last ih =>
      obtain ⟨before, _, order⟩ := List.pairwise_append.mp clock
      exact (ih before).step last fun earlier member =>
        order earlier member _ (List.mem_singleton_self _)

/-- After every sequence of calls with a clock that does not go back, the cache
is the bounded map that the calls describe. -/
theorem cache_refines_map {maxEntries : ℤ} {ttl : ℚ} {initial cache : AsyncResponseCache ν}
    {trace : List (Exchange ν)} (created : create maxEntries ttl = .ok initial)
    (run : Run cacheStep initial trace cache)
    (clock : trace.Pairwise fun earlier later => earlier.now ≤ later.now) :
    CacheLaw maxEntries ttl trace cache := by
  have reached := reached_run created run clock
  constructor
  case bounded =>
    have bounded := reached.simulates.bounded
    have sameLimit := reached.sameLimit
    omega
  case answered => exact reached.answered
  case counted => exact reached.simulates.counted
  case evicted =>
    intro past exchange split key evicted
    cases run with
    | nil => simp at split
    | @snoc before last middle _ earlier fired =>
        obtain ⟨rfl, same⟩ := List.append_inj' split rfl
        obtain rfl : last = exchange := by simpa using same
        have previous := reached_run created earlier (List.pairwise_append.mp clock).1
        have sameLimit := previous.sameLimit
        obtain ⟨written, gone, full, lower⟩ := previous.simulates.evicts fired evicted
        refine ⟨written, gone, by omega, ?_⟩
        rw [reference_snoc]
        exact previous.sameTtl ▸ lower

def singleEntry : AsyncResponseCache String where
  maxEntries := 1
  ttl := 10
  maxEntriesPositive := le_rfl
  ttlPositive := by decide

def storing : Exchange String := ⟨.set "a" (some "1") none, 0, none, []⟩

def evicting : Exchange String := ⟨.set "b" (some "2") (some 5), 1, none, ["a"]⟩

def missing : Exchange String := ⟨.get "a", 2, none, []⟩

theorem cacheStep_apply (cache : AsyncResponseCache ν) (exchange : Exchange ν)
    (observed : (cache.apply exchange.call exchange.now).2 = (exchange.reply, exchange.evicted)) :
    cacheStep cache exchange (cache.apply exchange.call exchange.now).1 :=
  Prod.ext rfl observed

theorem cache_refines_map_evicting :
    ∃ cache, CacheLaw 1 10 [storing, evicting, missing] cache := by
  have created : create 1 10 = .ok singleEntry := rfl
  have clock : [storing, evicting, missing].Pairwise fun earlier later =>
      earlier.now ≤ later.now := by decide
  have run := ((Run.single (cacheStep_apply singleEntry storing rfl)).snoc
    (cacheStep_apply _ evicting rfl)).snoc (cacheStep_apply _ missing rfl)
  exact ⟨_, cache_refines_map created run clock⟩

end AsyncResponseCache

end Eis.Performance
