import Mathlib.Data.List.Induction
import Eis.Foundation.Table

/-!
# Ordered dictionaries

`collections.OrderedDict` as a table of items keyed by their first component.
`move_to_end` and `popitem(last=False)` make the order a recency order: when
every item that is used moves to the end under a rank that grows, the first
item is the one of the least rank.
-/

set_option autoImplicit false

universe u v

abbrev OrderedDict (κ : Type u) (ν : Type v) := Table (Prod.fst : κ × ν → κ)

/-- `while len(items) > limit: items.popitem(last=False)`: the popped items and
those that stay. -/
def popOver {ρ : Type u} (limit : ℕ) : List ρ → List ρ × List ρ
  | [] => ([], [])
  | item :: rest =>
      if limit < rest.length + 1 then
        (item :: (popOver limit rest).1, (popOver limit rest).2)
      else ([], item :: rest)

section PopOver
variable {ρ : Type u} (limit : ℕ)

theorem popOver_append (items : List ρ) :
    (popOver limit items).1 ++ (popOver limit items).2 = items := by
  induction items with
  | nil => rfl
  | cons item rest ih =>
      unfold popOver
      split
      · simpa using ih
      · rfl

theorem popOver_sublist (items : List ρ) : (popOver limit items).2.Sublist items := by
  have kept := List.sublist_append_right (popOver limit items).1 (popOver limit items).2
  rwa [popOver_append] at kept

theorem length_popOver (items : List ρ) :
    (popOver limit items).2.length = min limit items.length := by
  induction items with
  | nil => simp [popOver]
  | cons item rest ih =>
      unfold popOver
      split
      · simp only [ih, List.length_cons]
        omega
      · simp only [List.length_cons]
        omega

end PopOver

namespace OrderedDict

variable {κ : Type u} {ν : Type v}

def trim (dict : OrderedDict κ ν) (limit : ℕ) : List (κ × ν) × OrderedDict κ ν :=
  ((popOver limit dict.rows).1,
    { rows := (popOver limit dict.rows).2
      keyed := by
        have stays : (popOver limit dict.rows).2.Sublist dict.rows :=
          popOver_sublist limit dict.rows
        exact dict.keyed.sublist (stays.map Prod.fst) })

theorem trim_rows (dict : OrderedDict κ ν) (limit : ℕ) :
    (dict.trim limit).1 ++ (dict.trim limit).2.rows = dict.rows :=
  popOver_append limit dict.rows

theorem length_trim (dict : OrderedDict κ ν) (limit : ℕ) :
    (dict.trim limit).2.rows.length = min limit dict.rows.length :=
  length_popOver limit dict.rows

/-- `{k: f(k, value) for k, value in dict.items()}` -/
def mapValues (dict : OrderedDict κ ν) (f : κ → ν → ν) : OrderedDict κ ν where
  rows := dict.rows.map fun item => (item.1, f item.1 item.2)
  keyed := by
    rw [List.map_map]
    exact dict.keyed

section Keys
variable [DecidableEq κ]

def get? (dict : OrderedDict κ ν) (k : κ) : Option ν := (dict.find k).map Prod.snd

/-- `dict[k] = value` -/
def setItem (dict : OrderedDict κ ν) (k : κ) (value : ν) : OrderedDict κ ν :=
  dict.upsert (k, value)

/-- `dict.setdefault(k, value)` -/
def setDefault (dict : OrderedDict κ ν) (k : κ) (value : ν) : OrderedDict κ ν :=
  match dict.get? k with
  | some _ => dict
  | none => dict.setItem k value

/-- `dict.pop(k, None)` -/
def pop (dict : OrderedDict κ ν) (k : κ) : OrderedDict κ ν where
  rows := dict.rows.filter fun item => decide (item.1 ≠ k)
  keyed := dict.keyed.sublist (List.filter_sublist.map Prod.fst)

/-- The item of `k` stands last, whether or not there was one before. -/
def putLast (dict : OrderedDict κ ν) (k : κ) (value : ν) : OrderedDict κ ν where
  rows := (dict.pop k).rows ++ [(k, value)]
  keyed := by
    rw [List.map_append]
    refine List.nodup_append.mpr ⟨(dict.pop k).keyed, by simp, ?_⟩
    intro other member last lastMember same
    obtain rfl : last = k := by simpa using lastMember
    obtain ⟨item, kept, rfl⟩ := List.mem_map.mp member
    exact (of_decide_eq_true (List.mem_filter.mp kept).2) same

def moveToEnd (dict : OrderedDict κ ν) (k : κ) : OrderedDict κ ν :=
  match dict.get? k with
  | none => dict
  | some value => dict.putLast k value

theorem get?_eq_some_iff (dict : OrderedDict κ ν) (k : κ) (value : ν) :
    dict.get? k = some value ↔ (k, value) ∈ dict.rows := by
  unfold get?
  constructor
  · intro found
    obtain ⟨⟨other, stored⟩, present, same⟩ := Option.map_eq_some_iff.mp found
    obtain ⟨member, sameKey⟩ := (dict.find_eq_some_iff k _).mp present
    simp only at same sameKey
    subst same sameKey
    exact member
  · intro member
    rw [(dict.find_eq_some_iff k (k, value)).mpr ⟨member, rfl⟩]
    rfl

theorem get?_setItem (dict : OrderedDict κ ν) (k : κ) (value : ν) (other : κ) :
    (dict.setItem k value).get? other = if other = k then some value else dict.get? other := by
  unfold get? setItem
  split
  · rename_i same
    have found := Table.find_upsert_self dict (k, value)
    simp only at found
    rw [same, found]
    rfl
  · rename_i different
    rw [Table.find_upsert_of_ne dict (k, value) (Ne.symm different)]

theorem get?_setDefault (dict : OrderedDict κ ν) (k : κ) (value : ν) :
    (dict.setDefault k value).get? k = some ((dict.get? k).getD value) := by
  unfold setDefault
  cases present : dict.get? k with
  | some stored => simp [present]
  | none => simp [get?_setItem]

theorem mem_pop {dict : OrderedDict κ ν} {k : κ} {item : κ × ν} :
    item ∈ (dict.pop k).rows ↔ item ∈ dict.rows ∧ item.1 ≠ k := by
  simp [pop]

theorem mem_putLast {dict : OrderedDict κ ν} {k : κ} {value : ν} {item : κ × ν} :
    item ∈ (dict.putLast k value).rows ↔
      item ∈ dict.rows ∧ item.1 ≠ k ∨ item = (k, value) := by
  simp [putLast, mem_pop]

theorem length_putLast (dict : OrderedDict κ ν) (k : κ) (value : ν) :
    (dict.putLast k value).rows.length = (dict.pop k).rows.length + 1 := by
  simp [putLast]

theorem get?_pop (dict : OrderedDict κ ν) (k other : κ) :
    (dict.pop k).get? other = if other = k then none else dict.get? other := by
  refine Option.ext fun value => ?_
  split
  · rename_i same
    simp [get?_eq_some_iff, mem_pop, same]
  · rename_i different
    simp [get?_eq_some_iff, mem_pop, different]

theorem get?_putLast (dict : OrderedDict κ ν) (k : κ) (value : ν) (other : κ) :
    (dict.putLast k value).get? other = if other = k then some value else dict.get? other := by
  refine Option.ext fun found => ?_
  split
  · rename_i same
    rw [get?_eq_some_iff, mem_putLast]
    simp [same, eq_comm]
  · rename_i different
    simp [get?_eq_some_iff, mem_putLast, different]

theorem length_pop {dict : OrderedDict κ ν} {k : κ} {value : ν}
    (present : dict.get? k = some value) :
    (dict.pop k).rows.length + 1 = dict.rows.length := by
  obtain ⟨item, found, _⟩ := Option.map_eq_some_iff.mp present
  have one : dict.rows.countP (fun item => decide (item.1 = k)) = 1 := by
    have counted := dict.rowcount_key k fun _ => true
    simpa [Table.rowcount, found] using counted
  have split := List.length_eq_countP_add_countP (fun item : κ × ν => decide (item.1 = k))
    (l := dict.rows)
  rw [one] at split
  simp only [pop, ← List.countP_eq_length_filter, ne_eq]
  simp only [decide_eq_true_eq] at split
  omega

theorem moveToEnd_setItem (dict : OrderedDict κ ν) (k : κ) (value : ν) :
    (dict.setItem k value).moveToEnd k = dict.putLast k value := by
  have present : (dict.setItem k value).get? k = some value := by
    rw [get?_setItem, if_pos rfl]
  have others : ((dict.setItem k value).pop k).rows = (dict.pop k).rows := by
    unfold setItem Table.upsert pop
    split
    · rename_i inserted success
      simp [(Table.insert_eq_some success).2]
    · simp only [Table.rows_updateWhere, List.filter_map]
      rw [List.filter_congr (q := fun item => decide (item.1 ≠ k))]
      · refine (List.map_congr_left ?_).trans (List.map_id _)
        intro item member
        have different := of_decide_eq_true (List.mem_filter.mp member).2
        simp [different]
      · intro item _
        by_cases same : item.1 = k <;> simp [same]
  unfold moveToEnd
  rw [present]
  simp [putLast, others]

theorem get?_trim (dict : OrderedDict κ ν) (limit : ℕ) (k : κ) :
    (dict.trim limit).2.get? k =
      if k ∈ (dict.trim limit).1.map Prod.fst then none else dict.get? k := by
  have keyed := dict.keyed
  have parts := trim_rows dict limit
  rw [← parts, List.map_append] at keyed
  obtain ⟨_, _, apart⟩ := List.nodup_append.mp keyed
  refine Option.ext fun value => ?_
  split
  · rename_i popped
    simp only [get?_eq_some_iff, reduceCtorEq, iff_false]
    intro stays
    exact apart k popped k (List.mem_map_of_mem stays) rfl
  · rename_i unpopped
    rw [get?_eq_some_iff, get?_eq_some_iff, ← parts, List.mem_append]
    refine ⟨Or.inr, fun member => member.resolve_left fun popped => unpopped ?_⟩
    exact List.mem_map_of_mem popped

theorem keys_setItem (dict : OrderedDict κ ν) (k : κ) (value : ν) :
    (dict.setItem k value).rows.map Prod.fst =
      if k ∈ dict.rows.map Prod.fst then dict.rows.map Prod.fst
      else dict.rows.map Prod.fst ++ [k] := by
  unfold setItem Table.upsert
  cases inserted : dict.insert (k, value) with
  | none =>
      obtain ⟨old, found⟩ := Table.insert_eq_none inserted
      obtain ⟨member, same⟩ := (dict.find_eq_some_iff _ _).mp found
      have present : k ∈ dict.rows.map Prod.fst := List.mem_map.mpr ⟨old, member, same⟩
      rw [if_pos present]
      simp only [Table.rows_updateWhere, List.map_map]
      apply List.map_congr_left
      intro item _
      by_cases own : item.1 = k
      · simp [own]
      · simp [own]
  | some table =>
      obtain ⟨absent, rows⟩ := Table.insert_eq_some inserted
      have fresh : k ∉ dict.rows.map Prod.fst := (dict.find_eq_none_iff k).mp absent
      rw [if_neg fresh]
      simp [rows]

theorem mem_keys_setItem {dict : OrderedDict κ ν} {k other : κ} {value : ν} :
    other ∈ (dict.setItem k value).rows.map Prod.fst ↔
      other ∈ dict.rows.map Prod.fst ∨ other = k := by
  rw [keys_setItem]
  split
  · rename_i present
    constructor
    · exact Or.inl
    · rintro (listed | rfl)
      · exact listed
      · exact present
  · rw [List.mem_append, List.mem_singleton]

theorem get?_eq_none_iff (dict : OrderedDict κ ν) (k : κ) :
    dict.get? k = none ↔ k ∉ dict.rows.map Prod.fst := by
  unfold get?
  rw [Option.map_eq_none_iff]
  exact dict.find_eq_none_iff k

/-- `dict == other`, whatever the order of the items. -/
def Equal (dict other : OrderedDict κ ν) : Prop := ∀ k, dict.get? k = other.get? k

theorem equal_iff_perm (dict other : OrderedDict κ ν) :
    dict.Equal other ↔ dict.rows.Perm other.rows := by
  have distinct : ∀ own : OrderedDict κ ν, own.rows.Nodup := fun own => own.keyed.of_map _
  rw [List.perm_ext_iff_of_nodup (distinct dict) (distinct other)]
  constructor
  · rintro equal ⟨k, value⟩
    rw [← get?_eq_some_iff, ← get?_eq_some_iff, equal k]
  · intro same k
    refine Option.ext fun value => ?_
    rw [get?_eq_some_iff, get?_eq_some_iff, same]

instance [DecidableEq ν] (dict other : OrderedDict κ ν) : Decidable (dict.Equal other) :=
  decidable_of_iff _ (equal_iff_perm dict other).symm

section Collect
variable {α : Type*}

/-- `{key(item): value(item) for item in items}` -/
def collect (key : α → κ) (value : α → ν) (items : List α) : OrderedDict κ ν :=
  items.foldl (fun dict item => dict.setItem (key item) (value item)) Table.empty

theorem collect_append_singleton (key : α → κ) (value : α → ν) (items : List α) (item : α) :
    collect key value (items ++ [item]) =
      (collect key value items).setItem (key item) (value item) := by
  unfold collect
  rw [List.foldl_append]
  rfl

theorem get?_collect (key : α → κ) (value : α → ν) (items : List α) (k : κ) :
    (collect key value items).get? k =
      (items.reverse.find? fun item => decide (key item = k)).map value := by
  induction items using List.reverseRecOn with
  | nil => rfl
  | append_singleton earlier last ih =>
      rw [collect_append_singleton, get?_setItem, ih, List.reverse_append,
        List.reverse_singleton, List.singleton_append, List.find?_cons]
      by_cases same : key last = k
      · simp [same]
      · simp [same, Ne.symm same]

theorem find?_reverse_rows (dict : OrderedDict κ ν) (k : κ) :
    (dict.rows.reverse.find? fun item => decide (item.1 = k)).map Prod.snd = dict.get? k := by
  symm
  cases found : dict.rows.reverse.find? fun item => decide (item.1 = k) with
  | none =>
      refine (dict.get?_eq_none_iff k).mpr fun listed => ?_
      obtain ⟨item, member, same⟩ := List.mem_map.mp listed
      have other := List.find?_eq_none.mp found item (List.mem_reverse.mpr member)
      exact other (decide_eq_true same)
  | some item =>
      have member := List.mem_reverse.mp (List.mem_of_find?_eq_some found)
      have same : item.1 = k := by simpa using List.find?_some found
      exact (dict.get?_eq_some_iff k item.2).mpr (same ▸ member)

theorem get?_collect_cons_rows (k : κ) (value : ν) (dict : OrderedDict κ ν) :
    (collect Prod.fst Prod.snd ((k, value) :: dict.rows)).get? k =
      some ((dict.get? k).getD value) := by
  rw [get?_collect, List.reverse_cons, List.find?_append, ← find?_reverse_rows]
  cases dict.rows.reverse.find? fun item => decide (item.1 = k) with
  | none => simp
  | some own => rfl

end Collect

end Keys

/-! ## Recency -/

/-- The items stand in the order of the ranks of their keys. -/
def Ranked (rank : κ → ℕ) (dict : OrderedDict κ ν) : Prop :=
  dict.rows.Pairwise fun earlier later => rank earlier.1 < rank later.1

theorem Ranked.empty (rank : κ → ℕ) : Ranked rank (Table.empty : OrderedDict κ ν) :=
  List.Pairwise.nil

theorem Ranked.trim {rank : κ → ℕ} {dict : OrderedDict κ ν} (ranked : Ranked rank dict)
    (limit : ℕ) : Ranked rank (dict.trim limit).2 := by
  unfold Ranked at ranked ⊢
  rw [← trim_rows dict limit] at ranked
  exact (List.pairwise_append.mp ranked).2.1

theorem Ranked.trim_lt {rank : κ → ℕ} {dict : OrderedDict κ ν} (ranked : Ranked rank dict)
    {limit : ℕ} {popped kept : κ × ν} (out : popped ∈ (dict.trim limit).1)
    (stays : kept ∈ (dict.trim limit).2.rows) : rank popped.1 < rank kept.1 := by
  unfold Ranked at ranked
  rw [← trim_rows dict limit] at ranked
  exact (List.pairwise_append.mp ranked).2.2 popped out kept stays

section Moves
variable [DecidableEq κ]

theorem Ranked.pop {rank : κ → ℕ} {dict : OrderedDict κ ν} (ranked : Ranked rank dict) (k : κ) :
    Ranked rank (dict.pop k) :=
  ranked.sublist List.filter_sublist

theorem Ranked.putLast {rank : κ → ℕ} {dict : OrderedDict κ ν} (ranked : Ranked rank dict)
    (k : κ) (value : ν) {top : ℕ} (below : ∀ other, rank other < top) :
    Ranked (Function.update rank k top) (dict.putLast k value) := by
  refine List.pairwise_append.mpr ⟨?_, by simp, ?_⟩
  · refine (ranked.pop k).imp_of_mem ?_
    intro earlier later earlierMember laterMember lower
    rw [Function.update_of_ne (mem_pop.mp earlierMember).2,
      Function.update_of_ne (mem_pop.mp laterMember).2]
    exact lower
  · intro earlier earlierMember last lastMember
    obtain rfl : last = (k, value) := by simpa using lastMember
    rw [Function.update_of_ne (mem_pop.mp earlierMember).2, Function.update_self]
    exact below earlier.1

/-- Where an item is written last and the dictionary is trimmed to a positive
limit, a popped item is one of the old ones, the limit is reached, and what was
popped ranks below what stays. -/
theorem Ranked.putLast_trim {rank : κ → ℕ} {dict : OrderedDict κ ν} (ranked : Ranked rank dict)
    (k : κ) (value : ν) {top limit : ℕ} (below : ∀ other, rank other < top)
    (positive : 1 ≤ limit) {item : κ × ν} (out : item ∈ ((dict.putLast k value).trim limit).1) :
    dict.get? item.1 = some item.2 ∧
      ((dict.putLast k value).trim limit).2.rows.length = limit ∧
      ∀ kept ∈ ((dict.putLast k value).trim limit).2.rows,
        Function.update rank k top item.1 < Function.update rank k top kept.1 := by
  have moved := ranked.putLast k value below
  have parts := trim_rows (dict.putLast k value) limit
  have length := length_trim (dict.putLast k value) limit
  have total := congrArg List.length parts
  have somePopped : 0 < ((dict.putLast k value).trim limit).1.length :=
    List.length_pos_of_mem out
  rw [List.length_append] at total
  have full : ((dict.putLast k value).trim limit).2.rows.length = limit := by omega
  have lower : ∀ kept ∈ ((dict.putLast k value).trim limit).2.rows,
      Function.update rank k top item.1 < Function.update rank k top kept.1 :=
    fun kept stays => moved.trim_lt out stays
  refine ⟨?_, full, lower⟩
  have member : item ∈ (dict.putLast k value).rows := parts ▸ List.mem_append_left _ out
  rcases mem_putLast.mp member with ⟨old, _⟩ | rfl
  · exact (get?_eq_some_iff dict item.1 item.2).mpr old
  · -- the item written last has the top rank, so something that stays would rank above it
    obtain ⟨kept, stays⟩ := List.exists_mem_of_length_pos (full.symm ▸ positive)
    have above := lower kept stays
    have bound : Function.update rank k top kept.1 ≤ top := by
      by_cases same : kept.1 = k
      · simp [same]
      · rw [Function.update_of_ne same]
        exact Nat.le_of_lt (below kept.1)
    rw [Function.update_self] at above
    omega

theorem get?_trim_putLast (dict : OrderedDict κ ν) (k : κ) (value : ν) {limit : ℕ}
    (positive : 1 ≤ limit) : ((dict.putLast k value).trim limit).2.get? k = some value := by
  have parts := trim_rows (dict.putLast k value) limit
  have length := length_trim (dict.putLast k value) limit
  rw [get?_eq_some_iff]
  rcases List.eq_nil_or_concat ((dict.putLast k value).trim limit).2.rows with
    none | ⟨front, last, some⟩
  · rw [none, putLast, List.length_nil, List.length_append, List.length_singleton] at length
    omega
  · rw [some, List.concat_eq_append, ← List.append_assoc] at parts
    obtain rfl := List.singleton_inj.mp (List.append_inj' parts rfl).2
    rw [some]
    simp

end Moves

end OrderedDict
