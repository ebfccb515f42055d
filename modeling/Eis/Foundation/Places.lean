import Mathlib.Data.Prod.Lex
import Eis.Foundation.Ranking

/-!
# The largest items of several lists

What `heapq.nlargest` takes from each of several lists, one list after the other, told by the
places at which the items stand: how many items come before one of them, and which of the
items under one key is the best.
-/

set_option autoImplicit false

universe u v w x y

namespace Ranking

@[ext]
structure Place (α : Type u) where
  list : ℕ
  position : ℕ
  item : α

section Increasing
variable {α : Type u} {β : Type v} {ο : Type w} [LinearOrder ο]

theorem mem_take_iff (before : α → α → Prop) [DecidableRel before]
    (asymmetric : ∀ item other, before item other → ¬ before other item) {items : List α}
    (ordered : items.Pairwise before) {item : α} {count : ℕ} :
    item ∈ items.take count ↔
      item ∈ items ∧ items.countP (fun other => decide (before other item)) < count := by
  induction items generalizing count with
  | nil => simp
  | cons first rest ih =>
      obtain ⟨least, ordered⟩ := List.pairwise_cons.mp ordered
      have own : rest.countP (fun other => decide (before other first)) = 0 := by
        rw [List.countP_eq_zero]
        intro other member
        simpa using asymmetric first other (least other member)
      have irreflexive : ¬ before first first := fun itself => asymmetric first first itself itself
      cases count with
      | zero => simp
      | succ count =>
          rw [List.take_succ_cons, List.mem_cons, List.mem_cons, ih ordered, List.countP_cons]
          by_cases same : item = first
          · subst same
            simp [own, irreflexive]
          · simp only [same, false_or]
            refine and_congr_right fun member => ?_
            simp [least item member]

variable {ρ : Type x} [LinearOrder ρ] {κ : Type y} {standing : α → ρ} {key : α → κ}
variable {order : β → ο} {listed : List β} {value : β → α}

/-- In a list that increases, the winner has the highest rank under its key, and comes first
of those that have it. -/
theorem wins_map_iff
    (increasing : listed.Pairwise fun earlier later => order earlier < order later) {item : α} :
    Wins standing key (listed.map value) item ↔
      ∃ place ∈ listed, value place = item ∧ ∀ other ∈ listed,
        key (value other) = key (value place) →
          standing (value other) < standing (value place) ∨
            standing (value other) = standing (value place) ∧ order place ≤ order other := by
  constructor
  · rintro ⟨before, after, split, lower, notHigher⟩
    obtain ⟨sooner, others, rfl, rfl, tail⟩ := List.map_eq_append_iff.mp split
    obtain ⟨place, later, rfl, rfl, rfl⟩ := List.map_eq_cons_iff.mp tail
    have behind := (List.pairwise_cons.mp (List.pairwise_append.mp increasing).2.1).1
    refine ⟨place, by simp, rfl, fun other member same => ?_⟩
    rcases List.mem_append.mp member with early | late
    · exact Or.inl (lower _ (List.mem_map_of_mem early) same)
    · rcases List.mem_cons.mp late with rfl | late
      · exact Or.inr ⟨rfl, le_rfl⟩
      · rcases (notHigher _ (List.mem_map_of_mem late) same).lt_or_eq with less | level
        · exact Or.inl less
        · exact Or.inr ⟨level, (behind other late).le⟩
  · rintro ⟨place, member, rfl, best⟩
    obtain ⟨sooner, later, rfl⟩ := List.append_of_mem member
    have early := (List.pairwise_append.mp increasing).2.2
    refine ⟨sooner.map value, later.map value, by simp, ?_, ?_⟩
    · intro other listed same
      obtain ⟨own, present, rfl⟩ := List.mem_map.mp listed
      have before := early own present place List.mem_cons_self
      exact (best own (by simp [present]) same).resolve_right fun level =>
        absurd before (not_lt.mpr level.2)
    · intro other listed same
      obtain ⟨own, present, rfl⟩ := List.mem_map.mp listed
      rcases best own (by simp [present]) same with less | level
      · exact less.le
      · exact level.1.le

/-- In a list that increases, one key comes up before another when an item has it that
precedes all items of the other. -/
theorem firstAt_map_lt_iff [DecidableEq κ]
    (increasing : listed.Pairwise fun earlier later => order earlier < order later) {k k' : κ} :
    firstAt key (listed.map value) k < firstAt key (listed.map value) k' ↔
      ∃ place ∈ listed, key (value place) = k ∧ ∀ other ∈ listed,
        key (value other) = k' → order place < order other := by
  induction listed with
  | nil => simp [firstAt]
  | cons first rest ih =>
      obtain ⟨least, increasing⟩ := List.pairwise_cons.mp increasing
      unfold firstAt at ih ⊢
      rw [List.map_cons, List.findIdx_cons, List.findIdx_cons]
      by_cases own : key (value first) = k
      · by_cases other : key (value first) = k'
        · simp only [decide_eq_true own, decide_eq_true other, cond_true]
          refine iff_of_false (lt_irrefl 0) ?_
          rintro ⟨place, member, same, before⟩
          exact lt_irrefl _ (before place member (same.trans (own.symm.trans other)))
        · simp only [decide_eq_true own, decide_eq_false other, cond_true, cond_false]
          refine iff_of_true (Nat.succ_pos _) ⟨first, by simp, own, ?_⟩
          intro place member same
          rcases List.mem_cons.mp member with rfl | later
          · exact absurd same other
          · exact least place later
      · by_cases other : key (value first) = k'
        · simp only [decide_eq_false own, decide_eq_true other, cond_true, cond_false]
          refine iff_of_false (Nat.not_lt_zero _) ?_
          rintro ⟨place, member, same, before⟩
          rcases List.mem_cons.mp member with rfl | later
          · exact own same
          · exact absurd (before first (by simp) other) (not_lt.mpr (least place later).le)
        · simp only [decide_eq_false own, decide_eq_false other, cond_false,
            Nat.add_lt_add_iff_right]
          rw [ih increasing]
          simp [own, other]

end Increasing

variable {α : Type u} {ρ : Type v} [LinearOrder ρ] (rank : α → ρ)

/-- How many items of the list come before the one at the position: those of a higher rank,
and those of the same rank that stand earlier. -/
def ahead (items : List α) (position : ℕ) (item : α) : ℕ :=
  items.zipIdx.countP fun other =>
    decide (rank item < rank other.1 ∨ rank other.1 = rank item ∧ other.2 < position)

namespace Place

/-- Fewer than `count` items of its list come before it. -/
def Taken (count : ℕ) (lists : List (List α)) (place : Place α) : Prop :=
  ∃ items, lists[place.list]? = some items ∧ items[place.position]? = some place.item ∧
    ahead rank items place.position place.item < count

/-- An earlier list comes first, in a list the higher rank, and of one rank the earlier
position. -/
def order (place : Place α) : ℕ ×ₗ ρᵒᵈ ×ₗ ℕ :=
  toLex (place.list, toLex (OrderDual.toDual (rank place.item), place.position))

theorem order_lt_iff {place other : Place α} :
    place.order rank < other.order rank ↔ place.list < other.list ∨ place.list = other.list ∧
      (rank other.item < rank place.item ∨
        rank place.item = rank other.item ∧ place.position < other.position) := by
  unfold order
  simp [Prod.Lex.toLex_lt_toLex]

end Place

/-! ## One list -/

section One
variable (index count : ℕ) (items : List α)

def places : List (Place α) :=
  items.zipIdx.map fun entry => ⟨index, entry.2, entry.1⟩

def taken : List (Place α) :=
  largest (fun place => rank place.item) count (places index items)

variable {index count items}

theorem mem_places {place : Place α} :
    place ∈ places index items ↔
      place.list = index ∧ items[place.position]? = some place.item := by
  unfold places
  rw [List.mem_map]
  constructor
  · rintro ⟨entry, listed, rfl⟩
    exact ⟨rfl, List.mem_zipIdx_iff_getElem?.mp listed⟩
  · rintro ⟨rfl, present⟩
    exact ⟨(place.item, place.position), List.mem_zipIdx_iff_getElem?.mpr present, rfl⟩

variable (index count items)

theorem map_item_places : (places index items).map Place.item = items := by
  unfold places
  rw [List.map_map]
  exact List.zipIdx_map_fst 0 items

theorem places_increasing :
    (places index items).Pairwise fun earlier later => earlier.position < later.position := by
  have positions : ((places index items).map Place.position).Pairwise (· < ·) := by
    unfold places
    rw [List.map_map]
    exact (List.zipIdx_map_snd 0 items) ▸ List.pairwise_lt_range'
  exact List.pairwise_map.mp positions

theorem map_item_taken :
    (taken rank index count items).map Place.item = largest rank count items := by
  have reordered : (sorted (fun place : Place α => OrderDual.toDual (rank place.item))
      (places index items)).map Place.item =
        sorted (fun item => OrderDual.toDual (rank item)) ((places index items).map Place.item) :=
    List.map_insertionSort _ _ _ _ fun _ _ _ _ => Iff.rfl
  unfold taken largest
  rw [List.map_take, reordered, map_item_places]

theorem taken_increasing :
    (taken rank index count items).Pairwise fun earlier later =>
      earlier.order rank < later.order rank := by
  have stable := largest_stable (fun place : Place α => rank place.item) count
    (places_increasing index items)
  refine stable.imp_of_mem ?_
  intro earlier later member member' before
  have same := (mem_places.mp (mem_of_mem_largest _ member)).1
  have same' := (mem_places.mp (mem_of_mem_largest _ member')).1
  exact (Place.order_lt_iff rank).mpr (Or.inr ⟨same.trans same'.symm, before⟩)

variable {index count items}

theorem mem_taken_iff {place : Place α} :
    place ∈ taken rank index count items ↔
      place.list = index ∧ items[place.position]? = some place.item ∧
        ahead rank items place.position place.item < count := by
  let before (place other : Place α) : Prop :=
    rank other.item < rank place.item ∨
      rank place.item = rank other.item ∧ place.position < other.position
  have asymmetric : ∀ place other, before place other → ¬ before other place := by
    rintro place other (higher | ⟨same, first⟩) (higher' | ⟨same', first'⟩)
    · exact lt_asymm higher higher'
    · exact higher.ne same'
    · exact higher'.ne same
    · exact lt_asymm first first'
  have stable := sorted_stable (fun place : Place α => OrderDual.toDual (rank place.item))
    (places_increasing index items)
  have counted : (places index items).countP (fun other => decide (before other place)) =
      ahead rank items place.position place.item := by
    unfold places ahead
    rw [List.countP_map]
    rfl
  unfold taken largest
  rw [mem_take_iff before asymmetric stable, mem_sorted, mem_places,
    (sorted_perm _ _).countP_eq, counted, and_assoc]

end One

/-! ## All of them -/

section All
variable (count : ℕ) (lists : List (List α))

def listing : List (Place α) :=
  lists.zipIdx.flatMap fun entry => taken rank entry.2 count entry.1

theorem map_item_listing :
    (listing rank count lists).map Place.item = lists.flatMap (largest rank count) := by
  unfold listing
  rw [List.map_flatMap]
  simp only [map_item_taken]
  rw [← List.flatMap_map Prod.fst, List.zipIdx_map_fst]

theorem mem_listing {place : Place α} :
    place ∈ listing rank count lists ↔ place.Taken rank count lists := by
  unfold listing Place.Taken
  rw [List.mem_flatMap]
  constructor
  · rintro ⟨entry, listed, member⟩
    obtain ⟨same, present, few⟩ := (mem_taken_iff rank).mp member
    rw [same]
    exact ⟨entry.1, List.mem_zipIdx_iff_getElem?.mp listed, present, few⟩
  · rintro ⟨items, listed, present, few⟩
    exact ⟨(items, place.list), List.mem_zipIdx_iff_getElem?.mpr listed,
      (mem_taken_iff rank).mpr ⟨rfl, present, few⟩⟩

theorem listing_increasing :
    (listing rank count lists).Pairwise fun earlier later =>
      earlier.order rank < later.order rank := by
  have indices : lists.zipIdx.Pairwise fun earlier later => earlier.2 < later.2 :=
    List.pairwise_map.mp ((List.zipIdx_map_snd 0 lists) ▸ List.pairwise_lt_range')
  unfold listing
  refine List.pairwise_flatMap.mpr ⟨fun entry _ => taken_increasing rank _ _ _, ?_⟩
  refine indices.imp ?_
  intro entry entry' before place member place' member'
  rw [Place.order_lt_iff, ((mem_taken_iff rank).mp member).1, ((mem_taken_iff rank).mp member').1]
  exact Or.inl before

variable {κ : Type w} {σ : Type x} [LinearOrder σ] (standing : α → σ) (key : α → κ)

/-- The place is the first of the highest standing under its key among those that are taken. -/
structure Place.Represents (place : Place α) : Prop where
  taken : place.Taken rank count lists
  best : ∀ other : Place α, other.Taken rank count lists → key other.item = key place.item →
    standing other.item < standing place.item ∨
      standing other.item = standing place.item ∧ place.order rank ≤ other.order rank

/-- One of the places under the one key that are taken comes before all under the other. -/
def Precedes (k k' : κ) : Prop :=
  ∃ place : Place α, place.Taken rank count lists ∧ key place.item = k ∧
    ∀ other : Place α, other.Taken rank count lists → key other.item = k' →
      place.order rank < other.order rank

variable {rank count lists standing key}

theorem Place.Taken.eq_of_order {place other : Place α} (taken : place.Taken rank count lists)
    (taken' : other.Taken rank count lists) (same : place.order rank = other.order rank) :
    place = other := by
  obtain ⟨items, listed, present, _⟩ := taken
  obtain ⟨items', listed', present', _⟩ := taken'
  have parts := toLex.injective same
  have list : place.list = other.list := congrArg Prod.fst parts
  have position : place.position = other.position :=
    congrArg (fun part => (ofLex part.2).2) parts
  rw [list, listed', Option.some.injEq] at listed
  subst listed
  rw [position, present', Option.some.injEq] at present
  exact Place.ext list position present.symm

theorem Place.Represents.le {place other : Place α}
    (represents : place.Represents rank count lists standing key)
    (taken : other.Taken rank count lists) (same : key other.item = key place.item) :
    standing other.item ≤ standing place.item := by
  rcases represents.best other taken same with lower | ⟨level, _⟩
  · exact lower.le
  · exact level.le

theorem Place.Represents.eq {place other : Place α}
    (represents : place.Represents rank count lists standing key)
    (represents' : other.Represents rank count lists standing key)
    (same : key place.item = key other.item) : place = other := by
  have level : standing place.item = standing other.item :=
    le_antisymm (represents'.le represents.taken same) (represents.le represents'.taken same.symm)
  have first := (represents.best other represents'.taken same.symm).resolve_left level.not_gt
  have first' := (represents'.best place represents.taken same).resolve_left level.not_lt
  exact represents.taken.eq_of_order represents'.taken (le_antisymm first.2 first'.2)

theorem wins_flatMap_iff {item : α} :
    Wins standing key (lists.flatMap (largest rank count)) item ↔
      ∃ place : Place α, place.Represents rank count lists standing key ∧ place.item = item := by
  rw [← map_item_listing, wins_map_iff (listing_increasing rank count lists)]
  refine exists_congr fun place => ?_
  rw [mem_listing]
  simp only [mem_listing]
  constructor
  · rintro ⟨taken, same, best⟩
    exact ⟨{ taken := taken, best := best }, same⟩
  · rintro ⟨represents, same⟩
    exact ⟨represents.taken, same, represents.best⟩

theorem firstAt_flatMap_lt_iff [DecidableEq κ] {k k' : κ} :
    firstAt key (lists.flatMap (largest rank count)) k <
        firstAt key (lists.flatMap (largest rank count)) k' ↔
      Precedes rank count lists key k k' := by
  rw [← map_item_listing, firstAt_map_lt_iff (listing_increasing rank count lists)]
  simp only [mem_listing]
  rfl

end All

end Ranking
