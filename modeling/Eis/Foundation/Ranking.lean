import Mathlib.Data.List.Sort
import Mathlib.Order.OrderDual
import Eis.Foundation.OrderedDict

/-!
# Ranking

`sorted(items, key=rank)` and `heapq.nlargest`, which keep the order of items of
one rank, and the loop that keeps for each key the first item of highest rank.
-/

set_option autoImplicit false

universe u v w

namespace Ranking

variable {α : Type u} {ρ : Type v} [LinearOrder ρ] (rank : α → ρ)

def sorted (items : List α) : List α :=
  items.insertionSort fun earlier later => rank earlier ≤ rank later

/-- `heapq.nlargest(count, items, key=rank)` -/
def largest (count : ℕ) (items : List α) : List α :=
  (sorted (fun item => OrderDual.toDual (rank item)) items).take count

section Sorted

instance rank_total : Std.Total fun earlier later : α => rank earlier ≤ rank later :=
  ⟨fun earlier later => le_total (rank earlier) (rank later)⟩

instance rank_trans : IsTrans α fun earlier later : α => rank earlier ≤ rank later :=
  ⟨fun _ _ _ first second => le_trans first second⟩

theorem sorted_pairwise (items : List α) :
    (sorted rank items).Pairwise fun earlier later => rank earlier ≤ rank later :=
  List.pairwise_insertionSort _ items

@[simp] theorem mem_sorted {items : List α} {item : α} :
    item ∈ sorted rank items ↔ item ∈ items :=
  List.mem_insertionSort _

theorem sorted_perm (items : List α) : (sorted rank items).Perm items :=
  List.perm_insertionSort _ items

theorem filter_orderedInsert (kept : α → Bool) (item : α) {items : List α}
    (ordered : items.Pairwise fun earlier later => rank earlier ≤ rank later) :
    (items.orderedInsert (fun earlier later => rank earlier ≤ rank later) item).filter kept =
      if kept item then
        (items.filter kept).orderedInsert (fun earlier later => rank earlier ≤ rank later) item
      else items.filter kept := by
  induction items with
  | nil => by_cases stays : kept item <;> simp [stays]
  | cons first rest ih =>
      obtain ⟨least, ordered⟩ := List.pairwise_cons.mp ordered
      rw [List.orderedInsert_cons]
      by_cases before : rank item ≤ rank first
      · rw [if_pos before]
        by_cases stays : kept item
        · have front : ∀ other ∈ (first :: rest).filter kept, rank item ≤ rank other := by
            intro other member
            cases List.mem_cons.mp (List.mem_filter.mp member).1 with
            | inl same =>
                rw [same]
                exact before
            | inr later => exact le_trans before (least other later)
          have inserted : ((first :: rest).filter kept).orderedInsert
              (fun earlier later => rank earlier ≤ rank later) item =
                item :: (first :: rest).filter kept := by
            cases remaining : (first :: rest).filter kept with
            | nil => rfl
            | cons next others =>
                rw [remaining] at front
                exact List.orderedInsert_cons_of_le _ _ (front next List.mem_cons_self)
          rw [if_pos stays, inserted, List.filter_cons_of_pos stays]
        · rw [if_neg stays, List.filter_cons_of_neg stays]
      · rw [if_neg before, List.filter_cons, ih ordered, List.filter_cons]
        by_cases stays : kept item
        · by_cases firstStays : kept first
          · simp [stays, firstStays, before]
          · simp [stays, firstStays]
        · by_cases firstStays : kept first
          · simp [stays, firstStays]
          · simp [stays, firstStays]

/-- Leaving items out before sorting is the same as leaving them out after it. -/
theorem filter_sorted (kept : α → Bool) (items : List α) :
    (sorted rank items).filter kept = sorted rank (items.filter kept) := by
  induction items with
  | nil => rfl
  | cons item rest ih =>
      have step : sorted rank (item :: rest) = (sorted rank rest).orderedInsert
          (fun earlier later => rank earlier ≤ rank later) item := rfl
      rw [step, filter_orderedInsert rank kept item (sorted_pairwise rank rest), ih]
      by_cases stays : kept item
      · rw [if_pos stays, List.filter_cons_of_pos stays]
        rfl
      · rw [if_neg stays, List.filter_cons_of_neg stays]

theorem sorted_of_same_rank {items : List α} {r : ρ} (same : ∀ item ∈ items, rank item = r) :
    sorted rank items = items := by
  apply List.Pairwise.insertionSort_eq
  apply List.pairwise_of_forall_mem_list
  intro earlier present later present'
  rw [same earlier present, same later present']

theorem filter_rank_sorted (items : List α) (r : ρ) :
    ((sorted rank items).filter fun item => decide (rank item = r)) =
      items.filter fun item => decide (rank item = r) := by
  rw [filter_sorted]
  apply sorted_of_same_rank rank
  intro item member
  exact of_decide_eq_true (List.mem_filter.mp member).2

/-- Two ordered lists are the same when they agree on every rank. -/
theorem eq_of_same_ranks {items others : List α}
    (ordered : items.Pairwise fun earlier later => rank earlier ≤ rank later)
    (ordered' : others.Pairwise fun earlier later => rank earlier ≤ rank later)
    (same : ∀ r, (items.filter fun item => decide (rank item = r)) =
      others.filter fun item => decide (rank item = r)) : items = others := by
  induction items generalizing others with
  | nil =>
      cases others with
      | nil => rfl
      | cons first rest =>
          have nothing := same (rank first)
          simp at nothing
  | cons item rest ih =>
      cases others with
      | nil =>
          have nothing := same (rank item)
          simp at nothing
      | cons first rest' =>
          have there : item ∈ first :: rest' := by
            have present : item ∈ (item :: rest).filter fun other =>
                decide (rank other = rank item) := by simp
            rw [same (rank item)] at present
            exact (List.mem_filter.mp present).1
          have here : first ∈ item :: rest := by
            have present : first ∈ (first :: rest').filter fun other =>
                decide (rank other = rank first) := by simp
            rw [← same (rank first)] at present
            exact (List.mem_filter.mp present).1
          obtain ⟨least, orderedRest⟩ := List.pairwise_cons.mp ordered
          obtain ⟨least', orderedRest'⟩ := List.pairwise_cons.mp ordered'
          have below : rank item ≤ rank first := by
            cases List.mem_cons.mp here with
            | inl equal => rw [equal]
            | inr later => exact least first later
          have above : rank first ≤ rank item := by
            cases List.mem_cons.mp there with
            | inl equal => rw [equal]
            | inr later => exact least' item later
          have tied : rank first = rank item := le_antisymm above below
          have heads := same (rank item)
          rw [List.filter_cons_of_pos (by simp), List.filter_cons_of_pos (by simp [tied])] at heads
          obtain ⟨equal, _⟩ := List.cons.inj heads
          subst equal
          have tails : rest = rest' := by
            apply ih orderedRest orderedRest'
            intro r
            have all := same r
            by_cases own : rank item = r
            · rw [List.filter_cons_of_pos (by simp [own]),
                List.filter_cons_of_pos (by simp [own])] at all
              exact (List.cons.inj all).2
            · rw [List.filter_cons_of_neg (by simp [own]),
                List.filter_cons_of_neg (by simp [own])] at all
              exact all
          rw [tails]

theorem sorted_eq_iff (items others : List α) :
    sorted rank items = sorted rank others ↔
      ∀ r, (items.filter fun item => decide (rank item = r)) =
        others.filter fun item => decide (rank item = r) := by
  constructor
  · intro same r
    rw [← filter_rank_sorted rank items r, same, filter_rank_sorted]
  · intro same
    apply eq_of_same_ranks rank (sorted_pairwise rank items) (sorted_pairwise rank others)
    intro r
    rw [filter_rank_sorted, filter_rank_sorted]
    exact same r

theorem sorted_stable {before : α → α → Prop} {items : List α} (ordered : items.Pairwise before) :
    (sorted rank items).Pairwise fun earlier later =>
      rank earlier < rank later ∨ rank earlier = rank later ∧ before earlier later := by
  refine List.pairwise_iff_forall_sublist.mpr ?_
  intro earlier later pair
  have below := List.pairwise_iff_forall_sublist.mp (sorted_pairwise rank items) pair
  rcases below.lt_or_eq with lower | same
  · exact Or.inl lower
  · refine Or.inr ⟨same, List.pairwise_iff_forall_sublist.mp ordered ?_⟩
    have level := pair.filter fun item => decide (rank item = rank later)
    rw [filter_rank_sorted] at level
    have both : [earlier, later].filter (fun item => decide (rank item = rank later)) =
        [earlier, later] := by simp [same]
    exact (both ▸ level).trans List.filter_sublist

end Sorted

theorem largest_stable {before : α → α → Prop} {items : List α} (count : ℕ)
    (ordered : items.Pairwise before) :
    (largest rank count items).Pairwise fun earlier later =>
      rank later < rank earlier ∨ rank earlier = rank later ∧ before earlier later := by
  have stable := sorted_stable (fun item => OrderDual.toDual (rank item)) ordered
  refine (stable.sublist (List.take_sublist count _)).imp ?_
  rintro earlier later (lower | ⟨same, first⟩)
  · exact Or.inl lower
  · exact Or.inr ⟨same, first⟩

/-- An item that is left out comes after all that are taken, and then as many
are taken as were asked for. -/
theorem largest_complete {before : α → α → Prop} {items : List α} {count : ℕ} {item : α}
    (ordered : items.Pairwise before) (member : item ∈ items)
    (omitted : item ∉ largest rank count items) :
    (largest rank count items).length = count ∧ ∀ kept ∈ largest rank count items,
      rank item < rank kept ∨ rank kept = rank item ∧ before kept item := by
  have stable := sorted_stable (fun item => OrderDual.toDual (rank item)) ordered
  unfold largest at omitted ⊢
  have listed := (mem_sorted fun item => OrderDual.toDual (rank item)).mpr member
  rw [← List.take_append_drop count (sorted _ items)] at listed stable
  have later := (List.mem_append.mp listed).resolve_left omitted
  constructor
  · have short := List.length_pos_of_mem later
    rw [List.length_drop] at short
    rw [List.length_take]
    omega
  · intro kept taken
    exact (List.pairwise_append.mp stable).2.2 kept taken item later

theorem mem_of_mem_largest {count : ℕ} {items : List α} {item : α}
    (member : item ∈ largest rank count items) : item ∈ items :=
  (mem_sorted _).mp (List.mem_of_mem_take member)

/-! ## Positions -/

section Positions
variable {position position' : α → ℕ} {items others : List α}

theorem lt_of_increasing
    (increasing : items.Pairwise fun earlier later => position earlier < position later)
    (increasing' : items.Pairwise fun earlier later => position' earlier < position' later)
    {item other : α} (member : item ∈ items) (member' : other ∈ items)
    (before : position item < position other) : position' item < position' other := by
  induction items with
  | nil => cases member
  | cons first rest ih =>
      obtain ⟨least, increasing⟩ := List.pairwise_cons.mp increasing
      obtain ⟨least', increasing'⟩ := List.pairwise_cons.mp increasing'
      cases List.mem_cons.mp member with
      | inl same =>
          cases List.mem_cons.mp member' with
          | inl same' =>
              rw [same, same'] at before
              exact absurd before (lt_irrefl _)
          | inr behind =>
              rw [same]
              exact least' other behind
      | inr behind =>
          cases List.mem_cons.mp member' with
          | inl same' =>
              rw [same'] at before
              exact absurd before (not_lt.mpr (least item behind).le)
          | inr behind' => exact ih increasing increasing' behind behind'

theorem eq_of_increasing
    (increasing : items.Pairwise fun earlier later => position earlier < position later)
    (increasing' : others.Pairwise fun earlier later => position earlier < position later)
    (same : ∀ item, item ∈ items ↔ item ∈ others) : items = others := by
  have irreflexive : Std.Irrefl fun earlier later : α => position earlier < position later :=
    ⟨fun item => lt_irrefl (position item)⟩
  have antisymmetric : Std.Antisymm fun earlier later : α => position earlier < position later :=
    ⟨fun _ _ before after => absurd before (not_lt.mpr after.le)⟩
  exact List.Pairwise.eq_of_mem_iff increasing increasing' same

end Positions

/-! ## The best item of each key -/

section Best
variable {κ : Type w} (key : α → κ)

/-- The item is the first of the highest rank under its key. -/
def Wins (items : List α) (item : α) : Prop :=
  ∃ before after, items = before ++ item :: after ∧
    (∀ other ∈ before, key other = key item → rank other < rank item) ∧
    ∀ other ∈ after, key other = key item → rank other ≤ rank item

variable {rank key}

theorem Wins.mem {items : List α} {item : α} (wins : Wins rank key items item) :
    item ∈ items := by
  obtain ⟨before, after, rfl, _⟩ := wins
  simp

theorem Wins.le {items : List α} {item other : α} (wins : Wins rank key items item)
    (member : other ∈ items) (same : key other = key item) : rank other ≤ rank item := by
  obtain ⟨before, after, rfl, lower, notHigher⟩ := wins
  rcases List.mem_append.mp member with earlier | later
  · exact (lower other earlier same).le
  · cases List.mem_cons.mp later with
    | inl equal => rw [equal]
    | inr behind => exact notHigher other behind same

theorem Wins.rank_eq_of_perm {items others : List α} {item other : α} (perm : items.Perm others)
    (wins : Wins rank key items item) (wins' : Wins rank key others other)
    (same : key other = key item) : rank other = rank item :=
  le_antisymm (wins.le (perm.mem_iff.mpr wins'.mem) same)
    (wins'.le (perm.mem_iff.mp wins.mem) same.symm)

/-- One more item at the end: it is outdone, or it outdoes all before it. -/
theorem wins_snoc_iff {items : List α} {last item : α} :
    Wins rank key (items ++ [last]) item ↔
      Wins rank key items item ∧ (key last = key item → rank last ≤ rank item) ∨
        item = last ∧ ∀ other ∈ items, key other = key last → rank other < rank last := by
  constructor
  · intro ⟨before, after, split, lower, notHigher⟩
    rcases List.eq_nil_or_concat after with rfl | ⟨between, final, rfl⟩
    · obtain ⟨rfl, same⟩ := List.append_inj' split rfl
      obtain rfl : last = item := by simpa using same
      exact Or.inr ⟨rfl, lower⟩
    · have regrouped : items ++ [last] = (before ++ item :: between) ++ [final] := by
        simpa using split
      obtain ⟨rfl, same⟩ := List.append_inj' regrouped rfl
      obtain rfl : last = final := by simpa using same
      refine Or.inl ⟨⟨before, between, rfl, lower, ?_⟩, ?_⟩
      · intro other member
        exact notHigher other (by simp [member])
      · exact notHigher last (by simp)
  · intro either
    rcases either with ⟨⟨before, after, rfl, lower, notHigher⟩, outdone⟩ | ⟨rfl, lower⟩
    · refine ⟨before, after ++ [last], by simp, lower, ?_⟩
      intro other member
      cases List.mem_append.mp member with
      | inl behind => exact notHigher other behind
      | inr final =>
          obtain rfl := List.mem_singleton.mp final
          exact outdone
    · refine ⟨items, [], rfl, lower, ?_⟩
      intro other member
      cases member

section Keys
variable [DecidableEq κ]

def prefer (rank : α → ρ) (key : α → κ) (best : OrderedDict κ α) (item : α) :
    OrderedDict κ α :=
  match best.get? (key item) with
  | none => best.setItem (key item) item
  | some current =>
      if rank current < rank item then best.setItem (key item) item else best

def best (rank : α → ρ) (key : α → κ) (items : List α) : OrderedDict κ α :=
  items.foldl (prefer rank key) Table.empty

theorem get?_prefer (dict : OrderedDict κ α) (item : α) (k : κ) :
    (prefer rank key dict item).get? k =
      if k = key item then
        match dict.get? (key item) with
        | none => some item
        | some current => if rank current < rank item then some item else some current
      else dict.get? k := by
  unfold prefer
  cases found : dict.get? (key item) with
  | none => simp [OrderedDict.get?_setItem]
  | some current =>
      by_cases higher : rank current < rank item
      · simp [higher, OrderedDict.get?_setItem]
      · by_cases own : k = key item
        · simp [higher, own, found]
        · simp [higher, own]

theorem best_snoc (items : List α) (last : α) :
    best rank key (items ++ [last]) = prefer rank key (best rank key items) last := by
  unfold best
  rw [List.foldl_append]
  rfl

theorem keys_best (items : List α) (k : κ) :
    k ∈ (best rank key items).rows.map Prod.fst ↔ ∃ item ∈ items, key item = k := by
  induction items using List.reverseRecOn with
  | nil => simp [best, Table.empty]
  | append_singleton items last ih =>
      have absent := OrderedDict.get?_eq_none_iff (best rank key (items ++ [last])) k
      have absent' := OrderedDict.get?_eq_none_iff (best rank key items) k
      rw [← not_iff_not, ← absent, best_snoc, get?_prefer]
      by_cases own : k = key last
      · subst own
        rw [if_pos rfl]
        have some : ∃ item ∈ items ++ [last], key item = key last := ⟨last, by simp, rfl⟩
        simp only [some, not_true_eq_false, iff_false]
        split
        · simp
        · split <;> simp
      · rw [if_neg own, absent', not_iff_not, ih]
        simp [Ne.symm own, or_and_right, exists_or]

/-- Under each key stands the item that wins. -/
theorem get?_best (items : List α) (k : κ) (item : α) :
    (best rank key items).get? k = some item ↔ key item = k ∧ Wins rank key items item := by
  induction items using List.reverseRecOn generalizing item with
  | nil =>
      simp only [best, List.foldl_nil]
      constructor
      · intro found
        cases found
      · rintro ⟨_, wins⟩
        cases wins.mem
  | append_singleton items last ih =>
      rw [best_snoc, get?_prefer, wins_snoc_iff]
      by_cases own : k = key last
      · subst own
        rw [if_pos rfl]
        cases found : (best rank key items).get? (key last) with
        | none =>
            have fresh : ∀ other ∈ items, key other ≠ key last := by
              intro other member same
              exact (OrderedDict.get?_eq_none_iff _ _).mp found
                ((keys_best items (key last)).mpr ⟨other, member, same⟩)
            constructor
            · intro same
              obtain rfl := Option.some.inj same
              refine ⟨rfl, Or.inr ⟨rfl, ?_⟩⟩
              intro other member same
              exact absurd same (fresh other member)
            · rintro ⟨same, either⟩
              cases either with
              | inl earlier => exact absurd same (fresh item earlier.1.mem)
              | inr final => rw [final.1]
        | some current =>
            obtain ⟨sameKey, wins⟩ := (ih current).mp found
            by_cases higher : rank current < rank last
            · simp only [if_pos higher]
              constructor
              · intro same
                obtain rfl := Option.some.inj same
                refine ⟨rfl, Or.inr ⟨rfl, ?_⟩⟩
                intro other member same
                exact lt_of_le_of_lt (wins.le member (same.trans sameKey.symm)) higher
              · rintro ⟨same, either⟩
                cases either with
                | inl earlier =>
                    have least : rank item ≤ rank current :=
                      wins.le earlier.1.mem (same.trans sameKey.symm)
                    exact absurd (lt_of_lt_of_le higher (earlier.2 same.symm)) (not_lt.mpr least)
                | inr final => rw [final.1]
            · simp only [if_neg higher]
              constructor
              · intro same
                obtain rfl := Option.some.inj same
                exact ⟨sameKey, Or.inl ⟨wins, fun _ => not_lt.mp higher⟩⟩
              · rintro ⟨same, either⟩
                cases either with
                | inl earlier => exact found.symm.trans ((ih item).mpr ⟨same, earlier.1⟩)
                | inr final => exact absurd (final.2 current wins.mem sameKey) higher
      · rw [if_neg own, ih]
        apply and_congr_right
        intro same
        constructor
        · intro wins
          refine Or.inl ⟨wins, ?_⟩
          intro same'
          exact absurd (same'.trans same).symm own
        · intro either
          cases either with
          | inl earlier => exact earlier.1
          | inr final =>
              rw [final.1] at same
              exact absurd same.symm own

def winners (rank : α → ρ) (key : α → κ) (items : List α) : List α :=
  (best rank key items).rows.map Prod.snd

theorem row_best {items : List α} {row : κ × α} (member : row ∈ (best rank key items).rows) :
    row.1 = key row.2 := by
  have found : (best rank key items).get? row.1 = some row.2 :=
    ((best rank key items).get?_eq_some_iff row.1 row.2).mpr member
  exact ((get?_best items row.1 row.2).mp found).1.symm

theorem mem_winners {items : List α} {item : α} :
    item ∈ winners rank key items ↔ Wins rank key items item := by
  unfold winners
  constructor
  · intro member
    obtain ⟨row, listed, rfl⟩ := List.mem_map.mp member
    have found : (best rank key items).get? row.1 = some row.2 :=
      ((best rank key items).get?_eq_some_iff row.1 row.2).mpr listed
    exact ((get?_best items row.1 row.2).mp found).2
  · intro wins
    have found := (get?_best items (key item) item).mpr ⟨rfl, wins⟩
    exact List.mem_map.mpr
      ⟨(key item, item), ((best rank key items).get?_eq_some_iff _ _).mp found, rfl⟩

theorem map_key_winners (items : List α) :
    (winners rank key items).map key = (best rank key items).rows.map Prod.fst := by
  unfold winners
  rw [List.map_map]
  apply List.map_congr_left
  intro row member
  exact (row_best member).symm

theorem winners_distinct (items : List α) : ((winners rank key items).map key).Nodup := by
  rw [map_key_winners]
  exact (best rank key items).keyed

theorem length_winners_le (items : List α) :
    (winners rank key items).length ≤ items.length := by
  have nodup : (winners rank key items).Nodup := (winners_distinct items).of_map key
  have listed : winners rank key items ⊆ items := fun _ member => (mem_winners.mp member).mem
  exact List.Nodup.length_le_of_subset nodup listed

def firstAt (key : α → κ) (items : List α) (k : κ) : ℕ :=
  items.findIdx fun item => decide (key item = k)

theorem firstAt_lt {items : List α} {item : α} (member : item ∈ items) :
    firstAt key items (key item) < items.length :=
  List.findIdx_lt_length_of_exists ⟨item, member, decide_eq_true rfl⟩

theorem firstAt_snoc {items : List α} {item : α} (member : item ∈ items) (last : α) :
    firstAt key (items ++ [last]) (key item) = firstAt key items (key item) := by
  have within : firstAt key items (key item) < items.length := firstAt_lt member
  unfold firstAt at within ⊢
  rw [List.findIdx_append, if_pos within]

theorem firstAt_snoc_fresh {items : List α} {last : α}
    (fresh : ∀ item ∈ items, key item ≠ key last) :
    firstAt key (items ++ [last]) (key last) = items.length := by
  have passed : firstAt key items (key last) = items.length := by
    apply List.findIdx_eq_length_of_false
    intro item member
    exact decide_eq_false (fresh item member)
  unfold firstAt at passed ⊢
  rw [List.findIdx_append, if_neg (by omega)]
  simp

theorem keys_prefer (dict : OrderedDict κ α) (item : α) :
    (prefer rank key dict item).rows.map Prod.fst =
      if key item ∈ dict.rows.map Prod.fst then dict.rows.map Prod.fst
      else dict.rows.map Prod.fst ++ [key item] := by
  unfold prefer
  cases found : dict.get? (key item) with
  | none => exact OrderedDict.keys_setItem _ _ _
  | some current =>
      by_cases higher : rank current < rank item
      · simp only [if_pos higher]
        exact OrderedDict.keys_setItem _ _ _
      · have listed : key item ∈ dict.rows.map Prod.fst := by
          by_contra missing
          rw [(OrderedDict.get?_eq_none_iff _ _).mpr missing] at found
          cases found
        simp only [if_neg higher]
        rw [if_pos listed]

theorem keys_ordered (items : List α) :
    ((best rank key items).rows.map Prod.fst).Pairwise fun earlier later =>
      firstAt key items earlier < firstAt key items later := by
  induction items using List.reverseRecOn with
  | nil => exact List.Pairwise.nil
  | append_singleton items last ih =>
      have kept : ((best rank key items).rows.map Prod.fst).Pairwise fun earlier later =>
          firstAt key (items ++ [last]) earlier < firstAt key (items ++ [last]) later := by
        apply ih.imp_of_mem
        intro earlier later listed listed' before
        obtain ⟨item, member, rfl⟩ := (keys_best items earlier).mp listed
        obtain ⟨item', member', rfl⟩ := (keys_best items later).mp listed'
        rw [firstAt_snoc member, firstAt_snoc member']
        exact before
      rw [best_snoc, keys_prefer]
      by_cases listed : key last ∈ (best rank key items).rows.map Prod.fst
      · rw [if_pos listed]
        exact kept
      · rw [if_neg listed]
        refine List.pairwise_append.mpr ⟨kept, List.pairwise_singleton _ _, ?_⟩
        intro earlier member later final
        obtain rfl := List.mem_singleton.mp final
        obtain ⟨item, present, rfl⟩ := (keys_best items earlier).mp member
        have fresh : ∀ other ∈ items, key other ≠ key last := by
          intro other present' same
          exact listed ((keys_best items (key last)).mpr ⟨other, present', same⟩)
        rw [firstAt_snoc present, firstAt_snoc_fresh fresh]
        exact firstAt_lt present

theorem winners_ordered (items : List α) :
    (winners rank key items).Pairwise fun earlier later =>
      firstAt key items (key earlier) < firstAt key items (key later) := by
  have keys : ((best rank key items).rows.map Prod.fst).Pairwise _ := keys_ordered items
  rw [← map_key_winners, List.pairwise_map] at keys
  exact keys

end Keys

end Best

end Ranking
