import Eis.Context.Retrieval

/-!
# What deduplication keeps

`deduplicate` keeps the best item of each content, where the content first stood.
-/

set_option autoImplicit false

namespace Eis.Context

/-- What is kept of the items: each content once, in the order in which the contents first
appear, and by the first of its items of the highest authority and score.  Another order
of the items keeps another item of a content only where two are tied for the highest. -/
structure KeepsBest (builtins : Builtins) (items : List ContextItem) : Prop where
  distinct : ((deduplicate builtins items).map (contentKey builtins)).Nodup
  complete : ∀ k, k ∈ (deduplicate builtins items).map (contentKey builtins) ↔
    k ∈ items.map (contentKey builtins)
  ordered : (deduplicate builtins items).Pairwise fun earlier later =>
    Ranking.firstAt (contentKey builtins) items (contentKey builtins earlier) <
      Ranking.firstAt (contentKey builtins) items (contentKey builtins later)
  best : ∀ kept ∈ deduplicate builtins items, ∃ before after, items = before ++ kept :: after ∧
    (∀ other ∈ before, contentKey builtins other = contentKey builtins kept →
      standing other < standing kept) ∧
    ∀ other ∈ after, contentKey builtins other = contentKey builtins kept →
      standing other ≤ standing kept
  permuted : ∀ others, items.Perm others → ∀ kept ∈ deduplicate builtins items,
    ∀ kept' ∈ deduplicate builtins others, contentKey builtins kept' = contentKey builtins kept →
      kept' ≠ kept →
        kept ∈ items ∧ kept' ∈ items ∧ standing kept' = standing kept ∧
          ∀ other ∈ items, contentKey builtins other = contentKey builtins kept →
            standing other ≤ standing kept

theorem contents_deduplicate (builtins : Builtins) (items : List ContextItem) (k : String) :
    k ∈ (deduplicate builtins items).map (contentKey builtins) ↔
      k ∈ items.map (contentKey builtins) := by
  unfold deduplicate
  rw [Ranking.map_key_winners, Ranking.keys_best, List.mem_map]

theorem deduplicate_keeps_best (builtins : Builtins) (items : List ContextItem) :
    KeepsBest builtins items := by
  refine
    { distinct := Ranking.winners_distinct items
      complete := contents_deduplicate builtins items
      ordered := Ranking.winners_ordered items
      best := fun kept listed => Ranking.mem_winners.mp listed
      permuted := ?permuted }
  intro others perm kept listed kept' listed' same _
  have wins := Ranking.mem_winners.mp listed
  have wins' := Ranking.mem_winners.mp listed'
  exact ⟨wins.mem, perm.mem_iff.mpr wins'.mem, wins.rank_eq_of_perm perm wins' same,
    fun other member equal => wins.le member equal⟩

end Eis.Context
