import Eis.Context.SourceKinds

/-!
# What the truncated flag says

The flag is set where the selection passes over an item.  What the retriever cuts off
before, to the same limit, leaves no mark.
-/

set_option autoImplicit false

namespace Eis.Context

/-! ## Selections without a mark -/

namespace ContextRequest

variable (request : ContextRequest)

theorem select_truncated (items : List ContextItem) {selection : Selection}
    (truncated : selection.truncated = true) :
    (request.select items selection).truncated = true := by
  induction items generalizing selection with
  | nil => exact truncated
  | cons item rest ih =>
      rw [select]
      split
      · rfl
      · split
        · exact ih rfl
        · exact ih truncated

theorem select_untruncated_iff (items : List ContextItem) {selection : Selection}
    (within : request.Within selection) (unmarked : selection.truncated = false) :
    (request.select items selection).truncated = false ↔
      (selection.selected ++ items).length ≤ request.limit ∧
        characters (selection.selected ++ items) ≤ request.maxCharacters := by
  induction items generalizing selection with
  | nil =>
      have few := within.characters
      rw [within.used] at few
      rw [List.append_nil]
      exact iff_of_true unmarked ⟨within.limit, few⟩
  | cons item rest ih =>
      rw [List.append_cons selection.selected item rest, select]
      split
      · rename_i full
        refine iff_of_false (fun unmarked => Bool.noConfusion unmarked) ?_
        rintro ⟨few, _⟩
        simp only [List.length_append, List.length_singleton] at few
        omega
      · split
        · rename_i large
          refine iff_of_false ?_ ?_
          · rw [request.select_truncated rest rfl]
            exact fun unmarked => Bool.noConfusion unmarked
          · rintro ⟨_, short⟩
            rw [characters_append, characters_append, characters_singleton, ← within.used] at short
            omega
        · rename_i free room
          refine ih { used := ?used, limit := ?limit, characters := ?characters } unmarked
          case used => simp [within.used]
          case limit =>
            rw [List.length_append, List.length_singleton]
            omega
          case characters =>
            rw [Nat.cast_add]
            omega

theorem select_of_untruncated (items : List ContextItem) {selection : Selection}
    (unmarked : (request.select items selection).truncated = false) :
    (request.select items selection).selected = selection.selected ++ items := by
  induction items generalizing selection with
  | nil => exact (List.append_nil _).symm
  | cons item rest ih =>
      rw [select] at unmarked ⊢
      split at unmarked
      · cases unmarked
      · rename_i free
        rw [if_neg free]
        split at unmarked
        · rw [request.select_truncated rest rfl] at unmarked
          cases unmarked
        · rename_i room
          rw [if_neg room, ih unmarked, List.append_assoc, List.singleton_append]

end ContextRequest

/-! ## Characters -/

theorem characters_perm {items others : List ContextItem} (perm : items.Perm others) :
    characters items = characters others := by
  unfold characters
  exact (perm.map fun item => item.content.length).sum_nat

theorem characters_le_of_subset {items others : List ContextItem} (distinct : items.Nodup)
    (within : items ⊆ others) : characters items ≤ characters others := by
  obtain ⟨middle, perm, sub⟩ := List.subperm_of_subset distinct within
  obtain ⟨rest, perm'⟩ := sub.exists_perm_append
  rw [characters_perm perm', characters_append, characters_perm perm]
  exact Nat.le_add_right _ _

/-! ## One store -/

namespace ContextBuilder

variable (builder : ContextBuilder) (store : InMemoryRetriever) (request : ContextRequest)

/-- Without the mark, the content of each matching item stands among what is returned. -/
def FlagTrustworthy : Prop :=
  (builder.build request).truncated = false →
    ∀ item ∈ store.matching builder.builtins request, ∃ out ∈ (builder.build request).items,
      contentKey builder.builtins out = contentKey builder.builtins item

/-- In the store fewer than `limit` matching items rank ahead of the one at the place, it is
the first of the highest authority and score of those of its content of which this is so, and
its score is not negative. -/
structure Speaks (place : Ranking.Place ContextItem) : Prop where
  represents : place.Represents KeywordRetriever.rank request.limit.toNat
    [store.offered builder.builtins (builder.query request) request] standing
    (contentKey builder.builtins)
  score : 0 ≤ place.item.score

/-- The items that speak for their contents are too long together, or some item speaks for
each that matches. -/
def LimitHarmless : Prop :=
  (∃ places : List (Ranking.Place ContextItem), places.Nodup ∧
    (∀ place ∈ places, builder.Speaks store request place) ∧
    request.maxCharacters < characters (places.map Ranking.Place.item)) ∨
  ∀ item ∈ store.matching builder.builtins request,
    ∃ place : Ranking.Place ContextItem, builder.Speaks store request place ∧
      contentKey builder.builtins place.item = contentKey builder.builtins item

variable {builder store request}

theorem mem_filtered_iff_speaks
    (alone : builder.retrievers = [store.retrieve builder.builtins])
    (kinds : request.sourceKinds = []) (minScore : request.minScore = 0) {item : ContextItem} :
    item ∈ builder.filtered request ↔
      ∃ place, builder.Speaks store request place ∧ place.item = item := by
  have retrieved : builder.retrieved request =
      [store.offered builder.builtins (builder.query request) request].flatMap
        (Ranking.largest KeywordRetriever.rank request.limit.toNat) := by
    unfold ContextBuilder.retrieved
    rw [alone, List.flatMap_singleton, List.flatMap_singleton]
    exact store.retrieve_eq_largest builder.builtins _ request
  have admits : request.admits item = true ↔ 0 ≤ item.score := by
    simp [ContextRequest.admits, kinds, minScore]
  rw [mem_filtered, admits]
  unfold deduplicate
  rw [Ranking.mem_winners, retrieved, Ranking.wins_flatMap_iff]
  constructor
  · rintro ⟨⟨place, represents, rfl⟩, score⟩
    exact ⟨place, { represents := represents, score := score }, rfl⟩
  · rintro ⟨place, speaks, rfl⟩
    exact ⟨⟨place, speaks.represents, rfl⟩, speaks.score⟩

theorem filtered_nodup (builder : ContextBuilder) (request : ContextRequest) :
    (builder.filtered request).Nodup :=
  ((Ranking.winners_distinct _).of_map _).filter _

theorem filtered_long_iff (alone : builder.retrievers = [store.retrieve builder.builtins])
    (kinds : request.sourceKinds = []) (minScore : request.minScore = 0) :
    request.maxCharacters < characters (builder.filtered request) ↔
      ∃ places : List (Ranking.Place ContextItem), places.Nodup ∧
        (∀ place ∈ places, builder.Speaks store request place) ∧
        request.maxCharacters < characters (places.map Ranking.Place.item) := by
  have speakers : ∀ item, item ∈ builder.filtered request ↔
      ∃ place, builder.Speaks store request place ∧ place.item = item :=
    fun item => mem_filtered_iff_speaks alone kinds minScore
  constructor
  · intro long
    have found : ∀ item ∈ builder.filtered request,
        ∃ place, builder.Speaks store request place ∧ place.item = item :=
      fun item => (speakers item).mp
    choose place speaks same using found
    let places := (builder.filtered request).attach.map fun item => place item.1 item.2
    have items : places.map Ranking.Place.item = builder.filtered request := by
      rw [List.map_map]
      refine (List.map_congr_left ?_).trans (List.attach_map_subtype_val _)
      intro item _
      exact same item.1 item.2
    refine ⟨places, List.Nodup.of_map _ (items ▸ builder.filtered_nodup request), ?_, ?_⟩
    · intro listed member
      obtain ⟨item, _, rfl⟩ := List.mem_map.mp member
      exact speaks item.1 item.2
    · rw [items]
      exact long
  · rintro ⟨places, distinct, speaks, long⟩
    have nodup : (places.map Ranking.Place.item).Nodup := by
      refine distinct.map_on ?_
      intro place member other member' same
      exact (speaks place member).represents.eq (speaks other member').represents
        (congrArg (contentKey builder.builtins) same)
    have listed : places.map Ranking.Place.item ⊆ builder.filtered request := by
      intro item member
      obtain ⟨place, present, rfl⟩ := List.mem_map.mp member
      exact (speakers _).mpr ⟨place, speaks place present, rfl⟩
    have fewer := characters_le_of_subset nodup listed
    omega

theorem length_ranked (builder : ContextBuilder) (request : ContextRequest) :
    (builder.ranked request).length = (builder.filtered request).length := by
  unfold ranked ContextScorer.rank
  rw [(Ranking.sorted_perm _ _).length_eq, List.length_map]

theorem characters_ranked (builder : ContextBuilder) (request : ContextRequest) :
    characters (builder.ranked request) = characters (builder.filtered request) := by
  unfold ranked ContextScorer.rank
  rw [characters_perm (Ranking.sorted_perm _ _)]
  unfold characters
  rw [List.map_map]
  rfl

theorem ranked_within_limit (request : ContextRequest)
    (alone : builder.retrievers = [store.retrieve builder.builtins]) :
    (builder.ranked request).length ≤ request.limit := by
  have positive := request.positive.1
  have cut : (builder.retrieved request).length ≤ request.limit.toNat := by
    unfold retrieved
    rw [alone, List.flatMap_singleton, store.retrieve_eq_largest builder.builtins _ request]
    exact List.length_take_le _ _
  have distinct : (deduplicate builder.builtins (builder.retrieved request)).length ≤
      (builder.retrieved request).length := Ranking.length_winners_le _
  have kept : (builder.filtered request).length ≤
      (deduplicate builder.builtins (builder.retrieved request)).length :=
    List.length_filter_le _ _
  rw [length_ranked]
  omega

theorem build_untruncated_iff (request : ContextRequest)
    (alone : builder.retrievers = [store.retrieve builder.builtins]) :
    (builder.build request).truncated = false ↔
      characters (builder.filtered request) ≤ request.maxCharacters := by
  have within := ranked_within_limit request alone
  rw [← characters_ranked]
  refine (request.select_untruncated_iff _ (within_start request) rfl).trans ?_
  rw [List.nil_append]
  exact and_iff_right within

/-- For every store and request: the flag can be relied on exactly when what the limit of
the retriever cuts off is harmless. -/
theorem flag_trustworthy_iff (alone : builder.retrievers = [store.retrieve builder.builtins])
    (kinds : request.sourceKinds = []) (minScore : request.minScore = 0) :
    builder.FlagTrustworthy store request ↔ builder.LimitHarmless store request := by
  have untruncated := build_untruncated_iff request alone
  have contents : (builder.build request).truncated = false → ∀ k,
      (∃ out ∈ (builder.build request).items, contentKey builder.builtins out = k) ↔
        ∃ place, builder.Speaks store request place ∧
          contentKey builder.builtins place.item = k := by
    intro unmarked k
    have whole : (builder.build request).items = builder.ranked request :=
      request.select_of_untruncated _ unmarked
    rw [whole]
    constructor
    · rintro ⟨out, member, same⟩
      obtain ⟨item, kept, rfl⟩ := (builder.mem_ranked request).mp member
      obtain ⟨place, speaks, rfl⟩ := (mem_filtered_iff_speaks alone kinds minScore).mp kept
      exact ⟨place, speaks, same⟩
    · rintro ⟨place, speaks, same⟩
      have kept := (mem_filtered_iff_speaks alone kinds minScore).mpr ⟨place, speaks, rfl⟩
      exact ⟨_, (builder.mem_ranked request).mpr ⟨_, kept, rfl⟩, same⟩
  unfold FlagTrustworthy LimitHarmless
  rw [← filtered_long_iff alone kinds minScore, or_iff_not_imp_left, not_lt, ← untruncated]
  refine forall_congr' fun unmarked => forall₂_congr fun item _ => ?_
  exact contents unmarked _

end ContextBuilder

/-! ### A note that the limit cuts off -/

def notes : InMemoryRetriever where
  items := [Engine.noted 1 "deploy plan" .memory, Engine.noted 2 "plan" .decision]

theorem single_positive : (1 : ℤ) ≤ 1 ∧ (1 : ℤ) ≤ 12000 := by decide

def oneNote : ContextRequest where
  query := "deploy plan"
  limit := 1
  positive := single_positive
  bounded := unthresholded

def noteBuilder : ContextBuilder where
  builtins := Engine.ascii
  retrievers := [notes.retrieve Engine.ascii]
  nonempty := List.cons_ne_nil _ _

theorem flag_trustworthy_iff_notes :
    noteBuilder.FlagTrustworthy notes oneNote ↔ noteBuilder.LimitHarmless notes oneNote := by
  have alone : noteBuilder.retrievers = [notes.retrieve noteBuilder.builtins] := rfl
  have minScore : oneNote.minScore = 0 := rfl
  exact ContextBuilder.flag_trustworthy_iff alone rfl minScore

/-- The store holds two notes, one is returned, and nothing says that one is missing. -/
theorem limit_cuts_silently :
    (noteBuilder.build oneNote).truncated = false ∧
      (noteBuilder.build oneNote).items.map ContextItem.content = ["deploy plan"] ∧
      ¬ noteBuilder.FlagTrustworthy notes oneNote := by
  have unmarked : (noteBuilder.build oneNote).truncated = false := by decide +kernel
  have returned : (noteBuilder.build oneNote).items.map (contentKey Engine.ascii) =
      ["deploy plan"] := by decide +kernel
  refine ⟨unmarked, by decide +kernel, ?_⟩
  intro trustworthy
  have stored : Engine.noted 2 "plan" .decision ∈ notes.matching Engine.ascii oneNote := by
    unfold InMemoryRetriever.matching InMemoryRetriever.filter notes
    simp [oneNote, Table.empty]
  obtain ⟨out, member, same⟩ := trustworthy unmarked _ stored
  have listed := List.mem_map_of_mem (f := contentKey Engine.ascii) member
  rw [returned, List.mem_singleton] at listed
  exact absurd (listed.symm.trans same) (by decide +kernel)

end Eis.Context
