import Eis.Context.Retrieval

/-!
# The context builder

`ContextBuilder.build`: the retrieved items are deduplicated, filtered and
ranked, and the selection takes each item that still fits.
-/

set_option autoImplicit false

namespace Eis.Context

structure Selection where
  selected : List ContextItem := []
  used : ℕ := 0
  truncated : Bool := false

/-- `normalizer` is another one than the default. -/
structure ContextBuilder where
  builtins : Builtins
  retrievers : List Retriever
  normalizer : Option (String → Query) := none
  nonempty : retrievers ≠ []

namespace ContextRequest

def admits (request : ContextRequest) (item : ContextItem) : Bool :=
  decide (request.minScore ≤ item.score) &&
    (request.sourceKinds.isEmpty || decide (item.provenance.sourceKind ∈ request.sourceKinds))

def select (request : ContextRequest) : List ContextItem → Selection → Selection
  | [], selection => selection
  | item :: rest, selection =>
      if request.limit ≤ selection.selected.length then { selection with truncated := true }
      else if request.maxCharacters < selection.used + item.content.length then
        request.select rest { selection with truncated := true }
      else
        request.select rest
          { selection with
            selected := selection.selected ++ [item]
            used := selection.used + item.content.length }

end ContextRequest

namespace ContextBuilder

def query (builder : ContextBuilder) (request : ContextRequest) : Query :=
  builder.normalizer.getD (QueryNormalizer.normalize builder.builtins) request.query

/-- What `asyncio.gather` returns, one list after the other. -/
def retrieved (builder : ContextBuilder) (request : ContextRequest) : List ContextItem :=
  builder.retrievers.flatMap fun retrieve =>
    retrieve (builder.query request) request.limit request.metadata

def filtered (builder : ContextBuilder) (request : ContextRequest) : List ContextItem :=
  (deduplicate builder.builtins (builder.retrieved request)).filter request.admits

def ranked (builder : ContextBuilder) (request : ContextRequest) : List ContextItem :=
  ContextScorer.rank (builder.filtered request)

def build (builder : ContextBuilder) (request : ContextRequest) : ContextResult :=
  let selection := request.select (builder.ranked request) {}
  { query := builder.query request
    items := selection.selected
    truncated := selection.truncated }

end ContextBuilder

/-! ## The selection -/

namespace ContextRequest

def Fits (request : ContextRequest) (chosen : List ContextItem) (item : ContextItem) : Prop :=
  chosen.length < request.limit ∧
    characters chosen + item.content.length ≤ request.maxCharacters

/-- `used` counts the characters of what is selected, and both bounds are kept. -/
structure Within (request : ContextRequest) (selection : Selection) : Prop where
  used : selection.used = characters selection.selected
  limit : selection.selected.length ≤ request.limit
  characters : selection.used ≤ request.maxCharacters

theorem select_cons (request : ContextRequest) (item : ContextItem) (rest : List ContextItem)
    {selection : Selection} (within : request.Within selection) :
    (¬ request.Fits selection.selected item ∧
      (request.limit ≤ selection.selected.length ∧
          (request.select (item :: rest) selection).selected = selection.selected ∨
        ∃ next, request.Within next ∧ next.selected = selection.selected ∧
          request.select (item :: rest) selection = request.select rest next)) ∨
    (request.Fits selection.selected item ∧
      ∃ next, request.Within next ∧ next.selected = selection.selected ++ [item] ∧
        request.select (item :: rest) selection = request.select rest next) := by
  obtain ⟨used, limit, few⟩ := within
  rw [select]
  by_cases full : request.limit ≤ selection.selected.length
  · rw [if_pos full]
    refine Or.inl ⟨?_, Or.inl ⟨full, rfl⟩⟩
    intro ⟨room, _⟩
    omega
  · rw [if_neg full]
    by_cases large : request.maxCharacters < selection.used + item.content.length
    · rw [if_pos large]
      refine Or.inl ⟨?_, Or.inr ⟨{ selection with truncated := true }, ?_, rfl, rfl⟩⟩
      · intro ⟨_, room⟩
        rw [← used] at room
        omega
      · exact { used := used, limit := limit, characters := few }
    · rw [if_neg large]
      refine Or.inr ⟨⟨by omega, ?_⟩, _, ?_, rfl, rfl⟩
      · rw [← used]
        omega
      · refine { used := ?used, limit := ?limit, characters := ?few }
        case used => simp [used]
        case limit =>
          rw [List.length_append, List.length_singleton]
          omega
        case few =>
          rw [Nat.cast_add]
          omega

theorem select_extends (request : ContextRequest) (items : List ContextItem)
    {selection : Selection} (within : request.Within selection) :
    ∃ more, more.Sublist items ∧
      (request.select items selection).selected = selection.selected ++ more ∧
      (selection.selected ++ more).length ≤ request.limit ∧
      characters (selection.selected ++ more) ≤ request.maxCharacters := by
  induction items generalizing selection with
  | nil =>
      have few := within.characters
      rw [within.used] at few
      exact ⟨[], List.Sublist.refl [], by simp [select], by simpa using within.limit, by simpa⟩
  | cons item rest ih =>
      rcases request.select_cons item rest within with
        ⟨_, ⟨_, stopped⟩ | ⟨next, within', same, onwards⟩⟩ | ⟨_, next, within', taken, onwards⟩
      · have few := within.characters
        rw [within.used] at few
        exact ⟨[], List.nil_sublist _, by simp [stopped], by simpa using within.limit, by simpa⟩
      · obtain ⟨more, sub, selected, bounds⟩ := ih within'
        rw [same] at selected bounds
        exact ⟨more, sub.cons item, by rw [onwards, selected], bounds⟩
      · obtain ⟨more, sub, selected, bounds⟩ := ih within'
        rw [taken, List.append_assoc] at selected bounds
        exact ⟨item :: more, sub.cons_cons item, by rw [onwards, selected]; rfl, bounds⟩

/-- At its turn an item is taken just when it fits behind what was taken before it. -/
theorem select_greedy (request : ContextRequest) (before after : List ContextItem)
    (item : ContextItem) {selection : Selection} (within : request.Within selection) :
    ∃ chosen rest, chosen.Sublist before ∧ rest.Sublist after ∧
      (request.Fits (selection.selected ++ chosen) item ∧
          (request.select (before ++ item :: after) selection).selected =
            selection.selected ++ chosen ++ item :: rest ∨
        ¬ request.Fits (selection.selected ++ chosen) item ∧
          (request.select (before ++ item :: after) selection).selected =
            selection.selected ++ chosen ++ rest) := by
  induction before generalizing selection with
  | nil =>
      rw [List.nil_append]
      rcases request.select_cons item after within with
        ⟨unfit, ⟨_, stopped⟩ | ⟨next, within', same, onwards⟩⟩ |
          ⟨fits, next, within', taken, onwards⟩
      · refine ⟨[], [], List.Sublist.refl [], List.nil_sublist _, Or.inr ⟨?_, ?_⟩⟩
        · simpa using unfit
        · simpa using stopped
      · obtain ⟨more, sub, selected, _⟩ := request.select_extends after within'
        rw [same] at selected
        refine ⟨[], more, List.Sublist.refl [], sub, Or.inr ⟨by simpa using unfit, ?_⟩⟩
        rw [onwards, selected, List.append_nil]
      · obtain ⟨more, sub, selected, _⟩ := request.select_extends after within'
        rw [taken] at selected
        refine ⟨[], more, List.Sublist.refl [], sub, Or.inl ⟨by simpa using fits, ?_⟩⟩
        rw [onwards, selected, List.append_nil, List.append_assoc, List.singleton_append]
  | cons first rest ih =>
      rw [List.cons_append]
      rcases request.select_cons first (rest ++ item :: after) within with
        ⟨_, ⟨full, stopped⟩ | ⟨next, within', same, onwards⟩⟩ | ⟨_, next, within', taken, onwards⟩
      · refine ⟨[], [], List.nil_sublist _, List.nil_sublist _, Or.inr ⟨?_, ?_⟩⟩
        · intro ⟨room, _⟩
          rw [List.append_nil] at room
          omega
        · simpa using stopped
      · obtain ⟨chosen, more, sub, sub', either⟩ := ih within'
        rw [same] at either
        exact ⟨chosen, more, sub.cons first, sub', by rw [onwards]; exact either⟩
      · obtain ⟨chosen, more, sub, sub', either⟩ := ih within'
        rw [taken] at either
        refine ⟨first :: chosen, more, sub.cons_cons first, sub', ?_⟩
        rw [onwards]
        simpa using either

end ContextRequest

/-! ## What is built -/

namespace ContextBuilder

/-- The bounds and the order of a result, and why an item was left out of it. -/
structure Assembled (builder : ContextBuilder) (request : ContextRequest)
    (result : ContextResult) : Prop where
  retrieved : ∀ out ∈ result.items, ∃ item ∈ builder.retrieved request,
    out = { item with score := ContextScorer.score item }
  distinct : (result.items.map (contentKey builder.builtins)).Nodup
  allowed : request.sourceKinds ≠ [] →
    ∀ out ∈ result.items, out.provenance.sourceKind ∈ request.sourceKinds
  limit : result.items.length ≤ request.limit
  characters : result.characterCount ≤ request.maxCharacters
  ordered : result.items.Pairwise fun earlier later =>
    ContextScorer.key earlier ≤ ContextScorer.key later
  greedy : ∀ item ∈ deduplicate builder.builtins (builder.retrieved request),
    request.admits item = true → ContextScorer.rescore item ∉ result.items →
      ∃ before after chosen rest,
        builder.ranked request = before ++ ContextScorer.rescore item :: after ∧
        result.items = chosen ++ rest ∧ chosen.Sublist before ∧ rest.Sublist after ∧
        (request.limit ≤ chosen.length ∨
          request.maxCharacters < Context.characters chosen + item.content.length)

variable (builder : ContextBuilder) (request : ContextRequest)

theorem within_start : request.Within {} where
  used := rfl
  limit := le_trans zero_le_one request.positive.1
  characters := le_trans zero_le_one request.positive.2

theorem mem_ranked {out : ContextItem} :
    out ∈ builder.ranked request ↔
      ∃ item ∈ builder.filtered request, ContextScorer.rescore item = out := by
  unfold ranked ContextScorer.rank
  rw [Ranking.mem_sorted, List.mem_map]

theorem mem_filtered {item : ContextItem} :
    item ∈ builder.filtered request ↔
      item ∈ deduplicate builder.builtins (builder.retrieved request) ∧
        request.admits item = true :=
  List.mem_filter

theorem mem_build {out : ContextItem} (returned : out ∈ (builder.build request).items) :
    ∃ item ∈ builder.filtered request, ContextScorer.rescore item = out := by
  obtain ⟨items, sub, selected, _⟩ :=
    request.select_extends (builder.ranked request) (within_start request)
  have built : (builder.build request).items = items := selected
  rw [built] at returned
  exact (builder.mem_ranked request).mp (sub.subset returned)

theorem ranked_distinct :
    ((builder.ranked request).map (contentKey builder.builtins)).Nodup := by
  have kept : ((builder.filtered request).map (contentKey builder.builtins)).Nodup :=
    (Ranking.winners_distinct _).sublist (List.filter_sublist.map _)
  have reordered := (Ranking.sorted_perm ContextScorer.key
    ((builder.filtered request).map ContextScorer.rescore)).map (contentKey builder.builtins)
  rw [List.map_map] at reordered
  exact reordered.nodup_iff.mpr kept

/-- Whatever the retrievers return, what is built from it keeps its bounds, and an
item is left out only when the limit is reached or its text does not fit. -/
theorem build_assembled : builder.Assembled request (builder.build request) := by
  obtain ⟨items, sub, selected, few, short⟩ :=
    request.select_extends (builder.ranked request) (within_start request)
  have built : (builder.build request).items = items := selected
  refine
    { retrieved := ?retrieved
      distinct := ?distinct
      allowed := ?allowed
      limit := ?limit
      characters := ?characters
      ordered := ?ordered
      greedy := ?greedy }
  case retrieved =>
    intro out chosen
    obtain ⟨item, kept, same⟩ := builder.mem_build request chosen
    have wins := Ranking.mem_winners.mp ((builder.mem_filtered request).mp kept).1
    exact ⟨item, wins.mem, same.symm⟩
  case distinct =>
    rw [built]
    exact (builder.ranked_distinct request).sublist (sub.map _)
  case allowed =>
    intro restricted out chosen
    obtain ⟨item, kept, rfl⟩ := builder.mem_build request chosen
    have admitted := ((builder.mem_filtered request).mp kept).2
    simp only [ContextRequest.admits, Bool.and_eq_true, Bool.or_eq_true, List.isEmpty_iff,
      decide_eq_true_eq] at admitted
    exact admitted.2.resolve_left restricted
  case limit =>
    rw [built]
    exact few
  case characters =>
    unfold ContextResult.characterCount
    rw [built]
    exact short
  case ordered =>
    rw [built]
    exact (Ranking.sorted_pairwise ContextScorer.key _).sublist sub
  case greedy =>
    intro item unique admitted absent
    have listed : ContextScorer.rescore item ∈ builder.ranked request :=
      (builder.mem_ranked request).mpr
        ⟨item, (builder.mem_filtered request).mpr ⟨unique, admitted⟩, rfl⟩
    obtain ⟨before, after, split⟩ := List.append_of_mem listed
    obtain ⟨chosen, rest, sub, sub', turn⟩ :=
      request.select_greedy before after (ContextScorer.rescore item) (within_start request)
    rw [← split] at turn
    have result : (builder.build request).items =
        (request.select (builder.ranked request) {}).selected := rfl
    rcases turn with ⟨_, taken⟩ | ⟨unfit, passed⟩
    · rw [result, taken] at absent
      simp at absent
    · refine ⟨before, after, chosen, rest, split, result.trans passed, sub, sub', ?_⟩
      by_contra room
      obtain ⟨free, short⟩ := not_or.mp room
      exact unfit ⟨not_le.mp free, not_lt.mp short⟩

end ContextBuilder

end Eis.Context
