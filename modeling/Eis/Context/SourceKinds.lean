import Eis.Context.Builder
import Eis.Foundation.Places

/-!
# Filtering by source kind

The kinds of a request are looked at behind the cut to `limit` and behind the
removal of repeated content.  What is built is compared with what the stores
would give if they held the requested kinds only.
-/

set_option autoImplicit false

namespace Eis.Context

namespace InMemoryRetriever

variable (store : InMemoryRetriever) (builtins : Builtins) (query : Query)
  (request : ContextRequest)

def matching : List ContextItem :=
  filter builtins store.items request.metadata

/-- What it holds for the metadata of the request, with the scores for the query; the best of
these are returned. -/
def offered : List ContextItem :=
  (store.matching builtins request).map (KeywordRetriever.scored builtins query)

theorem retrieve_eq_largest :
    store.retrieve builtins query request.limit request.metadata =
      Ranking.largest KeywordRetriever.rank request.limit.toNat
        (store.offered builtins query request) := by
  unfold retrieve KeywordRetriever.retrieve
  rw [if_neg (not_lt.mpr request.positive.1)]
  rfl

end InMemoryRetriever

structure Engine where
  builtins : Builtins
  stores : List InMemoryRetriever
  nonempty : stores ≠ []

namespace Engine

def builder (engine : Engine) : ContextBuilder where
  builtins := engine.builtins
  retrievers := engine.stores.map (InMemoryRetriever.retrieve engine.builtins)
  nonempty := by simpa using engine.nonempty

/-- The same stores with the items of these kinds only. -/
def restrict (engine : Engine) (kinds : List SourceKind) : Engine where
  builtins := engine.builtins
  stores := engine.stores.map fun store =>
    { items := store.items.filter fun item => decide (item.provenance.sourceKind ∈ kinds) }
  nonempty := by simpa using engine.nonempty

/-- Items of other kinds displace nothing: the candidates for the selection are the
same and stand in the same order, and so do the items that are built. -/
structure OnlyFilters (engine : Engine) (request : ContextRequest) : Prop where
  items : (engine.builder.build request).items =
    ((engine.restrict request.sourceKinds).builder.build request).items
  candidates : engine.builder.ranked request =
    (engine.restrict request.sourceKinds).builder.ranked request

def offered (engine : Engine) (request : ContextRequest) : List (List ContextItem) :=
  engine.stores.map fun store =>
    store.offered engine.builtins (engine.builder.query request) request

/-- In its store fewer than `limit` matching items rank ahead of the item, and of the items
of its content of which this is so it is the first of the highest authority and score. -/
def Represents (engine : Engine) (request : ContextRequest) (item : ContextItem) : Prop :=
  ∃ place : Ranking.Place ContextItem,
    place.Represents KeywordRetriever.rank request.limit.toNat (engine.offered request) standing
      (contentKey engine.builtins) ∧ place.item = item

def Precedes (engine : Engine) (request : ContextRequest) (item other : ContextItem) : Prop :=
  Ranking.Precedes KeywordRetriever.rank request.limit.toNat (engine.offered request)
    (contentKey engine.builtins) (contentKey engine.builtins item)
    (contentKey engine.builtins other)

/-- A requested item represents its content in the stores just when it does so in the
requested part of them; and items of one final score, authority and id keep their order,
which is that of the first items of their contents. -/
structure Undisplaced (engine : Engine) (request : ContextRequest) : Prop where
  kept : ∀ item, request.admits item = true →
    (engine.Represents request item ↔
      (engine.restrict request.sourceKinds).Represents request item)
  ordered : ∀ item other, request.admits item = true → request.admits other = true →
    (engine.restrict request.sourceKinds).Represents request item →
    (engine.restrict request.sourceKinds).Represents request other →
    ContextScorer.key (ContextScorer.rescore item) =
      ContextScorer.key (ContextScorer.rescore other) →
    (engine.restrict request.sourceKinds).Precedes request item other →
    engine.Precedes request item other

/-! ## What is returned -/

section Returned
variable {engine : Engine} {request : ContextRequest}

theorem retrieved_eq_flatMap :
    engine.builder.retrieved request =
      (engine.offered request).flatMap
        (Ranking.largest KeywordRetriever.rank request.limit.toNat) := by
  unfold ContextBuilder.retrieved offered builder
  rw [List.flatMap_map, List.flatMap_map]
  refine List.flatMap_congr fun store _ => ?_
  exact store.retrieve_eq_largest engine.builtins _ request

theorem represents_iff {item : ContextItem} :
    engine.Represents request item ↔
      Ranking.Wins standing (contentKey engine.builtins) (engine.builder.retrieved request)
        item := by
  rw [retrieved_eq_flatMap]
  exact Ranking.wins_flatMap_iff.symm

theorem precedes_iff {item other : ContextItem} :
    engine.Precedes request item other ↔
      Ranking.firstAt (contentKey engine.builtins) (engine.builder.retrieved request)
          (contentKey engine.builtins item) <
        Ranking.firstAt (contentKey engine.builtins) (engine.builder.retrieved request)
          (contentKey engine.builtins other) := by
  rw [retrieved_eq_flatMap]
  exact Ranking.firstAt_flatMap_lt_iff.symm

end Returned

theorem scored_scored (builtins : Builtins) (query : Query) (item : ContextItem) :
    KeywordRetriever.scored builtins query (KeywordRetriever.scored builtins query item) =
      KeywordRetriever.scored builtins query item := rfl

theorem retrieved_scored (engine : Engine) (request : ContextRequest) {item : ContextItem}
    (member : item ∈ engine.builder.retrieved request) :
    KeywordRetriever.scored engine.builtins (engine.builder.query request) item = item := by
  unfold ContextBuilder.retrieved at member
  obtain ⟨retrieve, listed, returned⟩ := List.mem_flatMap.mp member
  obtain ⟨store, _, rfl⟩ := List.mem_map.mp listed
  unfold InMemoryRetriever.retrieve KeywordRetriever.retrieve at returned
  split at returned
  · cases returned
  · obtain ⟨own, _, rfl⟩ := List.mem_map.mp (Ranking.mem_of_mem_largest _ returned)
    exact scored_scored engine.builtins (engine.builder.query request) own

theorem scored_rescore {builtins : Builtins} {query : Query} {items : List ContextItem}
    (scored : ∀ item ∈ items, KeywordRetriever.scored builtins query item = item) :
    (items.map ContextScorer.rescore).map (KeywordRetriever.scored builtins query) = items := by
  rw [List.map_map]
  refine (List.map_congr_left ?_).trans (List.map_id items)
  intro item member
  exact scored item member

/-! ## Candidates of one rank -/

section Candidates
variable (engine : Engine) (request : ContextRequest)

def tier (r : ℚ ×ₗ ℚ ×ₗ String) : List ContextItem :=
  (engine.builder.filtered request).filter fun item =>
    decide (ContextScorer.key (ContextScorer.rescore item) = r)

theorem mem_tier {r : ℚ ×ₗ ℚ ×ₗ String} {item : ContextItem} :
    item ∈ engine.tier request r ↔
      engine.Represents request item ∧ request.admits item = true ∧
        ContextScorer.key (ContextScorer.rescore item) = r := by
  unfold tier
  rw [List.mem_filter, ContextBuilder.mem_filtered, decide_eq_true_eq, and_assoc, represents_iff]
  exact and_congr_left fun _ => Ranking.mem_winners

theorem tier_ordered (r : ℚ ×ₗ ℚ ×ₗ String) :
    (engine.tier request r).Pairwise fun earlier later =>
      Ranking.firstAt (contentKey engine.builtins) (engine.builder.retrieved request)
          (contentKey engine.builtins earlier) <
        Ranking.firstAt (contentKey engine.builtins) (engine.builder.retrieved request)
          (contentKey engine.builtins later) :=
  ((Ranking.winners_ordered _).filter _).filter _

theorem tier_scored {r : ℚ ×ₗ ℚ ×ₗ String} {item : ContextItem}
    (member : item ∈ engine.tier request r) :
    KeywordRetriever.scored engine.builtins (engine.builder.query request) item = item :=
  engine.retrieved_scored request (represents_iff.mp ((engine.mem_tier request).mp member).1).mem

theorem ranked_eq_iff :
    engine.builder.ranked request =
        (engine.restrict request.sourceKinds).builder.ranked request ↔
      ∀ r, engine.tier request r = (engine.restrict request.sourceKinds).tier request r := by
  unfold ContextBuilder.ranked ContextScorer.rank
  rw [Ranking.sorted_eq_iff]
  apply forall_congr'
  intro r
  rw [List.filter_map, List.filter_map]
  constructor
  · intro equal
    have mixed := scored_rescore fun item (member : item ∈ engine.tier request r) =>
      engine.tier_scored request member
    have alone := scored_rescore fun item
        (member : item ∈ (engine.restrict request.sourceKinds).tier request r) =>
      (engine.restrict request.sourceKinds).tier_scored request member
    rw [← mixed, ← alone]
    exact congrArg (List.map _) equal
  · intro equal
    exact congrArg (List.map ContextScorer.rescore) equal

theorem Undisplaced.tier_eq {engine : Engine} {request : ContextRequest}
    (undisplaced : engine.Undisplaced request) (r : ℚ ×ₗ ℚ ×ₗ String) :
    engine.tier request r = (engine.restrict request.sourceKinds).tier request r := by
  have alone := (engine.restrict request.sourceKinds).tier_ordered request r
  refine Ranking.eq_of_increasing (engine.tier_ordered request r) ?_ ?_
  · apply alone.imp_of_mem
    intro item other member member' before
    obtain ⟨wins, admitted, rank⟩ :=
      ((engine.restrict request.sourceKinds).mem_tier request).mp member
    obtain ⟨wins', admitted', rank'⟩ :=
      ((engine.restrict request.sourceKinds).mem_tier request).mp member'
    exact precedes_iff.mp (undisplaced.ordered item other admitted admitted' wins wins'
      (rank.trans rank'.symm) (precedes_iff.mpr before))
  · intro item
    rw [mem_tier, mem_tier]
    exact and_congr_left fun both => undisplaced.kept item both.1

end Candidates

/-- The filter only filters just where nothing is displaced. -/
theorem only_filters_iff (engine : Engine) (request : ContextRequest) :
    engine.OnlyFilters request ↔ engine.Undisplaced request := by
  constructor
  · intro filters
    have tiers := (engine.ranked_eq_iff request).mp filters.candidates
    refine { kept := ?kept, ordered := ?ordered }
    case kept =>
      intro item admitted
      have same := tiers (ContextScorer.key (ContextScorer.rescore item))
      constructor
      · intro wins
        have member := (engine.mem_tier request).mpr ⟨wins, admitted, rfl⟩
        rw [same] at member
        exact ((engine.restrict request.sourceKinds).mem_tier request).mp member |>.1
      · intro wins
        have member := ((engine.restrict request.sourceKinds).mem_tier request).mpr
          ⟨wins, admitted, rfl⟩
        rw [← same] at member
        exact ((engine.mem_tier request).mp member).1
    case ordered =>
      intro item other admitted admitted' wins wins' rank before
      have member := ((engine.restrict request.sourceKinds).mem_tier request).mpr
        ⟨wins, admitted, rank⟩
      have member' := ((engine.restrict request.sourceKinds).mem_tier request).mpr
        ⟨wins', admitted', rfl⟩
      have mixed := engine.tier_ordered request (ContextScorer.key (ContextScorer.rescore other))
      rw [tiers] at mixed
      exact precedes_iff.mpr (Ranking.lt_of_increasing
        ((engine.restrict request.sourceKinds).tier_ordered request _) mixed member member'
        (precedes_iff.mp before))
  · intro undisplaced
    have ranked := (engine.ranked_eq_iff request).mpr undisplaced.tier_eq
    refine { items := ?items, candidates := ranked }
    case items =>
      unfold ContextBuilder.build
      rw [ranked]

/-! ## A memory in the way of a decision -/

def noted (id : BitVec 128) (content : String) (sourceKind : SourceKind) : ContextItem where
  id := ⟨id⟩
  content := content
  provenance :=
    { sourceId := "notes"
      sourceKind := sourceKind
      locator := "notes"
      capturedAt := "2026-01-01T00:00:00+00:00"
      bounded := by decide +kernel }

def ascii : Builtins where
  casefold := Text.casefold
  isWord := Char.isAlphanum
  equal _ _ := true

def notebook : Engine where
  builtins := ascii
  stores := [{ items := [noted 1 "deploy plan" .memory, noted 2 "plan" .decision] }]
  nonempty := by simp

def oneDecision : ContextRequest where
  query := "deploy plan"
  limit := 1
  sourceKinds := [.decision]
  positive := by decide
  bounded := by decide +kernel

theorem memory_displaces_decision :
    (notebook.builder.build oneDecision).items.length = 0 ∧
      ((notebook.restrict [.decision]).builder.build oneDecision).items.length = 1 ∧
      ¬ notebook.OnlyFilters oneDecision := by
  have displaced : (notebook.builder.build oneDecision).items.length = 0 := by decide +kernel
  have present : ((notebook.restrict [.decision]).builder.build oneDecision).items.length = 1 := by
    decide +kernel
  refine ⟨displaced, present, ?_⟩
  intro filters
  have same := congrArg List.length filters.items
  rw [displaced] at same
  exact absurd (same.trans present) Nat.zero_ne_one

end Engine

end Eis.Context
