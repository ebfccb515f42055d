import Mathlib.Tactic.Linarith
import Mathlib.Tactic.Ring
import Eis.Context.SourceKinds

/-!
# The two scores of an item

The threshold of a request is compared with the score that the retriever gives.  The score
that an item is returned with is the one it is ranked by, with other weights.
-/

set_option autoImplicit false

namespace Eis.Context

def ContextItem.retrievalScore (item : ContextItem) : ℚ :=
  (KeywordRetriever.withScore item item.relevance).score

theorem score_eq_retrievalScore (item : ContextItem) :
    ContextScorer.score item = item.retrievalScore -
      (item.provenance.authority + item.freshness) * (5 / 100) +
        ContextScorer.priority item.provenance.sourceKind * (10 / 100) := by
  unfold ContextScorer.score ContextItem.retrievalScore KeywordRetriever.withScore
  dsimp only
  ring

theorem priority_ge (kind : SourceKind) : 55 / 100 ≤ ContextScorer.priority kind := by
  cases kind <;> norm_num [ContextScorer.priority]

/-- Where a returned item stands with regard to the threshold. -/
structure ScoresAbove (request : ContextRequest) (out : ContextItem) : Prop where
  retrieved : request.minScore ≤ out.retrievalScore
  ranked : out.score = ContextScorer.score out
  below : request.minScore - 45 / 1000 ≤ out.score
  modest : out.provenance.authority + out.freshness ≤
    2 * ContextScorer.priority out.provenance.sourceKind → request.minScore ≤ out.score

section Stores
variable {builder : ContextBuilder} {stores : List InMemoryRetriever} {request : ContextRequest}

theorem retrieved_from_stores
    (served : builder.retrievers = stores.map fun store => store.retrieve builder.builtins)
    {item : ContextItem} (member : item ∈ builder.retrieved request) :
    (∃ store ∈ stores, ∃ stored ∈ store.items, item.freshness = stored.freshness) ∧
      item.score = item.retrievalScore := by
  unfold ContextBuilder.retrieved at member
  rw [served] at member
  obtain ⟨retrieve, listed, returned⟩ := List.mem_flatMap.mp member
  obtain ⟨store, present, rfl⟩ := List.mem_map.mp listed
  unfold InMemoryRetriever.retrieve KeywordRetriever.retrieve at returned
  split at returned
  · cases returned
  · obtain ⟨stored, matching, rfl⟩ := List.mem_map.mp (Ranking.mem_of_mem_largest _ returned)
    exact ⟨⟨store, present, stored, List.mem_of_mem_filter matching, rfl⟩, rfl⟩

/-- For every request and every stores with freshness up to 1: each returned item has
passed the threshold with its retrieval score, and its final score is at most 0.045 below
the threshold, and not below it where the source makes up for authority and freshness. -/
theorem min_score_of_build
    (served : builder.retrievers = stores.map fun store => store.retrieve builder.builtins)
    (fresh : ∀ store ∈ stores, ∀ item ∈ store.items, 0 ≤ item.freshness ∧ item.freshness ≤ 1) :
    ∀ out ∈ (builder.build request).items, ScoresAbove request out := by
  intro out returned
  obtain ⟨item, kept, rfl⟩ := builder.mem_build request returned
  obtain ⟨unique, admitted⟩ := (builder.mem_filtered request).mp kept
  obtain ⟨⟨store, present, stored, listed, same⟩, scored⟩ :=
    retrieved_from_stores served (Ranking.mem_winners.mp unique).mem
  have above : request.minScore ≤ item.score :=
    of_decide_eq_true (Bool.and_eq_true_iff.mp admitted).1
  rw [scored] at above
  have most : item.freshness ≤ 1 := same ▸ (fresh store present stored listed).2
  have authority := item.provenance.bounded.2
  have priority := priority_ge item.provenance.sourceKind
  have final := score_eq_retrievalScore item
  refine { retrieved := above, ranked := rfl, below := ?below, modest := ?modest }
  case below =>
    change request.minScore - 45 / 1000 ≤ ContextScorer.score item
    linarith
  case modest =>
    intro modest
    change item.provenance.authority + item.freshness ≤
      2 * ContextScorer.priority item.provenance.sourceKind at modest
    change request.minScore ≤ ContextScorer.score item
    linarith

end Stores

/-! ### A memory that falls behind its threshold -/

def memories : InMemoryRetriever where
  items := [Engine.noted 1 "deploy plan" .memory]

def thresholdRequest : ContextRequest where
  query := "rollback"
  minScore := 44 / 100
  positive := by decide
  bounded := by norm_num

def memoryBuilder : ContextBuilder where
  builtins := Engine.ascii
  retrievers := [memories].map fun store => store.retrieve Engine.ascii
  nonempty := List.cons_ne_nil _ _

theorem memories_fresh : ∀ store ∈ [memories], ∀ item ∈ store.items,
    0 ≤ item.freshness ∧ item.freshness ≤ 1 := by
  intro store present item listed
  rw [List.mem_singleton.mp present] at listed
  rw [List.mem_singleton.mp listed]
  exact ⟨zero_le_one, le_rfl⟩

theorem memory_returned :
    ∃ out ∈ (memoryBuilder.build thresholdRequest).items, out.score = 405 / 1000 := by
  have scores : (memoryBuilder.build thresholdRequest).items.map ContextItem.score =
      [405 / 1000] := by decide +kernel
  have listed : (405 / 1000 : ℚ) ∈
      (memoryBuilder.build thresholdRequest).items.map ContextItem.score := by
    rw [scores]
    exact List.mem_singleton_self _
  exact List.mem_map.mp listed

theorem min_score_of_build_memories :
    ∃ out ∈ (memoryBuilder.build thresholdRequest).items, ScoresAbove thresholdRequest out := by
  obtain ⟨out, member, _⟩ := memory_returned
  exact ⟨out, member, min_score_of_build rfl memories_fresh out member⟩

/-- The memory passes 0.44 with 0.45 and is returned with 0.405. -/
theorem returned_below_min_score :
    (∀ store ∈ [memories], ∀ item ∈ store.items, 0 ≤ item.freshness ∧ item.freshness ≤ 1) ∧
      ∃ out ∈ (memoryBuilder.build thresholdRequest).items,
        out.score < thresholdRequest.minScore := by
  refine ⟨memories_fresh, ?_⟩
  obtain ⟨out, member, score⟩ := memory_returned
  refine ⟨out, member, ?_⟩
  rw [score]
  norm_num [thresholdRequest]

end Eis.Context
