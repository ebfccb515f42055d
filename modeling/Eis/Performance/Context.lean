import Eis.Context.Builder

/-!
# Context compaction

`optimize_context` ranks the distinct items of a list and takes those that fit into its
budget.  It chooses what a context builder chooses whose only retriever returns the list.
-/

set_option autoImplicit false

namespace Eis.Performance

open Eis.Context

structure ContextBudget where
  maxItems : ℤ := 12
  maxCharacters : ℤ := 24000
  reserveCharacters : ℤ := 2000
  valid : ¬ (maxItems < 1 ∨ maxCharacters ≤ reserveCharacters)

namespace ContextBudget

/-- `ContextBudget(...)` with its `__post_init__` -/
def create (maxItems maxCharacters reserveCharacters : ℤ) : Except String ContextBudget :=
  if invalid : maxItems < 1 ∨ maxCharacters ≤ reserveCharacters then
    .error "invalid context budget"
  else
    .ok
      { maxItems := maxItems
        maxCharacters := maxCharacters
        reserveCharacters := reserveCharacters
        valid := invalid }

def default : ContextBudget where
  valid := by decide

def limit (budget : ContextBudget) : ℤ := budget.maxCharacters - budget.reserveCharacters

/-- The loop of `optimize_context`. -/
def fit (budget : ContextBudget) : List ContextItem → List ContextItem → ℕ → List ContextItem
  | [], output, _ => output
  | item :: rest, output, used =>
      if budget.maxItems ≤ output.length then output
      else if budget.limit < used + item.content.length then budget.fit rest output used
      else budget.fit rest (output ++ [item]) (used + item.content.length)

end ContextBudget

def optimizeContext (builtins : Builtins) (items : List ContextItem)
    (budget : Option ContextBudget) : List ContextItem :=
  (budget.getD ContextBudget.default).fit (ContextScorer.rank (deduplicate builtins items)) [] 0

/-- Both loops make the same choice at every item. -/
theorem fit_eq_select {budget : ContextBudget} {request : ContextRequest}
    (items : budget.maxItems = request.limit) (characters : budget.limit = request.maxCharacters)
    (ranked : List ContextItem) (selection : Selection) :
    budget.fit ranked selection.selected selection.used =
      (request.select ranked selection).selected := by
  induction ranked generalizing selection with
  | nil => rfl
  | cons item rest ih =>
      rw [ContextBudget.fit, ContextRequest.select, items, characters]
      by_cases full : request.limit ≤ selection.selected.length
      · rw [if_pos full, if_pos full]
      · rw [if_neg full, if_neg full]
        by_cases large : request.maxCharacters < selection.used + item.content.length
        · rw [if_pos large, if_pos large]
          exact ih { selection with truncated := true }
        · rw [if_neg large, if_neg large]
          exact ih
            { selection with
              selected := selection.selected ++ [item]
              used := selection.used + item.content.length }

theorem filtered_of_unrestricted {builder : ContextBuilder} {request : ContextRequest}
    (minScore : request.minScore = 0) (kinds : request.sourceKinds = [])
    (scores : ∀ item ∈ builder.retrieved request, 0 ≤ item.score) :
    builder.filtered request = deduplicate builder.builtins (builder.retrieved request) := by
  refine List.filter_eq_self.mpr ?_
  intro item member
  have score := scores item (Ranking.mem_winners.mp member).mem
  simp [ContextRequest.admits, minScore, kinds, score]

/-- For every list whose scores are not negative, and any bounds: the compaction of the
list is what a builder returns whose only retriever returns the list. -/
theorem optimize_context_eq_build {builder : ContextBuilder} {request : ContextRequest}
    {retrieve : Retriever} {items : List ContextItem} (reserve : ℤ)
    (alone : builder.retrievers = [retrieve])
    (returns : retrieve (builder.query request) request.limit request.metadata = items)
    (scores : ∀ item ∈ items, 0 ≤ item.score)
    (minScore : request.minScore = 0) (kinds : request.sourceKinds = []) :
    ∃ budget,
      ContextBudget.create request.limit (request.maxCharacters + reserve) reserve = .ok budget ∧
        optimizeContext builder.builtins items (some budget) = (builder.build request).items := by
  have positive := request.positive
  have valid : ¬ (request.limit < 1 ∨ request.maxCharacters + reserve ≤ reserve) := by omega
  refine ⟨⟨request.limit, request.maxCharacters + reserve, reserve, valid⟩, dif_neg valid, ?_⟩
  have retrieved : builder.retrieved request = items := by
    unfold ContextBuilder.retrieved
    rw [alone, List.flatMap_singleton, returns]
  have ranked : builder.ranked request =
      ContextScorer.rank (deduplicate builder.builtins items) := by
    unfold ContextBuilder.ranked
    rw [filtered_of_unrestricted minScore kinds (by rwa [retrieved]), retrieved]
  have limit : (ContextBudget.mk request.limit (request.maxCharacters + reserve) reserve
      valid).limit = request.maxCharacters :=
    add_sub_cancel_right request.maxCharacters reserve
  unfold optimizeContext ContextBuilder.build
  rw [ranked]
  exact fit_eq_select rfl limit _ {}

/-! ### A list with an item that does not fit -/

theorem authoritative : (0 : ℚ) ≤ 1 ∧ (1 : ℚ) ≤ 1 := by decide +kernel

def runbook (id : BitVec 128) (content : String) : ContextItem where
  id := ⟨id⟩
  content := content
  provenance :=
    { sourceId := "runbook"
      sourceKind := .documentation
      locator := "runbook"
      capturedAt := "2026-01-01T00:00:00+00:00"
      bounded := authoritative }

def runbooks : List ContextItem := [runbook 1 "drain the queue", runbook 2 "restart"]

def runbookRequest : ContextRequest where
  query := "queue"
  limit := 2
  maxCharacters := 10
  positive := by decide
  bounded := unthresholded

def runbookBuilder : ContextBuilder where
  builtins :=
    { casefold := Text.casefold
      isWord := Char.isAlphanum
      equal := fun _ _ => true }
  retrievers := [fun _ _ _ => runbooks]
  nonempty := List.cons_ne_nil _ _

theorem optimize_context_eq_build_runbooks :
    ∃ budget, ContextBudget.create 2 (10 + 5) 5 = .ok budget ∧
      optimizeContext runbookBuilder.builtins runbooks (some budget) =
        (runbookBuilder.build runbookRequest).items := by
  have scores : ∀ item ∈ runbooks, 0 ≤ item.score := by
    intro item member
    simp only [runbooks, List.mem_cons, List.not_mem_nil, or_false] at member
    rcases member with rfl | rfl <;> exact le_rfl
  have alone : runbookBuilder.retrievers = [fun _ _ _ => runbooks] := rfl
  have minScore : runbookRequest.minScore = 0 := rfl
  exact optimize_context_eq_build 5 alone rfl scores minScore rfl

end Eis.Performance
