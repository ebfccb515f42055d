import Mathlib.Data.List.Basic

/-!
# Pairs of list entries

Two nested loops over one list, the inner one over the entries behind the outer one's:
`for i, x in enumerate(l)` and `for y in l[i + 1:]`.  Entries come with their positions.
-/

set_option autoImplicit false

universe u

namespace Pairs

variable {α : Type u}

/-- The inner loop; an entry that does not lead is passed over. -/
def inner (leads : α × ℕ → Bool) (follows : α × ℕ → α × ℕ → Bool) (l : List α)
    (first : α × ℕ) : List ((α × ℕ) × (α × ℕ)) :=
  if leads first then
    (((l.drop (first.2 + 1)).zipIdx (first.2 + 1)).filter (follows first)).map (Prod.mk first)
  else []

def loop (leads : α × ℕ → Bool) (follows : α × ℕ → α × ℕ → Bool) (l : List α) :
    List ((α × ℕ) × (α × ℕ)) :=
  l.zipIdx.flatMap (inner leads follows l)

def places (pair : (α × ℕ) × (α × ℕ)) : ℕ × ℕ := (pair.1.2, pair.2.2)

variable {leads : α × ℕ → Bool} {follows : α × ℕ → α × ℕ → Bool} {l : List α}

theorem mem_behind_iff {i : ℕ} {second : α × ℕ} :
    second ∈ (l.drop (i + 1)).zipIdx (i + 1) ↔ i < second.2 ∧ l[second.2]? = some second.1 := by
  rw [List.mem_zipIdx_iff_le_and_getElem?_sub, List.getElem?_drop]
  constructor
  · intro ⟨behind, present⟩
    rw [Nat.add_sub_cancel' behind] at present
    exact ⟨behind, present⟩
  · intro ⟨behind, present⟩
    rw [Nat.add_sub_cancel' behind]
    exact ⟨behind, present⟩

theorem mem_inner_iff {first : α × ℕ} {pair : (α × ℕ) × (α × ℕ)} :
    pair ∈ inner leads follows l first ↔
      pair.1 = first ∧ first.2 < pair.2.2 ∧ l[pair.2.2]? = some pair.2.1 ∧
        leads first = true ∧ follows first pair.2 = true := by
  unfold inner
  by_cases leading : leads first = true
  · rw [if_pos leading, List.mem_map]
    constructor
    · intro ⟨second, kept, same⟩
      subst same
      obtain ⟨behind, chosen⟩ := List.mem_filter.mp kept
      obtain ⟨before, there⟩ := mem_behind_iff.mp behind
      exact ⟨rfl, before, there, leading, chosen⟩
    · intro ⟨same, before, there, _, chosen⟩
      subst same
      have behind := mem_behind_iff.mpr ⟨before, there⟩
      exact ⟨pair.2, List.mem_filter.mpr ⟨behind, chosen⟩, rfl⟩
  · rw [if_neg leading]
    simp [leading]

theorem mem_loop_iff {first second : α × ℕ} :
    (first, second) ∈ loop leads follows l ↔
      first.2 < second.2 ∧ l[first.2]? = some first.1 ∧ l[second.2]? = some second.1 ∧
        leads first = true ∧ follows first second = true := by
  unfold loop
  rw [List.mem_flatMap]
  constructor
  · intro ⟨lead, present, member⟩
    obtain ⟨same, before, there, leading, chosen⟩ := mem_inner_iff.mp member
    subst same
    exact ⟨before, List.mem_zipIdx_iff_getElem?.mp present, there, leading, chosen⟩
  · intro ⟨before, present, there, leading, chosen⟩
    refine ⟨first, List.mem_zipIdx_iff_getElem?.mpr present, ?_⟩
    exact mem_inner_iff.mpr ⟨rfl, before, there, leading, chosen⟩

theorem zipIdx_ordered (l : List α) (start : ℕ) :
    (l.zipIdx start).Pairwise fun first second => first.2 < second.2 := by
  have numbers : ((l.zipIdx start).map Prod.snd).Pairwise (· < ·) := by
    rw [List.zipIdx_map_snd]
    exact List.pairwise_lt_range'
  exact List.pairwise_map.mp numbers

theorem inner_ordered (first : α × ℕ) : (inner leads follows l first).Pairwise
    fun pair pair' => Prod.Lex (· < ·) (· < ·) (places pair) (places pair') := by
  unfold inner
  split
  · rw [List.pairwise_map]
    refine ((zipIdx_ordered _ _).filter (follows first)).imp ?_
    intro second second' before
    exact Prod.Lex.right _ before
  · exact List.Pairwise.nil

/-- The positions come in lexicographic order, so no pair is met twice. -/
theorem loop_ordered : ((loop leads follows l).map places).Pairwise
    (Prod.Lex (· < ·) (· < ·)) := by
  rw [List.pairwise_map]
  unfold loop
  rw [List.pairwise_flatMap]
  constructor
  · intro first _
    exact inner_ordered first
  · refine (zipIdx_ordered l 0).imp ?_
    intro first first' before pair member pair' member'
    have lead : pair.1 = first := (mem_inner_iff.mp member).1
    have lead' : pair'.1 = first' := (mem_inner_iff.mp member').1
    unfold places
    rw [lead, lead']
    exact Prod.Lex.left _ _ before

theorem loop_places :
    ((loop leads follows l).map places).map (fun place => (l[place.1]?, l[place.2]?)) =
      (loop leads follows l).map fun pair => (some pair.1.1, some pair.2.1) := by
  rw [List.map_map]
  refine List.map_congr_left ?_
  intro pair member
  obtain ⟨-, present, there, -, -⟩ := mem_loop_iff.mp member
  simp only [Function.comp, places, present, there]

end Pairs
