import Mathlib.Algebra.Order.Group.Defs
import Mathlib.Algebra.Order.Group.Unbundled.Basic
import Mathlib.Data.List.Basic

/-!
# Sliding windows

A limiter keeps the stamps of what it has admitted and drops those that lie further back
than the width of its window.  Time is an ordered group.
-/

set_option autoImplicit false

universe u

namespace SlidingWindow

variable {T : Type u} [AddCommGroup T] [LinearOrder T]

def recent (width now : T) (stamps : List T) : List T :=
  stamps.filter fun stamp => now - stamp ≤ width

/-- The stamps in the closed window of length `width` from `start` on. -/
def window (width start : T) (stamps : List T) : List T :=
  stamps.filter fun stamp => start ≤ stamp ∧ stamp ≤ start + width

/-- The invariant of a limiter at `clock`: nothing recent is dropped, and no window holds
more than `bound` of what was admitted. -/
structure Paced (width : T) (bound : ℕ) (clock : T) (kept admitted : List T) : Prop where
  covers : (recent width clock admitted).Sublist kept
  bounded : ∀ start, (window width start admitted).length ≤ bound

variable [IsOrderedAddMonoid T] {width start clock now stamp : T} {bound : ℕ}
  {kept admitted stamps : List T}

theorem recent_sublist_recent (later : clock ≤ now) :
    (recent width now stamps).Sublist (recent width clock stamps) := by
  refine List.monotone_filter_right stamps ?_
  intro stamp near
  rw [decide_eq_true_eq] at near ⊢
  exact (sub_le_sub_right later stamp).trans near

theorem window_sublist_recent (reaches : now ≤ start + width) :
    (window width start stamps).Sublist (recent width now stamps) := by
  refine List.monotone_filter_right stamps ?_
  intro stamp inside
  rw [decide_eq_true_eq] at inside ⊢
  have near : now - start ≤ width := sub_le_iff_le_add'.mpr reaches
  exact (sub_le_sub_left inside.1 now).trans near

namespace Paced

omit [IsOrderedAddMonoid T] in
theorem nil : Paced width bound clock kept [] where
  covers := List.nil_sublist kept
  bounded := fun _ => Nat.zero_le bound

theorem later (paced : Paced width bound clock kept admitted) (passed : clock ≤ now) :
    Paced width bound now kept admitted where
  covers := (recent_sublist_recent passed).trans paced.covers
  bounded := paced.bounded

theorem prune (paced : Paced width bound clock kept admitted) (passed : clock ≤ now) :
    Paced width bound now (recent width now kept) admitted where
  covers := by
    have same : recent width now (recent width clock admitted) = recent width now admitted := by
      unfold recent
      rw [List.filter_filter]
      refine List.filter_congr ?_
      intro stamp _
      rw [Bool.and_eq_left_iff_imp, decide_eq_true_eq, decide_eq_true_eq]
      exact (sub_le_sub_right passed stamp).trans
    rw [← same]
    exact paced.covers.filter _
  bounded := paced.bounded

theorem accept (paced : Paced width bound clock kept admitted) (room : kept.length < bound)
    (passed : clock ≤ stamp) :
    Paced width bound stamp (kept ++ [stamp]) (admitted ++ [stamp]) where
  covers := by
    have earlier : (recent width stamp admitted).Sublist kept :=
      (recent_sublist_recent passed).trans paced.covers
    have last : (recent width stamp [stamp]).Sublist [stamp] := List.filter_sublist
    unfold recent
    rw [List.filter_append]
    exact earlier.append last
  bounded := by
    intro start
    unfold window
    rw [List.filter_append, List.length_append]
    by_cases inside : start ≤ stamp ∧ stamp ≤ start + width
    · -- all the others in the window are still kept, so there are less than `bound` of them
      have others : (window width start admitted).length ≤ kept.length :=
        ((window_sublist_recent (passed.trans inside.2)).trans paced.covers).length_le
      rw [List.filter_cons_of_pos (by simpa using inside)]
      exact Nat.lt_of_le_of_lt others room
    · rw [List.filter_cons_of_neg (by simpa using inside)]
      exact paced.bounded start

end Paced
end SlidingWindow
