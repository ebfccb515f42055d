import Mathlib.Algebra.GroupWithZero.Nat
import Mathlib.Algebra.BigOperators.Group.List.Basic
import Mathlib.Data.List.Forall2
import Mathlib.Data.List.Nodup

/-!
# Counting by group

The items of a list under keys: what is counted in each group adds up to what
is counted in the whole, and counts agree for lists that agree item by item.
-/

set_option autoImplicit false

universe u v w

namespace Grouping

variable {α : Type u} {β : Type w} {κ : Type v} [DecidableEq κ]

theorem sum_indicator {keys : List κ} (distinct : keys.Nodup) {k : κ} (listed : k ∈ keys)
    (n : ℕ) : (keys.map fun other => if k = other then n else 0).sum = n := by
  induction keys with
  | nil => cases listed
  | cons first rest ih =>
      obtain ⟨fresh, distinct⟩ := List.nodup_cons.mp distinct
      rw [List.map_cons, List.sum_cons]
      by_cases same : k = first
      · have others : (rest.map fun other => if k = other then n else 0).sum = 0 := by
          apply List.sum_eq_zero
          intro value member
          obtain ⟨other, present, rfl⟩ := List.mem_map.mp member
          apply if_neg
          intro same'
          exact fresh (same ▸ same' ▸ present)
        rw [if_pos same, others]
        rfl
      · have member : k ∈ rest := (List.mem_cons.mp listed).resolve_left same
        rw [if_neg same, Nat.zero_add]
        exact ih distinct member

theorem sum_countP {keys : List κ} (distinct : keys.Nodup) (key : α → κ)
    (listed : ∀ item, key item ∈ keys) (counted : α → Bool) (items : List α) :
    (keys.map fun k => (items.filter fun item => decide (key item = k)).countP counted).sum =
      items.countP counted := by
  induction items with
  | nil => simp
  | cons item rest ih =>
      have split : (fun k => ((item :: rest).filter fun item => decide (key item = k)).countP
            counted) =
          fun k => (rest.filter fun item => decide (key item = k)).countP counted +
            if key item = k then (if counted item then 1 else 0) else 0 := by
        funext k
        by_cases own : key item = k
        · simp [own, List.countP_cons]
        · simp [own]
      rw [split, List.sum_map_add, ih, sum_indicator distinct (listed item), List.countP_cons]

theorem countP_congr {related : α → β → Prop} {counted : α → Bool} {counted' : β → Bool}
    (same : ∀ a b, related a b → counted a = counted' b) {items : List α} {others : List β}
    (pointwise : List.Forall₂ related items others) :
    items.countP counted = others.countP counted' := by
  induction pointwise with
  | nil => rfl
  | cons first _ ih => rw [List.countP_cons, List.countP_cons, same _ _ first, ih]

theorem countP_le {related : α → β → Prop} {counted : α → Bool} {counted' : β → Bool}
    (implied : ∀ a b, related a b → counted a = true → counted' b = true) {items : List α}
    {others : List β} (pointwise : List.Forall₂ related items others) :
    items.countP counted ≤ others.countP counted' := by
  induction pointwise with
  | nil => exact Nat.zero_le _
  | @cons item other rest later first _ ih =>
      rw [List.countP_cons, List.countP_cons]
      by_cases counts : counted item = true
      · rw [if_pos counts, if_pos (implied item other first counts)]
        exact Nat.add_le_add_right ih 1
      · rw [if_neg counts]
        exact Nat.le_add_right_of_le ih

end Grouping
