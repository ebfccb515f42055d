import Mathlib.Data.List.Nodup

/-!
# Keyed tables

A table with a primary key, its rows listed in the order of insertion.  The
structure carries the uniqueness of the key, so a table with two rows under
one key cannot be built.
-/

set_option autoImplicit false

universe u v w

structure Table {κ : Type u} {ρ : Type v} (key : ρ → κ) where
  rows : List ρ
  keyed : (rows.map key).Nodup

namespace Table

variable {κ : Type u} {ρ : Type v} {α : Type w} {key : ρ → κ}

def empty : Table key := ⟨[], List.nodup_nil⟩

/-- `SELECT * ... WHERE key = k`. -/
def find [DecidableEq κ] (table : Table key) (k : κ) : Option ρ :=
  table.rows.find? fun row => decide (key row = k)

/-- `SELECT * ... WHERE selected ORDER BY rowid LIMIT 1`. -/
def first (table : Table key) (selected : ρ → Bool) : Option ρ :=
  table.rows.find? selected

/-- The `rowcount` of a statement whose `WHERE` clause is `selected`. -/
def rowcount (table : Table key) (selected : ρ → Bool) : Nat :=
  table.rows.countP selected

/-- `INSERT`; `none` stands for the violated primary key. -/
def insert [DecidableEq κ] (table : Table key) (row : ρ) : Option (Table key) :=
  if fresh : key row ∈ table.rows.map key then none
  else some ⟨table.rows ++ [row], by
    rw [List.map_append]
    exact List.nodup_append.mpr ⟨table.keyed, by simp, by
      intro a member b other same
      obtain rfl : b = key row := by simpa using other
      exact fresh (same ▸ member)⟩⟩

/-- `UPDATE ... SET change WHERE selected`, for an assignment that leaves the
key alone. -/
def updateWhere (table : Table key) (selected : ρ → Bool) (change : ρ → ρ)
    (keeps : ∀ row, selected row = true → key (change row) = key row) : Table key where
  rows := table.rows.map fun row => if selected row then change row else row
  keyed := by
    have same : (key ∘ fun row => if selected row then change row else row) = key := by
      funext row
      by_cases chosen : selected row = true
      · simp [chosen, keeps row chosen]
      · simp [chosen]
    rw [List.map_map, same]
    exact table.keyed

/-- `INSERT ... ON CONFLICT(key) DO UPDATE SET` every column. -/
def upsert [DecidableEq κ] (table : Table key) (row : ρ) : Table key :=
  match table.insert row with
  | some inserted => inserted
  | none =>
      table.updateWhere (fun old => decide (key old = key row)) (fun _ => row)
        fun _ chosen => (of_decide_eq_true chosen).symm

section Find
variable [DecidableEq κ]

theorem find_eq_some_iff (table : Table key) (k : κ) (row : ρ) :
    table.find k = some row ↔ row ∈ table.rows ∧ key row = k := by
  constructor
  · intro found
    have keyExact : key row = k := by
      simpa using List.find?_some found
    exact ⟨List.mem_of_find?_eq_some found, keyExact⟩
  · rintro ⟨member, rfl⟩
    cases found : table.find (key row) with
    | none =>
        have absent := List.find?_eq_none.mp found row member
        simp at absent
    | some other =>
        have sameKey : key other = key row := by
          simpa using List.find?_some found
        have otherMember : other ∈ table.rows := List.mem_of_find?_eq_some found
        rw [List.inj_on_of_nodup_map table.keyed otherMember member sameKey]

theorem find_key (table : Table key) {k : κ} {row : ρ}
    (found : table.find k = some row) : key row = k :=
  ((table.find_eq_some_iff k row).mp found).2

theorem find_eq_none_iff (table : Table key) (k : κ) :
    table.find k = none ↔ k ∉ table.rows.map key := by
  simp [find, List.find?_eq_none]

theorem first_mem (table : Table key) {selected : ρ → Bool} {row : ρ}
    (found : table.first selected = some row) :
    table.find (key row) = some row ∧ selected row = true :=
  ⟨(table.find_eq_some_iff _ _).mpr ⟨List.mem_of_find?_eq_some found, rfl⟩,
    List.find?_some found⟩

theorem insert_eq_some {table inserted : Table key} {row : ρ}
    (success : table.insert row = some inserted) :
    table.find (key row) = none ∧ inserted.rows = table.rows ++ [row] := by
  unfold insert at success
  split at success
  · contradiction
  · rename_i fresh
    obtain rfl := Option.some.inj success
    exact ⟨(table.find_eq_none_iff _).mpr fresh, rfl⟩

theorem insert_eq_none {table : Table key} {row : ρ}
    (refused : table.insert row = none) : ∃ old, table.find (key row) = some old := by
  unfold insert at refused
  split at refused
  · rename_i present
    cases found : table.find (key row) with
    | none => exact absurd present ((table.find_eq_none_iff _).mp found)
    | some old => exact ⟨old, rfl⟩
  · contradiction

theorem find_insert {table inserted : Table key} {row : ρ}
    (success : table.insert row = some inserted) (k : κ) :
    inserted.find k = if key row = k then some row else table.find k := by
  obtain ⟨fresh, rows⟩ := insert_eq_some success
  unfold find
  rw [rows, List.find?_append]
  by_cases same : key row = k
  · subst same
    rw [show table.rows.find? _ = none from fresh]
    simp
  · simp [same]

theorem find_updateWhere (table : Table key) (selected : ρ → Bool) (change : ρ → ρ)
    (keeps : ∀ row, selected row = true → key (change row) = key row) (k : κ) :
    (table.updateWhere selected change keeps).find k =
      (table.find k).map fun row => if selected row then change row else row := by
  unfold find updateWhere
  rw [List.find?_map]
  congr 2
  funext row
  by_cases chosen : selected row = true
  · simp [chosen, keeps row chosen]
  · simp [chosen]

@[simp] theorem find_upsert_self (table : Table key) (row : ρ) :
    (table.upsert row).find (key row) = some row := by
  unfold upsert
  split
  · rename_i inserted success
    simp [find_insert success]
  · rename_i refused
    obtain ⟨old, found⟩ := insert_eq_none refused
    simp [find_updateWhere, found, table.find_key found]

theorem find_upsert_of_ne (table : Table key) (row : ρ) {k : κ}
    (other : key row ≠ k) : (table.upsert row).find k = table.find k := by
  unfold upsert
  split
  · rename_i inserted success
    simp [find_insert success, other]
  · rw [find_updateWhere]
    cases found : table.find k with
    | none => rfl
    | some old =>
        have oldKey := table.find_key found
        have unselected : ¬ key old = key row := fun same => other (same ▸ oldKey)
        simp [unselected]

theorem rowcount_key (table : Table key) (k : κ) (selected : ρ → Bool) :
    table.rowcount (fun row => decide (key row = k) && selected row) =
      if (table.find k).any selected then 1 else 0 := by
  obtain ⟨rows, keyed⟩ := table
  unfold rowcount find
  induction rows with
  | nil => rfl
  | cons row rest ih =>
      obtain ⟨unique, restKeyed⟩ := List.nodup_cons.mp keyed
      by_cases same : key row = k
      · have others : rest.countP (fun row => decide (key row = k) && selected row) = 0 := by
          apply List.countP_eq_zero.mpr
          intro other member
          have different : ¬ key other = k := fun otherKey =>
            unique (same ▸ otherKey ▸ List.mem_map_of_mem member)
          simp [different]
        cases chosen : selected row <;>
          simp [same, chosen, others]
      · simpa [same] using ih restKeyed

end Find

/-! ## Columns -/

theorem rows_updateWhere (table : Table key) (selected : ρ → Bool) (change : ρ → ρ)
    (keeps : ∀ row, selected row = true → key (change row) = key row) :
    (table.updateWhere selected change keeps).rows =
      table.rows.map fun row => if selected row then change row else row := rfl

theorem forall_updateWhere (table : Table key) (selected : ρ → Bool) (change : ρ → ρ)
    (keeps : ∀ row, selected row = true → key (change row) = key row) {P : ρ → Prop}
    (before : ∀ row ∈ table.rows, P row) (kept : ∀ row, P row → P (change row)) :
    ∀ row ∈ (table.updateWhere selected change keeps).rows, P row := by
  intro row member
  obtain ⟨old, oldMember, rfl⟩ := List.mem_map.mp member
  split
  · exact kept old (before old oldMember)
  · exact before old oldMember

theorem updateWhere_eq_self (table : Table key) (selected : ρ → Bool) (change : ρ → ρ)
    (keeps : ∀ row, selected row = true → key (change row) = key row)
    (never : ∀ row ∈ table.rows, selected row = false) :
    table.updateWhere selected change keeps = table := by
  obtain ⟨rows, keyed⟩ := table
  unfold updateWhere
  congr 1
  conv_rhs => rw [← List.map_id rows]
  refine List.map_congr_left fun row member => if_neg ?_
  rw [never row member]
  exact Bool.false_ne_true

theorem rows_updateWhere_one (table : Table key) (selected : ρ → Bool) (change : ρ → ρ)
    (keeps : ∀ row, selected row = true → key (change row) = key row)
    {before after : List ρ} {row : ρ} (rows_ : table.rows = before ++ row :: after)
    (chosen : selected row = true) (only : ∀ other, selected other = true → key other = key row) :
    (table.updateWhere selected change keeps).rows = before ++ change row :: after := by
  have keyed := table.keyed
  rw [rows_, List.map_append, List.map_cons] at keyed
  obtain ⟨_, keyedAfter, apart⟩ := List.nodup_append.mp keyed
  have others : ∀ items : List ρ, (∀ other ∈ items, key other ≠ key row) →
      (items.map fun row => if selected row then change row else row) = items := by
    intro items different
    conv_rhs => rw [← List.map_id items]
    refine List.map_congr_left fun other member => if_neg fun selected_ => ?_
    exact different other member (only other selected_)
  rw [rows_updateWhere, rows_, List.map_append, List.map_cons, if_pos chosen, others, others]
  · intro other member same
    exact (List.nodup_cons.mp keyedAfter).1 (same ▸ List.mem_map_of_mem member)
  · intro other member same
    exact apart _ (List.mem_map_of_mem member) _ List.mem_cons_self same

theorem column_updateWhere (table : Table key) (selected : ρ → Bool) (change : ρ → ρ)
    (keeps : ∀ row, selected row = true → key (change row) = key row)
    (column : ρ → α) (unset : ∀ row, column (change row) = column row) :
    (table.updateWhere selected change keeps).rows.map column =
      table.rows.map column := by
  rw [rows_updateWhere, List.map_map]
  congr 1
  funext row
  simp only [Function.comp_apply]
  split
  · exact unset row
  · rfl

end Table
