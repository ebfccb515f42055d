import Eis.Memory.Recall

/-!
# When a memory is available

A memory is given out from the store or the update that makes it active until it
is invalidated, superseded or deleted, or updated to something inactive.  A blank
reason invalidates nothing, and an update revives what was invalidated.
-/

set_option autoImplicit false

namespace Eis.Memory

def Grants (memoryId : UUID) (past : List MemoryCall) (call : MemoryCall) : Prop :=
  call.memoryId = memoryId ∧
    match call with
    | .store memory => cell memoryId past = none ∧ memory.status = .active
    | .update memory => (cell memoryId past).isSome = true ∧ memory.status = .active
    | _ => False

def Withdraws : MemoryCall → Prop
  | .store _ => False
  | .update memory => memory.status ≠ .active
  | .invalidate _ reason _ => Text.strip reason ≠ ""
  | .supersede _ => True
  | .delete _ => True

/-- The memory has been made active, and nothing has withdrawn it since. -/
def Available (memoryId : UUID) (calls : List MemoryCall) : Prop :=
  ∃ past call later, calls = past ++ call :: later ∧ Grants memoryId past call ∧
    ∀ other ∈ later, other.memoryId = memoryId → ¬ Withdraws other

def Cell.active (held : Cell) : Prop := ∃ memory, held = some memory ∧ memory.status = .active

variable {memoryId : UUID} {calls : List MemoryCall} {call : MemoryCall}

/-- The cell of a memory is active behind a call on it when the call grants it,
or does not withdraw it and it was active before. -/
theorem active_after_iff (own : call.memoryId = memoryId) :
    ((cell memoryId calls).after call).active ↔
      Grants memoryId calls call ∨ (cell memoryId calls).active ∧ ¬ Withdraws call := by
  unfold Cell.active Grants
  cases call with
  | store memory =>
      cases held : cell memoryId calls <;> simp [Cell.after, Withdraws, own]
  | update memory =>
      cases held : cell memoryId calls <;> simp [Cell.after, Withdraws, own]
  | invalidate _ reason now =>
      cases held : cell memoryId calls with
      | none => simp [Cell.after]
      | some memory =>
          by_cases blank : Text.strip reason = "" <;>
            simp [Cell.after, Withdraws, MemoryRecord.invalidate, blank, Except.toOption]
  | supersede _ =>
      cases held : cell memoryId calls <;> simp [Cell.after, Withdraws, MemoryRecord.supersede]
  | delete _ => simp [Cell.after, Withdraws]

theorem available_snoc : Available memoryId (calls ++ [call]) ↔
    Grants memoryId calls call ∨
      Available memoryId calls ∧ (call.memoryId = memoryId → ¬ Withdraws call) := by
  constructor
  · rintro ⟨past, own, later, split, grants, kept⟩
    rcases List.eq_nil_or_concat later with rfl | ⟨front, last, rfl⟩
    · obtain ⟨rfl, same⟩ := List.append_inj' split rfl
      obtain rfl : call = own := by simpa using same
      exact Or.inl grants
    · have regrouped : calls ++ [call] = (past ++ own :: front) ++ [last] := by
        simpa using split
      obtain ⟨rfl, same⟩ := List.append_inj' regrouped rfl
      obtain rfl : call = last := by simpa using same
      refine Or.inr ⟨⟨past, own, front, rfl, grants, ?_⟩, kept call (by simp)⟩
      exact fun other member => kept other (by simp [member])
  · rintro (grants | ⟨⟨past, own, later, rfl, grants, kept⟩, last⟩)
    · exact ⟨calls, call, [], rfl, grants, by simp⟩
    · refine ⟨past, own, later ++ [call], by simp, grants, ?_⟩
      intro other member
      rcases List.mem_append.mp member with earlier | final
      · exact kept other earlier
      · obtain rfl : other = call := by simpa using final
        exact last

theorem cell_active_iff (calls : List MemoryCall) :
    (cell memoryId calls).active ↔ Available memoryId calls := by
  induction calls using List.reverseRecOn with
  | nil =>
      constructor
      · rintro ⟨_, ⟨⟩, _⟩
      · rintro ⟨past, call, later, split, _⟩
        simp at split
  | append_singleton calls call ih =>
      rw [cell_snoc, available_snoc, ← ih]
      split
      · rename_i own
        rw [active_after_iff own]
        simp [own]
      · rename_i other
        simp [other, Grants]

namespace LocalMemoryRepository

/-- In every run `get` gives a memory out exactly while it is available, and
`recall` lists none but available ones. -/
theorem given_out_iff_available (casefold : String → String) (reprDict : Dict → String)
    (calls : List MemoryCall) (memoryId : UUID) :
    (((reached calls).get memoryId).isSome = true ↔ Available memoryId calls) ∧
      ∀ query scope kind limit result,
        (reached calls).recall casefold reprDict query scope kind false limit = .ok result →
        ∀ memory ∈ result, Available memory.id calls := by
  constructor
  · rw [← cell_active_iff, get, get?_reached]
    unfold Cell.active
    cases held : cell memoryId calls with
    | none => simp
    | some memory => by_cases active : memory.status = .active <;> simp [active]
  · intro query scope kind limit result listed memory member
    unfold LocalMemoryRepository.recall at listed
    split at listed
    · cases listed
    · obtain rfl := Except.ok.inj listed
      have matching := List.mem_filter.mp (Ranking.mem_of_mem_largest _ member)
      refine (cell_active_iff calls).mp ⟨memory, mem_records.mp matching.1, ?_⟩
      have found := matching.2
      unfold matchesQuery at found
      split at found
      · cases found
      · split at found
        · cases found
        · split at found
          · cases found
          · rename_i shown
            simpa using shown

end LocalMemoryRepository

end Eis.Memory
