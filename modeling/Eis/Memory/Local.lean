import Eis.Foundation.Ranking
import Eis.Memory.Models

/-!
# The local memory repository

`LocalMemoryRepository` keeps the records in a dictionary by their id.  A run of
it is the list of its calls; a call that raises changes nothing.  `casefold` is
`str.casefold`, and `reprDict` what `str` makes of a dictionary.
-/

set_option autoImplicit false

namespace Eis.Memory

structure LocalMemoryRepository where
  records : OrderedDict UUID MemoryRecord := Table.empty

namespace LocalMemoryRepository

variable (repository : LocalMemoryRepository)

def store (memory : MemoryRecord) : Except MemoryError (LocalMemoryRepository × MemoryRecord) :=
  match repository.records.get? memory.id with
  | some _ => .error (.valueError ("memory already exists: " ++ memory.id.str))
  | none => .ok ({ records := repository.records.setItem memory.id memory }, memory)

def get (memoryId : UUID) (includeInactive : Bool := false) : Option MemoryRecord :=
  match repository.records.get? memoryId with
  | none => none
  | some memory => if includeInactive = false ∧ memory.status ≠ .active then none else some memory

def matchesQuery (casefold : String → String) (reprDict : Dict → String) (query : String)
    (scope : Option MemoryScope) (kind : Option MemoryKind) (includeInactive : Bool)
    (memory : MemoryRecord) : Bool :=
  if scope.isSome ∧ scope ≠ some memory.scope then false
  else if kind.isSome ∧ kind ≠ some memory.kind then false
  else if includeInactive = false ∧ memory.status ≠ .active then false
  else Text.includes (casefold (memory.text reprDict)) (casefold query)

def «recall» (casefold : String → String) (reprDict : Dict → String) (query : String)
    (scope : Option MemoryScope := none) (kind : Option MemoryKind := none)
    (includeInactive : Bool := false) (limit : ℤ := 20) :
    Except MemoryError (List MemoryRecord) :=
  if limit < 1 then .error (.valueError "limit must be positive")
  else
    .ok (Ranking.largest MemoryRecord.rank limit.toNat
      ((repository.records.rows.map Prod.snd).filter
        (matchesQuery casefold reprDict query scope kind includeInactive)))

def update (memory : MemoryRecord) : Except MemoryError (LocalMemoryRepository × MemoryRecord) :=
  match repository.records.get? memory.id with
  | none => .error (.keyError ("unknown memory: " ++ memory.id.str))
  | some _ => .ok ({ records := repository.records.setItem memory.id memory }, memory)

def invalidate (memoryId : UUID) (reason : String) (now : ℚ) :
    Except MemoryError (LocalMemoryRepository × MemoryRecord) :=
  match repository.records.get? memoryId with
  | none => .error (.keyError ("unknown memory: " ++ memoryId.str))
  | some memory =>
      match memory.invalidate reason now with
      | .error error => .error error
      | .ok updated => .ok ({ records := repository.records.setItem memoryId updated }, updated)

def supersede (memoryId : UUID) : Except MemoryError (LocalMemoryRepository × MemoryRecord) :=
  match repository.records.get? memoryId with
  | none => .error (.keyError ("unknown memory: " ++ memoryId.str))
  | some memory =>
      .ok ({ records := repository.records.setItem memoryId memory.supersede }, memory.supersede)

def delete (memoryId : UUID) : LocalMemoryRepository :=
  { records := repository.records.pop memoryId }

end LocalMemoryRepository

/-! ## Runs -/

inductive MemoryCall where
  | store (memory : MemoryRecord)
  | update (memory : MemoryRecord)
  | invalidate (memoryId : UUID) (reason : String) (now : ℚ)
  | supersede (memoryId : UUID)
  | delete (memoryId : UUID)

def MemoryCall.memoryId : MemoryCall → UUID
  | .store memory => memory.id
  | .update memory => memory.id
  | .invalidate memoryId _ _ => memoryId
  | .supersede memoryId => memoryId
  | .delete memoryId => memoryId

namespace LocalMemoryRepository

def behind (repository : LocalMemoryRepository)
    (result : Except MemoryError (LocalMemoryRepository × MemoryRecord)) : LocalMemoryRepository :=
  match result with
  | .ok (next, _) => next
  | .error _ => repository

def after (repository : LocalMemoryRepository) : MemoryCall → LocalMemoryRepository
  | .store memory => repository.behind (repository.store memory)
  | .update memory => repository.behind (repository.update memory)
  | .invalidate memoryId reason now =>
      repository.behind (repository.invalidate memoryId reason now)
  | .supersede memoryId => repository.behind (repository.supersede memoryId)
  | .delete memoryId => repository.delete memoryId

def reached (calls : List MemoryCall) : LocalMemoryRepository := calls.foldl after {}

theorem reached_snoc (calls : List MemoryCall) (call : MemoryCall) :
    reached (calls ++ [call]) = (reached calls).after call := by
  unfold reached
  rw [List.foldl_append]
  rfl

end LocalMemoryRepository

/-! ## One memory by itself -/

/-- What one memory is in a run: nothing, or the record that is held of it. -/
abbrev Cell := Option MemoryRecord

def Cell.after (cell : Cell) : MemoryCall → Cell
  | .store memory => some (cell.getD memory)
  | .update memory => cell.map fun _ => memory
  | .invalidate _ reason now => cell.map fun held => (held.invalidate reason now).toOption.getD held
  | .supersede _ => cell.map MemoryRecord.supersede
  | .delete _ => none

def cell (memoryId : UUID) (calls : List MemoryCall) : Cell :=
  (calls.filter fun call => decide (call.memoryId = memoryId)).foldl Cell.after none

theorem cell_snoc (memoryId : UUID) (calls : List MemoryCall) (call : MemoryCall) :
    cell memoryId (calls ++ [call]) =
      if call.memoryId = memoryId then (cell memoryId calls).after call
      else cell memoryId calls := by
  unfold cell
  rw [List.filter_append, List.foldl_append]
  by_cases own : call.memoryId = memoryId <;> simp [own]

namespace LocalMemoryRepository

theorem after_cases (repository : LocalMemoryRepository) (call : MemoryCall) :
    (repository.after call = repository ∧
        Cell.after (repository.records.get? call.memoryId) call =
          repository.records.get? call.memoryId) ∨
      (∃ memory, Cell.after (repository.records.get? call.memoryId) call = some memory ∧
        (repository.after call).records = repository.records.setItem call.memoryId memory) ∨
      (Cell.after (repository.records.get? call.memoryId) call = none ∧
        (repository.after call).records = repository.records.pop call.memoryId) := by
  cases call with
  | store memory =>
      cases held : repository.records.get? memory.id with
      | none =>
          refine Or.inr (Or.inl ⟨memory, ?_, ?_⟩)
          · simp [MemoryCall.memoryId, held, Cell.after]
          · simp only [after, store, held, behind, MemoryCall.memoryId]
      | some own =>
          refine Or.inl ⟨?_, ?_⟩
          · simp only [after, store, held, behind]
          · simp [MemoryCall.memoryId, held, Cell.after]
  | update memory =>
      cases held : repository.records.get? memory.id with
      | none =>
          refine Or.inl ⟨?_, ?_⟩
          · simp only [after, update, held, behind]
          · simp [MemoryCall.memoryId, held, Cell.after]
      | some own =>
          refine Or.inr (Or.inl ⟨memory, ?_, ?_⟩)
          · simp [MemoryCall.memoryId, held, Cell.after]
          · simp only [after, update, held, behind, MemoryCall.memoryId]
  | invalidate memoryId reason now =>
      cases held : repository.records.get? memoryId with
      | none =>
          refine Or.inl ⟨?_, ?_⟩
          · simp only [after, invalidate, held, behind]
          · simp [MemoryCall.memoryId, held, Cell.after]
      | some own =>
          cases result : own.invalidate reason now with
          | error error =>
              refine Or.inl ⟨?_, ?_⟩
              · simp only [after, invalidate, held, result, behind]
              · simp [MemoryCall.memoryId, held, Cell.after, result, Except.toOption]
          | ok updated =>
              refine Or.inr (Or.inl ⟨updated, ?_, ?_⟩)
              · simp [MemoryCall.memoryId, held, Cell.after, result, Except.toOption]
              · simp only [after, invalidate, held, result, behind, MemoryCall.memoryId]
  | supersede memoryId =>
      cases held : repository.records.get? memoryId with
      | none =>
          refine Or.inl ⟨?_, ?_⟩
          · simp only [after, supersede, held, behind]
          · simp [MemoryCall.memoryId, held, Cell.after]
      | some own =>
          refine Or.inr (Or.inl ⟨own.supersede, ?_, ?_⟩)
          · simp [MemoryCall.memoryId, held, Cell.after]
          · simp only [after, supersede, held, behind, MemoryCall.memoryId]
  | delete memoryId => exact Or.inr (Or.inr ⟨rfl, rfl⟩)

/-- A call changes the memory that it is about, and no other. -/
theorem get?_after (repository : LocalMemoryRepository) (call : MemoryCall) (memoryId : UUID) :
    (repository.after call).records.get? memoryId =
      if call.memoryId = memoryId then Cell.after (repository.records.get? memoryId) call
      else repository.records.get? memoryId := by
  split
  · rename_i own
    subst own
    rcases after_cases repository call with ⟨same, kept⟩ | ⟨memory, replaced, next⟩ | ⟨gone, next⟩
    · rw [same, kept]
    · rw [replaced, next, OrderedDict.get?_setItem, if_pos rfl]
    · rw [gone, next, OrderedDict.get?_pop, if_pos rfl]
  · rename_i other
    rcases after_cases repository call with ⟨same, _⟩ | ⟨memory, _, next⟩ | ⟨_, next⟩
    · rw [same]
    · rw [next, OrderedDict.get?_setItem, if_neg (Ne.symm other)]
    · rw [next, OrderedDict.get?_pop, if_neg (Ne.symm other)]

theorem get?_reached (calls : List MemoryCall) (memoryId : UUID) :
    (reached calls).records.get? memoryId = cell memoryId calls := by
  induction calls using List.reverseRecOn with
  | nil => rfl
  | append_singleton calls call ih => rw [reached_snoc, get?_after, ih, cell_snoc]

end LocalMemoryRepository

end Eis.Memory
