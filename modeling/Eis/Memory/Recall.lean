import Eis.Memory.Local

/-!
# What is recalled

`recall` lists the memories that match in falling relevance, the later observed
first, and memories that are alike in both in the order in which they came.
-/

set_option autoImplicit false

namespace Eis.Memory

/-- At some time the second memory was not held, and the first one was then and
has been ever since. -/
def HeldLonger (calls : List MemoryCall) (first second : UUID) : Prop :=
  ∃ past later, calls = past ++ later ∧ cell second past = none ∧
    ∀ between, between <+: later → (cell first (past ++ between)).isSome = true

def Before (calls : List MemoryCall) (first second : MemoryRecord) : Prop :=
  second.rank < first.rank ∨ first.rank = second.rank ∧ HeldLonger calls first.id second.id

/-- The memories that the calls have left and that are wanted, in their order up
to the limit. -/
structure Recalled (calls : List MemoryCall) (wanted : MemoryRecord → Bool) (limit : ℕ)
    (result : List MemoryRecord) : Prop where
  sound : ∀ memory ∈ result, cell memory.id calls = some memory ∧ wanted memory = true
  distinct : (result.map MemoryRecord.id).Nodup
  bounded : result.length ≤ limit
  ordered : result.Pairwise (Before calls)
  complete : ∀ memoryId memory, cell memoryId calls = some memory → wanted memory = true →
    memory ∉ result → result.length = limit ∧ ∀ kept ∈ result, Before calls kept memory

variable {calls : List MemoryCall} {call : MemoryCall}

theorem HeldLonger.snoc {first second : UUID} (longer : HeldLonger calls first second)
    (held : (cell first (calls ++ [call])).isSome = true) :
    HeldLonger (calls ++ [call]) first second := by
  obtain ⟨past, later, rfl, absent, since⟩ := longer
  refine ⟨past, later ++ [call], by simp, absent, ?_⟩
  intro between early
  rcases List.prefix_concat_iff.mp early with whole | earlier
  · rw [whole, ← List.append_assoc]
    exact held
  · exact since between earlier

theorem HeldLonger.last {first second : UUID} (absent : cell second calls = none)
    (held : (cell first calls).isSome = true)
    (still : (cell first (calls ++ [call])).isSome = true) :
    HeldLonger (calls ++ [call]) first second := by
  refine ⟨calls, [call], rfl, absent, ?_⟩
  intro between early
  rcases List.prefix_concat_iff.mp (show between <+: [] ++ [call] from early) with whole | none
  · simpa [whole] using still
  · simpa [List.prefix_nil.mp none] using held

theorem id_of_cell {memoryId : UUID} {memory : MemoryRecord}
    (held : cell memoryId calls = some memory) : memory.id = memoryId := by
  induction calls using List.reverseRecOn generalizing memory with
  | nil => cases held
  | append_singleton calls call ih =>
      rw [cell_snoc] at held
      split at held
      · rename_i own
        cases call with
        | store stored =>
            cases before : cell memoryId calls with
            | none =>
                obtain rfl : stored = memory := by simpa [Cell.after, before] using held
                exact own
            | some earlier =>
                obtain rfl : earlier = memory := by simpa [Cell.after, before] using held
                exact ih before
        | update stored =>
            obtain ⟨_, _, rfl⟩ := Option.map_eq_some_iff.mp held
            exact own
        | invalidate _ reason now =>
            obtain ⟨earlier, before, same⟩ := Option.map_eq_some_iff.mp held
            have kept := ih before
            rw [← same]
            unfold MemoryRecord.invalidate
            split <;> exact kept
        | supersede _ =>
            obtain ⟨earlier, before, rfl⟩ := Option.map_eq_some_iff.mp held
            have kept := ih before
            exact kept
        | delete _ => cases held
      · exact ih held

namespace LocalMemoryRepository

theorem mem_keys_iff {memoryId : UUID} :
    memoryId ∈ (reached calls).records.rows.map Prod.fst ↔
      (cell memoryId calls).isSome = true := by
  rw [← get?_reached, Option.isSome_iff_ne_none, Ne, OrderedDict.get?_eq_none_iff, not_not]

theorem keys_heldLonger (calls : List MemoryCall) :
    ((reached calls).records.rows.map Prod.fst).Pairwise (HeldLonger calls) := by
  induction calls using List.reverseRecOn with
  | nil => exact List.Pairwise.nil
  | append_singleton calls call ih =>
      -- the records that stay keep their order
      have kept : ∀ {keys : List UUID}, keys.Sublist ((reached calls).records.rows.map Prod.fst) →
          (∀ k ∈ keys, k ∈ (reached (calls ++ [call])).records.rows.map Prod.fst) →
          keys.Pairwise (HeldLonger (calls ++ [call])) := by
        intro keys sublist stay
        refine (ih.sublist sublist).imp_of_mem ?_
        intro first second member _ longer
        exact longer.snoc (mem_keys_iff.mp (stay first member))
      have same := reached_snoc calls call
      rcases after_cases (reached calls) call with ⟨next, _⟩ | ⟨memory, _, next⟩ | ⟨_, next⟩
      · rw [next] at same
        have all := kept (List.Sublist.refl _) fun k member => by rw [same]; exact member
        rw [same]
        exact all
      · have rows : (reached (calls ++ [call])).records =
            (reached calls).records.setItem call.memoryId memory := same ▸ next
        have keys := OrderedDict.keys_setItem (reached calls).records call.memoryId memory
        rw [← rows] at keys
        have all := kept (List.Sublist.refl _) fun k member => by
          rw [rows]
          exact OrderedDict.mem_keys_setItem.mpr (Or.inl member)
        rw [keys]
        split
        · exact all
        · rename_i absent
          refine List.pairwise_append.mpr ⟨all, List.pairwise_singleton _ _, ?_⟩
          intro first member second own
          rw [List.mem_singleton] at own
          subst own
          rw [mem_keys_iff, Bool.not_eq_true, Option.isSome_eq_false_iff,
            Option.isNone_iff_eq_none] at absent
          refine HeldLonger.last absent (mem_keys_iff.mp member) (mem_keys_iff.mp ?_)
          rw [rows]
          exact OrderedDict.mem_keys_setItem.mpr (Or.inl member)
      · have rows : (reached (calls ++ [call])).records =
            (reached calls).records.pop call.memoryId := same ▸ next
        refine kept ?_ fun k member => member
        rw [rows]
        exact List.filter_sublist.map Prod.fst

theorem mem_records {memory : MemoryRecord} :
    memory ∈ (reached calls).records.rows.map Prod.snd ↔ cell memory.id calls = some memory := by
  constructor
  · intro member
    obtain ⟨row, listed, rfl⟩ := List.mem_map.mp member
    have held := (OrderedDict.get?_eq_some_iff _ row.1 row.2).mpr listed
    rw [get?_reached] at held
    rw [id_of_cell held]
    exact held
  · intro held
    rw [← get?_reached] at held
    exact List.mem_map.mpr ⟨_, (OrderedDict.get?_eq_some_iff _ _ _).mp held, rfl⟩

theorem map_id_records (calls : List MemoryCall) :
    ((reached calls).records.rows.map Prod.snd).map MemoryRecord.id =
      (reached calls).records.rows.map Prod.fst := by
  rw [List.map_map]
  refine List.map_congr_left ?_
  intro row listed
  have held := (OrderedDict.get?_eq_some_iff _ row.1 row.2).mpr listed
  rw [get?_reached] at held
  exact id_of_cell held

/-- In every run `recall` lists what the calls have left, by rank and then by age. -/
theorem recall_recalled (casefold : String → String) (reprDict : Dict → String) (query : String)
    (scope : Option MemoryScope) (kind : Option MemoryKind) (includeInactive : Bool) {limit : ℤ}
    (positive : 1 ≤ limit) (calls : List MemoryCall) :
    ∃ result, (reached calls).recall casefold reprDict query scope kind includeInactive limit =
        .ok result ∧
      Recalled calls (matchesQuery casefold reprDict query scope kind includeInactive) limit.toNat
        result := by
  have granted : ¬ limit < 1 := by omega
  refine ⟨_, by rw [LocalMemoryRepository.recall, if_neg granted], ?_⟩
  generalize wantedIs : matchesQuery casefold reprDict query scope kind includeInactive = wanted
  have aged : ((reached calls).records.rows.map Prod.snd).Pairwise fun first second =>
      HeldLonger calls first.id second.id := by
    rw [← List.pairwise_map (f := MemoryRecord.id), map_id_records]
    exact keys_heldLonger calls
  have ordered := aged.filter wanted
  have mem_matching : ∀ memory, memory ∈ ((reached calls).records.rows.map Prod.snd).filter wanted ↔
      cell memory.id calls = some memory ∧ wanted memory = true := by
    intro memory
    rw [List.mem_filter, mem_records]
  have distinct : (((reached calls).records.rows.map Prod.snd).filter wanted).map
      MemoryRecord.id |>.Nodup := by
    refine ((reached calls).records.keyed).sublist ?_
    rw [← map_id_records]
    exact List.filter_sublist.map MemoryRecord.id
  generalize ((reached calls).records.rows.map Prod.snd).filter wanted = matching
    at ordered mem_matching distinct
  constructor
  case sound =>
    exact fun memory member => (mem_matching memory).mp (Ranking.mem_of_mem_largest _ member)
  case distinct =>
    have sorted := (Ranking.sorted_perm (fun memory : MemoryRecord =>
      OrderDual.toDual memory.rank) matching).map MemoryRecord.id
    exact (sorted.nodup_iff.mpr distinct).sublist ((List.take_sublist _ _).map _)
  case bounded => exact List.length_take_le _ _
  case ordered => exact Ranking.largest_stable _ _ ordered
  case complete =>
    intro memoryId memory held wants omitted
    have own := id_of_cell held
    subst own
    exact Ranking.largest_complete _ ordered ((mem_matching memory).mpr ⟨held, wants⟩) omitted

end LocalMemoryRepository

def observed (id : UUID) (relevance : ℚ) : MemoryRecord where
  id := id
  scope := .project
  kind := .fact
  content := .text "Deployment uses Python"
  provenance := { source := ⟨id, "event", "session", none, none, Table.empty⟩, capturedAt := 0 }
  createdAt := 0
  observedAt := 0
  confidence := 1
  relevance := relevance

def storedAgain : List MemoryCall :=
  [.store (observed ⟨1⟩ 1), .store (observed ⟨2⟩ 1), .delete ⟨1⟩, .store (observed ⟨1⟩ 1)]

theorem recall_recalled_storedAgain :
    ∃ result, (LocalMemoryRepository.reached storedAgain).recall Text.casefold (fun _ => "")
        "deploy" none none false 2 = .ok result ∧
      Recalled storedAgain (LocalMemoryRepository.matchesQuery Text.casefold (fun _ => "") "deploy"
        none none false) 2 result :=
  LocalMemoryRepository.recall_recalled Text.casefold (fun _ => "") "deploy" none none false
    (show (1 : ℤ) ≤ 2 by decide) storedAgain

end Eis.Memory
