import Eis.Knowledge.History

/-!
# The versions of an entity

Whatever `with_version`, `invalidate` and `related_to` make of a new entity, its
versions are numbered by their places, the stored number is that of the last one, and
what a version says stays what it was.
-/

set_option autoImplicit false

namespace Eis.Knowledge

namespace KnowledgeEntity

def history (entity : KnowledgeEntity) : List (KnowledgeContent × Provenance) :=
  entity.versions.map fun version => (version.content, version.provenance)

theorem history_withVersion (entity : KnowledgeEntity) (now : ℚ) (content : KnowledgeContent)
    (provenance : Provenance) :
    (entity.withVersion now content provenance).history =
      entity.history ++ [(content, provenance)] := by
  simp [history, withVersion]

theorem history_invalidate (entity : KnowledgeEntity) (now : ℚ) (reason : String) :
    (entity.invalidate now reason).history = entity.history := by
  unfold history invalidate
  have inside : entity.currentVersion - 1 <
      (entity.versions.map fun version => (version.content, version.provenance)).length := by
    simpa using entity.current_lt
  have same : ((entity.invalidated now reason).content,
        (entity.invalidated now reason).provenance) =
      (entity.versions.map fun version =>
        (version.content, version.provenance))[entity.currentVersion - 1] := by
    simp [invalidated, current]
  rw [List.map_set, same, List.set_getElem_self]

theorem getLast?_versions (entity : KnowledgeEntity) :
    entity.versions.getLast? = some entity.current := by
  rw [List.getLast?_eq_getElem?, entity.length_versions]
  exact List.getElem?_eq_getElem entity.current_lt

end KnowledgeEntity

/-- The stored number is that of the last version, each version has the number of its
place, and only a last version that is not invalidated is active. -/
structure EntityInvariant (entity : KnowledgeEntity) : Prop where
  counted : entity.currentVersion = entity.versions.length
  numbered : ∀ i (inside : i < entity.versions.length),
    (entity.versions.get ⟨i, inside⟩).version = i + 1
  active : ∃ last, entity.versions.getLast? = some last ∧
    entity.activeVersion = if last.status = .invalidated then none else some last
  content : entity.content = none ↔ entity.activeVersion = none
  sources : ∀ relationship ∈ entity.relationships, relationship.sourceId = entity.id

theorem KnowledgeEntity.activeVersion_last (entity : KnowledgeEntity) :
    entity.activeVersion =
      if entity.current.status = .invalidated then none else some entity.current := by
  unfold activeVersion
  cases entity.current.status <;> rfl

namespace Derived

variable {base entity : KnowledgeEntity}

theorem history_grows (derived : Derived base entity) : base.history <+: entity.history := by
  induction derived with
  | refl => exact List.prefix_rfl
  | withVersion _ now content provenance ih =>
      rw [KnowledgeEntity.history_withVersion]
      exact ih.trans (List.prefix_append _ _)
  | relatedTo _ relationship ok ih =>
      obtain ⟨_, rfl⟩ := KnowledgeEntity.relatedTo_eq_ok ok
      exact ih
  | invalidate _ now reason ih =>
      rw [KnowledgeEntity.history_invalidate]
      exact ih

theorem sources (derived : Derived base entity)
    (start : ∀ relationship ∈ base.relationships, relationship.sourceId = base.id) :
    ∀ relationship ∈ entity.relationships, relationship.sourceId = entity.id := by
  induction derived with
  | refl => exact start
  | withVersion _ now content provenance ih => exact ih
  | relatedTo _ relationship ok ih =>
      obtain ⟨own, rfl⟩ := KnowledgeEntity.relatedTo_eq_ok ok
      intro other listed
      rcases List.mem_append.mp listed with former | last
      · exact ih other former
      · rw [List.mem_singleton.mp last]
        exact own
  | invalidate _ now reason ih => exact ih

end Derived

/-- Of every entity that is made of a new one, and of whatever is made of it later. -/
theorem entity_invariant {id : UUID} {now : ℚ} {kind : KnowledgeKind} {name : String}
    {content : KnowledgeContent} {provenance : Provenance} {description : Option String}
    {metadata : Dict} {entity : KnowledgeEntity}
    (derived : Derived
      (KnowledgeEntity.create id now kind name content provenance description metadata) entity) :
    EntityInvariant entity ∧
      ∀ later, Derived entity later → entity.history <+: later.history := by
  refine ⟨?_, fun _ made => made.history_grows⟩
  refine
    { counted := entity.length_versions.symm
      numbered := fun i inside => entity.version_get inside
      active := ⟨entity.current, entity.getLast?_versions, entity.activeVersion_last⟩
      content := Option.map_eq_none_iff
      sources := derived.sources ?start }
  case start =>
    intro relationship listed
    cases listed

open KnowledgeWorld in
/-- The second version is invalidated, and a third one comes behind it. -/
theorem entity_invariant_layered :
    EntityInvariant (layered.invalidate 3 "superseded") ∧
      layered.history <+: (layered.invalidate 3 "superseded").history ∧
      (layered.invalidate 3 "superseded").content = none ∧
      (layered.invalidate 3 "superseded").history <+:
        ((layered.invalidate 3 "superseded").withVersion 4 (.text "hexagonal")
          documentation).history := by
  have second : Derived architecture layered :=
    Derived.refl.withVersion 1 (.text "layered") documentation
  have withdrawn := second.invalidate 3 "superseded"
  have invariant := entity_invariant withdrawn
  refine ⟨invariant.1, (entity_invariant second).2 _ (Derived.refl.invalidate 3 "superseded"), ?_,
    invariant.2 _ (Derived.refl.withVersion 4 (.text "hexagonal") documentation)⟩
  rw [invariant.1.content, KnowledgeEntity.activeVersion_eq_none_iff, current_invalidate]
  rfl

end Eis.Knowledge
