import Mathlib.Data.Rat.Defs
import Mathlib.Data.List.Basic
import Mathlib.Data.List.Range
import Eis.Foundation.Uuid
import Eis.Foundation.Value

/-!
# Knowledge entities and their versions

The versions of an entity are numbered from one on, and the current one is the
last.  Moments are rationals; `now` is what the clock reads.
-/

set_option autoImplicit false

namespace Eis.Knowledge

inductive KnowledgeKind where
  | company
  | division
  | product
  | project
  | repository
  | architecture
  | engineeringStandard
  | businessRule
  | decision
  | terminology
  | documentation
  | workflow
  | policy
  | historical
deriving DecidableEq

inductive KnowledgeStatus where
  | active
  | invalidated
deriving DecidableEq

structure KnowledgeSource where
  sourceId : UUID
  sourceType : String
  locator : String
  title : Option String := none
  authority : Option String := none
  metadata : Dict := Table.empty

structure Provenance where
  source : KnowledgeSource
  capturedAt : ℚ
  sourceVersion : Option String := none
  contentHash : Option String := none
  ingestedBy : String := "eis"

structure KnowledgeRelationship where
  sourceId : UUID
  relation : String
  targetId : UUID
  metadata : Dict := Table.empty

inductive KnowledgeContent where
  | text (value : String)
  | fields (value : Dict)

structure KnowledgeVersion where
  version : ℕ
  content : KnowledgeContent
  provenance : Provenance
  createdAt : ℚ
  status : KnowledgeStatus := .active
  invalidatedAt : Option ℚ := none
  invalidationReason : Option String := none

structure KnowledgeEntity where
  id : UUID
  kind : KnowledgeKind
  name : String
  description : Option String
  currentVersion : ℕ
  versions : List KnowledgeVersion
  relationships : List KnowledgeRelationship := []
  metadata : Dict := Table.empty
  numbered : versions.map KnowledgeVersion.version = List.range' 1 currentVersion
  positive : 0 < currentVersion

namespace KnowledgeEntity

/-- `KnowledgeEntity.create`, where `id` is the fresh UUID -/
def create (id : UUID) (now : ℚ) (kind : KnowledgeKind) (name : String)
    (content : KnowledgeContent) (provenance : Provenance)
    (description : Option String := none) (metadata : Dict := Table.empty)
    (relationships : List KnowledgeRelationship := []) : KnowledgeEntity where
  id := id
  kind := kind
  name := name
  description := description
  currentVersion := 1
  versions := [{ version := 1, content := content, provenance := provenance, createdAt := now }]
  relationships := relationships
  metadata := metadata
  numbered := rfl
  positive := Nat.one_pos

variable (entity : KnowledgeEntity)

theorem length_versions : entity.versions.length = entity.currentVersion := by
  have numbers := congrArg List.length entity.numbered
  simpa using numbers

theorem current_lt : entity.currentVersion - 1 < entity.versions.length := by
  rw [entity.length_versions]
  have positive := entity.positive
  omega

/-- `self.versions[self.current_version - 1]` -/
def current : KnowledgeVersion := entity.versions.get ⟨_, entity.current_lt⟩

def activeVersion : Option KnowledgeVersion :=
  if entity.current.status = .active then some entity.current else none

def content : Option KnowledgeContent := entity.activeVersion.map KnowledgeVersion.content

theorem current_mem : entity.current ∈ entity.versions := List.get_mem ..

theorem version_get {i : ℕ} (inside : i < entity.versions.length) :
    (entity.versions.get ⟨i, inside⟩).version = i + 1 := by
  have bound : i < (entity.versions.map KnowledgeVersion.version).length := by simpa using inside
  have numbers : (entity.versions.map KnowledgeVersion.version)[i] = i + 1 := by
    simp only [entity.numbered, List.getElem_range']
    omega
  simpa using numbers

theorem current_version : entity.current.version = entity.currentVersion := by
  have positive := entity.positive
  have number := entity.version_get entity.current_lt
  unfold current
  omega

theorem version_le {version : KnowledgeVersion} (member : version ∈ entity.versions) :
    version.version ≤ entity.currentVersion := by
  obtain ⟨⟨i, inside⟩, rfl⟩ := List.get_of_mem member
  rw [entity.version_get inside]
  have length := entity.length_versions
  omega

theorem eq_current {version : KnowledgeVersion} (member : version ∈ entity.versions)
    (last : version.version = entity.currentVersion) : version = entity.current := by
  obtain ⟨⟨i, inside⟩, rfl⟩ := List.get_of_mem member
  rw [entity.version_get inside] at last
  obtain rfl : i = entity.currentVersion - 1 := by omega
  rfl

theorem activeVersion_eq_some_iff {version : KnowledgeVersion} :
    entity.activeVersion = some version ↔
      entity.current = version ∧ entity.current.status = .active := by
  unfold activeVersion
  split <;> simp_all

theorem activeVersion_eq_none_iff :
    entity.activeVersion = none ↔ entity.current.status = .invalidated := by
  unfold activeVersion
  cases status : entity.current.status <;> simp

def withVersion (now : ℚ) (content : KnowledgeContent) (provenance : Provenance) :
    KnowledgeEntity :=
  { entity with
    currentVersion := entity.currentVersion + 1
    versions := entity.versions ++
      [{ version := entity.currentVersion + 1
         content := content
         provenance := provenance
         createdAt := now }]
    numbered := by
      rw [List.map_append, entity.numbered, List.range'_1_concat, List.map_singleton,
        Nat.add_comm 1]
    positive := Nat.succ_pos _ }

def invalidated (now : ℚ) (reason : String) : KnowledgeVersion :=
  { entity.current with
    status := .invalidated
    invalidatedAt := some now
    invalidationReason := some reason }

theorem numbered_invalidated (now : ℚ) (reason : String) :
    (entity.versions.set (entity.currentVersion - 1)
        (entity.invalidated now reason)).map KnowledgeVersion.version =
      List.range' 1 entity.currentVersion := by
  have inside : entity.currentVersion - 1 <
      (entity.versions.map KnowledgeVersion.version).length := by
    simpa using entity.current_lt
  have same : (entity.invalidated now reason).version =
      (entity.versions.map KnowledgeVersion.version)[entity.currentVersion - 1] := by
    simp [invalidated, current]
  rw [List.map_set, same, List.set_getElem_self, entity.numbered]

def invalidate (now : ℚ) (reason : String) : KnowledgeEntity :=
  { entity with
    versions := entity.versions.set (entity.currentVersion - 1) (entity.invalidated now reason)
    numbered := entity.numbered_invalidated now reason }

def relatedTo (relationship : KnowledgeRelationship) : Except String KnowledgeEntity :=
  if relationship.sourceId ≠ entity.id then
    .error "relationship source must match entity id"
  else .ok { entity with relationships := entity.relationships ++ [relationship] }

theorem relatedTo_eq_ok {entity related : KnowledgeEntity} {relationship : KnowledgeRelationship}
    (ok : entity.relatedTo relationship = .ok related) :
    relationship.sourceId = entity.id ∧
      related = { entity with relationships := entity.relationships ++ [relationship] } := by
  unfold relatedTo at ok
  split at ok
  · cases ok
  · rename_i own
    exact ⟨not_not.mp own, (Except.ok.inj ok).symm⟩

end KnowledgeEntity

end Eis.Knowledge
