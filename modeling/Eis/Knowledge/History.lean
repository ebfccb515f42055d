import Eis.Foundation.Run
import Eis.Knowledge.Local

/-!
# The history that updates may lose

`update` puts the whole entity in the place of the stored one, whatever it was
derived from.  The history of an entity is kept exactly as long as every update
brings along all that is stored.
-/

set_option autoImplicit false

namespace Eis.Knowledge

open Transition

/-! ## Derivations -/

/-- What `with_version`, `related_to` and `invalidate` make of an entity. -/
inductive Derived (base : KnowledgeEntity) : KnowledgeEntity → Prop where
  | refl : Derived base base
  | withVersion {entity : KnowledgeEntity} (derived : Derived base entity) (now : ℚ)
      (content : KnowledgeContent) (provenance : Provenance) :
      Derived base (entity.withVersion now content provenance)
  | relatedTo {entity related : KnowledgeEntity} (derived : Derived base entity)
      (relationship : KnowledgeRelationship) (ok : entity.relatedTo relationship = .ok related) :
      Derived base related
  | invalidate {entity : KnowledgeEntity} (derived : Derived base entity) (now : ℚ)
      (reason : String) : Derived base (entity.invalidate now reason)

/-! ## What a later state keeps of an earlier one -/

/-- Every version is there at the same number, with its content and provenance. -/
def Retains (earlier later : KnowledgeEntity) : Prop :=
  ∀ version ∈ earlier.versions, ∃ kept ∈ later.versions, kept.version = version.version ∧
    kept.content = version.content ∧ kept.provenance = version.provenance

def Settles (earlier later : KnowledgeEntity) : Prop :=
  ∀ version ∈ earlier.versions, version.status = .invalidated →
    ∀ active, later.activeVersion = some active → active.version ≠ version.version

theorem Retains.refl (entity : KnowledgeEntity) : Retains entity entity := by
  intro version member
  exact ⟨version, member, rfl, rfl, rfl⟩

theorem Retains.trans {first second third : KnowledgeEntity} (before : Retains first second)
    (after : Retains second third) : Retains first third := by
  intro version member
  obtain ⟨kept, present, number, content, provenance⟩ := before version member
  obtain ⟨last, present', number', content', provenance'⟩ := after kept present
  exact ⟨last, present', number'.trans number, content'.trans content,
    provenance'.trans provenance⟩

theorem Retains.version_le {earlier later : KnowledgeEntity} (retains : Retains earlier later)
    {version : KnowledgeVersion} (member : version ∈ earlier.versions) :
    version.version ≤ later.currentVersion := by
  obtain ⟨kept, present, number, -⟩ := retains version member
  rw [← number]
  exact later.version_le present

theorem Retains.currentVersion_le {earlier later : KnowledgeEntity}
    (retains : Retains earlier later) : earlier.currentVersion ≤ later.currentVersion := by
  rw [← earlier.current_version]
  exact retains.version_le earlier.current_mem

/-- The condition on an update: the entity has all that is stored, and does not
make the stored version active again if that is invalidated. -/
structure Supersedes (stored entity : KnowledgeEntity) : Prop where
  retains : Retains stored entity
  settled : stored.activeVersion = none → entity.currentVersion = stored.currentVersion →
    entity.activeVersion = none

theorem Supersedes.settles {earlier stored entity : KnowledgeEntity}
    (supersedes : Supersedes stored entity) (retains : Retains earlier stored)
    (settles : Settles earlier stored) : Settles earlier entity := by
  intro version member invalidated active isActive same
  have grown := supersedes.retains.currentVersion_le
  have bound := retains.version_le member
  obtain ⟨rfl, -⟩ := entity.activeVersion_eq_some_iff.mp isActive
  rw [entity.current_version] at same
  have unmoved : entity.currentVersion = stored.currentVersion := by omega
  cases standing : stored.activeVersion with
  | none =>
      rw [supersedes.settled standing unmoved] at isActive
      cases isActive
  | some standingVersion =>
      obtain ⟨rfl, -⟩ := stored.activeVersion_eq_some_iff.mp standing
      apply settles version member invalidated _ standing
      rw [stored.current_version]
      omega

theorem Settles.refl (entity : KnowledgeEntity) : Settles entity entity := by
  intro version member invalidated active isActive same
  obtain ⟨rfl, standing⟩ := entity.activeVersion_eq_some_iff.mp isActive
  rw [entity.current_version] at same
  rw [entity.eq_current member same.symm, standing] at invalidated
  cases invalidated

theorem KnowledgeEntity.relatedTo_id {entity related : KnowledgeEntity}
    {relationship : KnowledgeRelationship} (ok : entity.relatedTo relationship = .ok related) :
    related.id = entity.id := by
  obtain ⟨_, rfl⟩ := KnowledgeEntity.relatedTo_eq_ok ok
  rfl

theorem supersedes_relatedTo {entity related : KnowledgeEntity}
    {relationship : KnowledgeRelationship} (ok : entity.relatedTo relationship = .ok related) :
    Supersedes entity related := by
  obtain ⟨_, rfl⟩ := KnowledgeEntity.relatedTo_eq_ok ok
  exact ⟨Retains.refl entity, fun standing _ => standing⟩

theorem current_invalidate (entity : KnowledgeEntity) (now : ℚ) (reason : String) :
    (entity.invalidate now reason).current = entity.invalidated now reason := by
  simp [KnowledgeEntity.current, KnowledgeEntity.invalidate]

theorem supersedes_invalidate (entity : KnowledgeEntity) (now : ℚ) (reason : String) :
    Supersedes entity (entity.invalidate now reason) := by
  have last : (entity.invalidate now reason).current ∈ (entity.invalidate now reason).versions :=
    KnowledgeEntity.current_mem _
  rw [current_invalidate] at last
  refine ⟨?_, fun _ _ => ?_⟩
  · intro version member
    by_cases number : version.version = entity.currentVersion
    · obtain rfl := entity.eq_current member number
      exact ⟨_, last, rfl, rfl, rfl⟩
    · refine ⟨version, ?_, rfl, rfl, rfl⟩
      obtain ⟨⟨i, inside⟩, rfl⟩ := List.get_of_mem member
      rw [entity.version_get inside] at number
      have positive := entity.positive
      have elsewhere : entity.currentVersion - 1 ≠ i := by omega
      refine List.mem_of_getElem? (i := i) ?_
      simp [KnowledgeEntity.invalidate, List.getElem?_set_ne elsewhere]
  · rw [KnowledgeEntity.activeVersion_eq_none_iff, current_invalidate]
    rfl

/-! ## Runs of the repository -/

/-- The repository together with all states that it ever stored. -/
structure KnowledgeWorld where
  repository : LocalKnowledgeRepository := {}
  stored : List KnowledgeEntity := []

inductive KnowledgeOperation where
  | create (entity : KnowledgeEntity)
  | update (entity : KnowledgeEntity)
  | addRelationship (relationship : KnowledgeRelationship)
  | invalidate (entityId : UUID) (reason : String) (now : ℚ)

namespace KnowledgeWorld

def call (world : KnowledgeWorld) :
    KnowledgeOperation → Except KnowledgeError (LocalKnowledgeRepository × KnowledgeEntity)
  | .create entity => world.repository.create entity
  | .update entity => world.repository.update entity
  | .addRelationship relationship => world.repository.addRelationship relationship
  | .invalidate entityId reason now => world.repository.invalidate entityId reason now

/-- A call that raises changes nothing. -/
def next (world : KnowledgeWorld) (operation : KnowledgeOperation) : KnowledgeWorld :=
  match world.call operation with
  | .ok (repository, entity) =>
      { repository := repository, stored := world.stored ++ [entity] }
  | .error _ => world

/-- An update is given an entity that was derived from some stored state. -/
def Available (world : KnowledgeWorld) : KnowledgeOperation → Prop
  | .update entity => ∃ base ∈ world.stored, base.id = entity.id ∧ Derived base entity
  | _ => True

def Step (world : KnowledgeWorld) (operation : KnowledgeOperation) (after : KnowledgeWorld) :
    Prop :=
  world.Available operation ∧ after = world.next operation

/-- The history of every entity is there, and what was invalidated is not returned
as active, neither by `get` nor by `search`. -/
structure AppendOnly (world : KnowledgeWorld) : Prop where
  retained : ∀ earlier ∈ world.stored, ∃ row,
    world.repository.get earlier.id true = some row ∧ Retains earlier row
  got : ∀ earlier ∈ world.stored, ∀ includeInvalidated entity,
    world.repository.get earlier.id includeInvalidated = some entity → Settles earlier entity
  found : ∀ earlier ∈ world.stored,
    ∀ casefold reprDict query kind includeInvalidated limit entities,
    world.repository.search casefold reprDict query kind includeInvalidated limit = .ok entities →
      ∀ entity ∈ entities, entity.id = earlier.id → Settles earlier entity

def UpdateSupersedes (world : KnowledgeWorld) (operation : KnowledgeOperation) : Prop :=
  ∀ entity row, operation = .update entity →
    world.repository.get entity.id true = some row → Supersedes row entity

/-- The rows are under their ids, they were stored, and nothing was removed. -/
structure Recorded (world : KnowledgeWorld) : Prop where
  row : ∀ k row, world.repository.entities.get? k = some row → row.id = k ∧ row ∈ world.stored
  present : ∀ earlier ∈ world.stored, ∃ row,
    world.repository.entities.get? earlier.id = some row

def RowsKeep (world : KnowledgeWorld) : Prop :=
  ∀ earlier ∈ world.stored, ∀ row, world.repository.entities.get? earlier.id = some row →
    Retains earlier row ∧ Settles earlier row

end KnowledgeWorld

theorem LocalKnowledgeRepository.get_true (repository : LocalKnowledgeRepository) (k : UUID) :
    repository.get k true = repository.entities.get? k := by
  unfold LocalKnowledgeRepository.get
  cases repository.entities.get? k <;> simp

theorem LocalKnowledgeRepository.get_row {repository : LocalKnowledgeRepository} {k : UUID}
    {includeInvalidated : Bool} {entity : KnowledgeEntity}
    (got : repository.get k includeInvalidated = some entity) :
    repository.entities.get? k = some entity := by
  unfold LocalKnowledgeRepository.get at got
  cases found : repository.entities.get? k with
  | none =>
      rw [found] at got
      cases got
  | some row =>
      rw [found] at got
      simp only at got
      split at got
      · cases got
      · exact got

theorem LocalKnowledgeRepository.search_row {repository : LocalKnowledgeRepository}
    {casefold : String → String} {reprDict : Dict → String} {query : String}
    {kind : Option KnowledgeKind} {includeInvalidated : Bool} {limit : ℤ}
    {entities : List KnowledgeEntity}
    (searched : repository.search casefold reprDict query kind includeInvalidated limit =
      .ok entities)
    {entity : KnowledgeEntity} (member : entity ∈ entities) :
    ∃ k, repository.entities.get? k = some entity := by
  unfold LocalKnowledgeRepository.search at searched
  split at searched
  · cases searched
  · obtain rfl := Except.ok.inj searched
    have kept := List.mem_of_mem_filter (List.mem_of_mem_take member)
    obtain ⟨item, present, rfl⟩ := List.mem_map.mp kept
    exact ⟨item.1, (OrderedDict.get?_eq_some_iff _ _ _).mpr present⟩

namespace KnowledgeWorld

theorem Recorded.appendOnly_iff {world : KnowledgeWorld} (recorded : Recorded world) :
    AppendOnly world ↔ RowsKeep world := by
  constructor
  · intro law earlier member row found
    have got : world.repository.get earlier.id true = some row := by
      rw [LocalKnowledgeRepository.get_true, found]
    obtain ⟨row', got', retains⟩ := law.retained earlier member
    obtain rfl := Option.some.inj (got.symm.trans got')
    exact ⟨retains, law.got earlier member true row got⟩
  · intro keep
    refine { retained := ?retained, got := ?got, found := ?found }
    case retained =>
      intro earlier member
      obtain ⟨row, found⟩ := recorded.present earlier member
      refine ⟨row, ?_, (keep earlier member row found).1⟩
      rw [LocalKnowledgeRepository.get_true, found]
    case got =>
      intro earlier member includeInvalidated entity got
      exact (keep earlier member entity (LocalKnowledgeRepository.get_row got)).2
    case found =>
      intro earlier member casefold reprDict query kind includeInvalidated limit entities searched
        entity among same
      obtain ⟨k, found⟩ := LocalKnowledgeRepository.search_row searched among
      obtain ⟨key, -⟩ := recorded.row k entity found
      subst key
      exact (keep earlier member entity (same ▸ found)).2

theorem Recorded.call_cases {world : KnowledgeWorld} (recorded : Recorded world)
    {operation : KnowledgeOperation} {repository : LocalKnowledgeRepository}
    {entity : KnowledgeEntity} (called : world.call operation = .ok (repository, entity)) :
    repository.entities = world.repository.entities.setItem entity.id entity ∧
      (world.repository.entities.get? entity.id = none ∧ operation = .create entity ∨
        ∃ row, world.repository.entities.get? entity.id = some row ∧
          (operation = .update entity ∨
            Supersedes row entity ∧ ∀ given, operation ≠ .update given)) := by
  cases operation with
  | create given =>
      unfold call LocalKnowledgeRepository.create at called
      cases found : world.repository.entities.get? given.id with
      | some row => simp [found] at called
      | none =>
          simp only [found, Except.ok.injEq, Prod.mk.injEq] at called
          obtain ⟨rfl, rfl⟩ := called
          exact ⟨rfl, Or.inl ⟨found, rfl⟩⟩
  | update given =>
      unfold call LocalKnowledgeRepository.update at called
      cases found : world.repository.entities.get? given.id with
      | none => simp [found] at called
      | some row =>
          simp only [found, Except.ok.injEq, Prod.mk.injEq] at called
          obtain ⟨rfl, rfl⟩ := called
          exact ⟨rfl, Or.inr ⟨row, found, Or.inl rfl⟩⟩
  | addRelationship relationship =>
      unfold call LocalKnowledgeRepository.addRelationship at called
      cases found : world.repository.entities.get? relationship.sourceId with
      | none => simp [found] at called
      | some row =>
          obtain ⟨key, -⟩ := recorded.row _ _ found
          cases related : row.relatedTo relationship with
          | error message => simp [found, related] at called
          | ok updated =>
              simp only [found, related, Except.ok.injEq, Prod.mk.injEq] at called
              obtain ⟨rfl, rfl⟩ := called
              have same : updated.id = row.id := KnowledgeEntity.relatedTo_id related
              rw [same]
              refine ⟨rfl, Or.inr ⟨row, key ▸ found, Or.inr ⟨supersedes_relatedTo related, ?_⟩⟩⟩
              intro given differs
              cases differs
  | invalidate entityId reason now =>
      unfold call LocalKnowledgeRepository.invalidate at called
      cases found : world.repository.entities.get? entityId with
      | none => simp [found] at called
      | some row =>
          obtain ⟨rfl, -⟩ := recorded.row _ _ found
          simp only [found, Except.ok.injEq, Prod.mk.injEq] at called
          obtain ⟨rfl, rfl⟩ := called
          refine ⟨rfl, Or.inr ⟨row, found, Or.inr ⟨supersedes_invalidate row now reason, ?_⟩⟩⟩
          intro given differs
          cases differs

theorem Recorded.empty : Recorded {} where
  row := by
    intro k row found
    cases found
  present := by
    intro earlier member
    cases member

theorem RowsKeep.empty : RowsKeep {} := by
  intro earlier member
  cases member

def store (world : KnowledgeWorld) (entity : KnowledgeEntity) : KnowledgeWorld where
  repository := { entities := world.repository.entities.setItem entity.id entity }
  stored := world.stored ++ [entity]

theorem get?_store (world : KnowledgeWorld) (entity : KnowledgeEntity) (k : UUID) :
    (world.store entity).repository.entities.get? k =
      if k = entity.id then some entity else world.repository.entities.get? k :=
  OrderedDict.get?_setItem _ _ _ _

theorem Recorded.store {world : KnowledgeWorld} (recorded : Recorded world)
    (entity : KnowledgeEntity) : Recorded (world.store entity) where
  row := by
    intro k row found
    rw [get?_store] at found
    split at found
    · rename_i same
      obtain rfl := Option.some.inj found
      exact ⟨same.symm, by simp [KnowledgeWorld.store]⟩
    · obtain ⟨key, member⟩ := recorded.row k row found
      exact ⟨key, List.mem_append_left _ member⟩
  present := by
    intro earlier member
    rw [get?_store]
    split
    · exact ⟨entity, rfl⟩
    · rename_i other
      rcases List.mem_append.mp member with before | last
      · exact recorded.present earlier before
      · obtain rfl : earlier = entity := by simpa using last
        exact absurd rfl other

theorem rowsKeep_store_iff {world : KnowledgeWorld} (recorded : Recorded world)
    (keep : RowsKeep world) (entity : KnowledgeEntity) :
    RowsKeep (world.store entity) ↔
      ∀ row, world.repository.entities.get? entity.id = some row → Supersedes row entity := by
  constructor
  · intro law row found
    obtain ⟨key, member⟩ := recorded.row _ _ found
    have placed : (world.store entity).repository.entities.get? row.id = some entity := by
      rw [get?_store, if_pos key]
    obtain ⟨retains, settles⟩ := law row (List.mem_append_left _ member) entity placed
    refine ⟨retains, ?_⟩
    intro standing unmoved
    cases active : entity.activeVersion with
    | none => rfl
    | some version =>
        obtain ⟨rfl, -⟩ := entity.activeVersion_eq_some_iff.mp active
        have invalidated := row.activeVersion_eq_none_iff.mp standing
        have differ := settles row.current row.current_mem invalidated _ active
        rw [entity.current_version, row.current_version] at differ
        exact absurd unmoved differ
  · intro supersedes earlier member row found
    rw [get?_store] at found
    split at found
    · rename_i same
      obtain rfl := Option.some.inj found
      rcases List.mem_append.mp member with before | last
      · obtain ⟨standing, present⟩ := recorded.present earlier before
        obtain ⟨retains, settles⟩ := keep earlier before standing present
        have covering := supersedes standing (same ▸ present)
        exact ⟨retains.trans covering.retains, covering.settles retains settles⟩
      · obtain rfl : earlier = entity := by simpa using last
        exact ⟨Retains.refl earlier, Settles.refl earlier⟩
    · rename_i other
      rcases List.mem_append.mp member with before | last
      · exact keep earlier before row found
      · obtain rfl : earlier = entity := by simpa using last
        exact absurd rfl other

theorem Recorded.step {world after : KnowledgeWorld} {operation : KnowledgeOperation}
    (recorded : Recorded world) (keep : RowsKeep world) (fired : Step world operation after) :
    Recorded after ∧ (RowsKeep after ↔ UpdateSupersedes world operation) := by
  obtain ⟨-, rfl⟩ := fired
  unfold next
  cases called : world.call operation with
  | error exception =>
      refine ⟨recorded, fun _ => ?_, fun _ => keep⟩
      rintro entity row rfl got
      rw [LocalKnowledgeRepository.get_true] at got
      simp [call, LocalKnowledgeRepository.update, got] at called
  | ok result =>
      obtain ⟨⟨entities⟩, entity⟩ := result
      obtain ⟨rfl, kind⟩ := recorded.call_cases called
      refine ⟨recorded.store entity, (rowsKeep_store_iff recorded keep entity).trans ?_⟩
      rcases kind with ⟨absent, rfl⟩ | ⟨row, present, rfl | ⟨supersedes, noUpdate⟩⟩
      · constructor
        · rintro _ given row same
          cases same
        · intro _ row found
          rw [absent] at found
          cases found
      · constructor
        · rintro supersedes given row' same got
          cases same
          exact supersedes row' (LocalKnowledgeRepository.get_row got)
        · intro supersedes row' found
          apply supersedes entity row' rfl
          rw [LocalKnowledgeRepository.get_true, found]
      · constructor
        · rintro _ given row' same
          exact absurd same (noUpdate given)
        · intro _ row' found
          obtain rfl := Option.some.inj (present.symm.trans found)
          exact supersedes

theorem run_keeps {now : KnowledgeWorld} {operations : List KnowledgeOperation}
    (run : Run (Guarded UpdateSupersedes Step) {} operations now) :
    Recorded now ∧ RowsKeep now := by
  refine run.invariant (motive := fun world => Recorded world ∧ RowsKeep world)
    ⟨Recorded.empty, RowsKeep.empty⟩ ?_
  rintro before operation after ⟨recorded, keep⟩ ⟨supersedes, fired⟩
  obtain ⟨recorded', keeps⟩ := recorded.step keep fired
  exact ⟨recorded', keeps.mpr supersedes⟩

/-- The knowledge history is append-only in every state that a run reaches exactly
when every update of the run supersedes what is stored under its id. -/
theorem appendOnly_iff_updateSupersedes {now : KnowledgeWorld}
    {operations : List KnowledgeOperation} :
    Run (fun before operation after => Step before operation after ∧ AppendOnly after) {}
        operations now ↔
      Run (Guarded UpdateSupersedes Step) {} operations now := by
  constructor
  · intro run
    induction run with
    | nil => exact Run.nil
    | snoc _ last ih =>
        obtain ⟨fired, law⟩ := last
        obtain ⟨recorded, keep⟩ := run_keeps ih
        obtain ⟨recorded', keeps⟩ := recorded.step keep fired
        exact ih.snoc ⟨keeps.mp (recorded'.appendOnly_iff.mp law), fired⟩
  · intro run
    induction run with
    | nil => exact Run.nil
    | snoc past last ih =>
        obtain ⟨supersedes, fired⟩ := last
        obtain ⟨recorded, keep⟩ := run_keeps past
        obtain ⟨recorded', keeps⟩ := recorded.step keep fired
        exact ih.snoc ⟨fired, recorded'.appendOnly_iff.mpr (keeps.mpr supersedes)⟩

end KnowledgeWorld

/-! ### Two writers from one base, and a copy from before an invalidation -/

def documentation : Provenance where
  source := { sourceId := ⟨2⟩, sourceType := "git", locator := "docs/architecture.md" }
  capturedAt := 0

def architecture : KnowledgeEntity :=
  KnowledgeEntity.create ⟨1⟩ 0 .architecture "EIS Architecture" (.text "modular") documentation

namespace KnowledgeWorld

def created : KnowledgeWorld := ({} : KnowledgeWorld).store architecture

theorem run_created : Run Step {} [.create architecture] created :=
  Run.single ⟨trivial, rfl⟩

theorem step_update {world : KnowledgeWorld} {base entity row : KnowledgeEntity}
    (member : base ∈ world.stored) (same : base.id = entity.id) (derived : Derived base entity)
    (found : world.repository.entities.get? entity.id = some row) :
    Step world (.update entity) (world.store entity) := by
  refine ⟨⟨base, member, same, derived⟩, ?_⟩
  simp [next, call, LocalKnowledgeRepository.update, found, store]

def layered : KnowledgeEntity := architecture.withVersion 1 (.text "layered") documentation

def hexagonal : KnowledgeEntity := architecture.withVersion 2 (.text "hexagonal") documentation

def dependency : KnowledgeRelationship :=
  { sourceId := ⟨1⟩, relation := "depends_on", targetId := ⟨3⟩ }

def linked : KnowledgeEntity := { architecture with relationships := [dependency] }

theorem architecture_relatedTo : architecture.relatedTo dependency = .ok linked := by
  have own : dependency.sourceId = architecture.id := rfl
  unfold KnowledgeEntity.relatedTo
  rw [if_neg (not_not.mpr own)]
  rfl

theorem layered_lost : ¬ Retains layered hexagonal := by
  intro retains
  obtain ⟨kept, member, number, content, -⟩ := retains layered.current layered.current_mem
  have last : kept = hexagonal.current :=
    hexagonal.eq_current member (number.trans layered.current_version)
  rw [last] at content
  have differ : "hexagonal" ≠ "layered" := by decide
  exact differ (KnowledgeContent.text.inj content)

/-- The version of the first writer is lost; and a copy from before an invalidation
makes the version active again. -/
theorem history_lost :
    (∃ now, Run Step {}
        [.create architecture, .update layered, .update hexagonal] now ∧ ¬ AppendOnly now) ∧
      ∃ now, Run Step {} [.create architecture,
        .invalidate architecture.id "source superseded" 1, .update linked] now ∧
          ¬ AppendOnly now := by
  constructor
  · have first : Step created (.update layered) (created.store layered) :=
      step_update List.mem_cons_self rfl (Derived.refl.withVersion ..) rfl
    have second : Step (created.store layered) (.update hexagonal)
        ((created.store layered).store hexagonal) :=
      step_update List.mem_cons_self rfl (Derived.refl.withVersion ..) rfl
    refine ⟨_, (run_created.snoc first).snoc second, ?_⟩
    intro law
    obtain ⟨row, got, retains⟩ := law.retained layered (by simp [store, created])
    have placed : layered.id = hexagonal.id := rfl
    rw [LocalKnowledgeRepository.get_true, get?_store, if_pos placed] at got
    obtain rfl := Option.some.inj got
    exact layered_lost retains
  · have first : Step created (.invalidate architecture.id "source superseded" 1)
        (created.store (architecture.invalidate 1 "source superseded")) := ⟨trivial, rfl⟩
    have second : Step (created.store (architecture.invalidate 1 "source superseded"))
        (.update linked)
        ((created.store (architecture.invalidate 1 "source superseded")).store linked) :=
      step_update List.mem_cons_self rfl (Derived.refl.relatedTo _ architecture_relatedTo) rfl
    refine ⟨_, (run_created.snoc first).snoc second, ?_⟩
    intro law
    have settles := law.got (architecture.invalidate 1 "source superseded")
      (by simp [store, created]) true linked rfl
    exact settles _ (KnowledgeEntity.current_mem _) rfl linked.current rfl rfl

end KnowledgeWorld

end Eis.Knowledge
