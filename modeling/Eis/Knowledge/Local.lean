import Eis.Foundation.Text
import Eis.Knowledge.Models

/-!
# The local knowledge repository

`LocalKnowledgeRepository` keeps the entities in a dictionary by their id;
`casefold` is `str.casefold`, and `reprDict` is what `str` makes of the content of a
version that is a dictionary.
-/

set_option autoImplicit false

namespace Eis.Knowledge

inductive KnowledgeError where
  | valueError (message : String)
  | keyError (message : String)
deriving DecidableEq

structure LocalKnowledgeRepository where
  entities : OrderedDict UUID KnowledgeEntity := Table.empty

/-- `f"{content or ''}"` -/
def KnowledgeContent.format (reprDict : Dict → String) : Option KnowledgeContent → String
  | none => ""
  | some (.text value) => value
  | some (.fields value) => if value.rows.isEmpty then "" else reprDict value

def KnowledgeEntity.haystack (casefold : String → String) (reprDict : Dict → String)
    (entity : KnowledgeEntity) : String :=
  casefold (entity.name ++ " " ++ entity.description.getD "" ++ " " ++
    KnowledgeContent.format reprDict entity.content)

namespace LocalKnowledgeRepository

variable (repository : LocalKnowledgeRepository)

def create (entity : KnowledgeEntity) :
    Except KnowledgeError (LocalKnowledgeRepository × KnowledgeEntity) :=
  match repository.entities.get? entity.id with
  | some _ => .error (.valueError ("knowledge entity already exists: " ++ entity.id.str))
  | none => .ok ({ entities := repository.entities.setItem entity.id entity }, entity)

def get (entityId : UUID) (includeInvalidated : Bool := false) : Option KnowledgeEntity :=
  match repository.entities.get? entityId with
  | none => none
  | some entity =>
      if includeInvalidated = false ∧ entity.activeVersion.isNone then none else some entity

def matchesQuery (casefold : String → String) (reprDict : Dict → String) (query : String)
    (kind : Option KnowledgeKind) (includeInvalidated : Bool) (entity : KnowledgeEntity) : Bool :=
  if kind.isSome ∧ kind ≠ some entity.kind then false
  else if includeInvalidated = false ∧ entity.activeVersion.isNone then false
  else Text.includes (entity.haystack casefold reprDict) (casefold query)

def search (casefold : String → String) (reprDict : Dict → String) (query : String)
    (kind : Option KnowledgeKind := none) (includeInvalidated : Bool := false) (limit : ℤ := 20) :
    Except KnowledgeError (List KnowledgeEntity) :=
  if limit < 1 then .error (.valueError "limit must be positive")
  else
    .ok (((repository.entities.rows.map Prod.snd).filter
      (matchesQuery casefold reprDict query kind includeInvalidated)).take limit.toNat)

def update (entity : KnowledgeEntity) :
    Except KnowledgeError (LocalKnowledgeRepository × KnowledgeEntity) :=
  match repository.entities.get? entity.id with
  | none => .error (.keyError ("unknown knowledge entity: " ++ entity.id.str))
  | some _ => .ok ({ entities := repository.entities.setItem entity.id entity }, entity)

def addRelationship (relationship : KnowledgeRelationship) :
    Except KnowledgeError (LocalKnowledgeRepository × KnowledgeEntity) :=
  match repository.entities.get? relationship.sourceId with
  | none => .error (.keyError ("unknown knowledge entity: " ++ relationship.sourceId.str))
  | some entity =>
      match entity.relatedTo relationship with
      | .error message => .error (.valueError message)
      | .ok updated => .ok ({ entities := repository.entities.setItem entity.id updated }, updated)

def invalidate (entityId : UUID) (reason : String) (now : ℚ) :
    Except KnowledgeError (LocalKnowledgeRepository × KnowledgeEntity) :=
  match repository.entities.get? entityId with
  | none => .error (.keyError ("unknown knowledge entity: " ++ entityId.str))
  | some entity =>
      .ok ({ entities := repository.entities.setItem entityId (entity.invalidate now reason) },
        entity.invalidate now reason)

end LocalKnowledgeRepository

end Eis.Knowledge
