import Tabulation.Catalog.Basic
import Tabulation.Decimal.Reading
import Tabulation.Json.Printer
import Tabulation.Json.Record

/-! Scopes: the entities that a query may see, as they are asked for and as they are resolved. -/
namespace Tabulation.Scope
open Json (Value Reader required)

/-- A reference to one entity, a leaf or a container of others. -/
structure Reference where
  entityType : EntityType
  id : EntityId
deriving DecidableEq, Repr

namespace Reference

def display (r : Reference) : String :=
  s!"{r.entityType}#{String.ofList (Json.integerChars r.id.toInt)}"

def toJson (r : Reference) : Value :=
  .object [("entity_type", .string r.entityType), ("id", .ofInt64 r.id)]

def reader : Reader Reference := fun d =>
  match d.fields? ["entity_type", "id"] with
  | some [entityType, id] => do
    return ⟨← required .string entityType, ← required .int64 id⟩
  | _ => none

end Reference

/-- Identifiers by entity type. -/
abbrev IdsByType := OrderedMap EntityType (OrderedSet EntityId)

def idsToJson (ids : OrderedSet EntityId) : Value := .array (ids.toList.map .ofInt64)

def IdsByType.toJson (m : IdsByType) : Value :=
  .object (m.entries.map fun e => (e.1, idsToJson e.2))

def IdsByType.reader : Reader IdsByType := .map some (.set .int64)

/-- Enters an identifier under its type. -/
def IdsByType.add (m : IdsByType) (r : Reference) : IdsByType :=
  m.alter r.entityType fun ids => (ids.getD ∅).insert r.id

/-- What a query may see: everything, or the leaves that are listed. -/
inductive Resolved where
  | unrestricted
  | restricted (leaves : IdsByType)
deriving DecidableEq

namespace Resolved

def isUnrestricted : Resolved → Bool
  | .unrestricted => true
  | .restricted _ => false

/-- The number of leaves listed; none are if everything may be seen. -/
def leafCount : Resolved → Nat
  | .unrestricted => 0
  | .restricted leaves => leaves.values.foldl (fun n ids => n + ids.size) 0

def ids? (s : Resolved) (entity : EntityType) : Option (OrderedSet EntityId) :=
  match s with
  | .unrestricted => none
  | .restricted leaves => leaves.get? entity

def toJson : Resolved → Value
  | .unrestricted => .string "unrestricted"
  | .restricted leaves => .object [("restricted", leaves.toJson)]

def reader : Reader Resolved := fun d =>
  match d.variant? with
  | some ("unrestricted", none) | some ("unrestricted", some .null) => some .unrestricted
  | some ("restricted", some leaves) => (IdsByType.reader leaves).map .restricted
  | _ => none

end Resolved

end Tabulation.Scope
