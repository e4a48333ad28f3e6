import Tabulation.Json.Parser
import Tabulation.Query.Column

/-! Queries: the model that is compiled, and the stored definition that it comes from. -/
namespace Tabulation.Query
open Json (Value Reader Members required optional orNull)

/-- The entity types that a query involves, by role. A role can be present without any. -/
structure Involved where
  axis : Option (OrderedSet EntityType) := none
  measure : Option (OrderedSet EntityType) := none
  filter : Option (OrderedSet EntityType) := none
deriving DecidableEq

namespace Involved

def get? (i : Involved) : EntityRole → Option (OrderedSet EntityType)
  | .axis => i.axis
  | .measure => i.measure
  | .filter => i.filter

def contains (i : Involved) (role : EntityRole) (entity : EntityType) : Bool :=
  (i.get? role).any (·.contains entity)

def set (i : Involved) (role : EntityRole) (entities : OrderedSet EntityType) : Involved :=
  match role with
  | .axis => { i with axis := some entities }
  | .measure => { i with measure := some entities }
  | .filter => { i with filter := some entities }

def add (i : Involved) (role : EntityRole) (entity : EntityType) : Involved :=
  i.set role (((i.get? role).getD ∅).insert entity)

def toJson (i : Involved) : Value :=
  .object (EntityRole.all.filterMap fun role =>
    (i.get? role).map fun entities =>
      (role.name, .array (entities.toList.map .string)))

/-- Of a role given several times the last one counts. -/
def reader : Reader Involved
  | .object members =>
    members.foldlM (fun i m => do
      let role ← EntityRole.reader (.string m.1)
      let entities ← Reader.set .string m.2
      return i.set role entities) {}
  | _ => none

end Involved

/-- A query as it is compiled. -/
structure Model where
  strategy : Strategy := .partitioned
  joinStyle : JoinStyle := .outer
  /-- The entity type whose rows are counted once each, if the query names it. -/
  root : Option EntityType := none
  involved : Involved := {}
  projections : List Projection := []
  aggregations : List Aggregation := []
  filters : List Filter := []
  orderings : List OrderingColumn := []
deriving DecidableEq

namespace Model

/-- The members that a model and a definition have in common, before and after the root. -/
def leadingMembers (m : Model) : Members :=
  [("strategy", .string m.strategy.name), ("join_style", .string m.joinStyle.name)]

def trailingMembers (m : Model) : Members :=
  [("involved_entities", m.involved.toJson),
   ("projections", .array (m.projections.map Projection.toJson)),
   ("aggregations", .array (m.aggregations.map Aggregation.toJson)),
   ("filters", .array (m.filters.map Filter.toJson)),
   ("orderings", .array (m.orderings.map OrderingColumn.toJson))]

/-- The model as a snapshot, in which the root is always present. -/
def toJson (m : Model) : Value :=
  .object (m.leadingMembers ++
    ("root_entity", (m.root.map Value.string).getD .null) :: m.trailingMembers)

/-- A snapshot has all its fields; only the root may be left out. -/
def reader : Reader Model := fun d =>
  match d.fields? ["strategy", "join_style", "root_entity", "involved_entities", "projections",
    "aggregations", "filters", "orderings"] with
  | some [strategy, joinStyle, root, involved, projections, aggregations, filters, orderings] => do
    return {
      strategy := ← required Strategy.reader strategy
      joinStyle := ← required JoinStyle.reader joinStyle
      root := ← orNull .string root
      involved := ← required Involved.reader involved
      projections := ← required (.list Projection.reader) projections
      aggregations := ← required (.list Aggregation.reader) aggregations
      filters := ← required (.list Filter.reader) filters
      orderings := ← required (.list OrderingColumn.reader) orderings }
  | _ => none

end Model

/-- A query as it is stored. -/
structure Definition extends Model where
  /-- The identifier under which it is stored, if any. -/
  id : Option String := none
deriving DecidableEq

namespace Definition

/-- What is not set is left out: the identifier and the root. -/
def toJson (d : Definition) : Value :=
  .object ((d.id.map fun id => ("definition_id", Value.string id)).toList ++
    d.leadingMembers ++
    (d.root.map fun root => ("root_entity", Value.string root)).toList ++
    d.trailingMembers)

/-- All fields have defaults. -/
def reader : Reader Definition := fun d =>
  match d.fields? ["definition_id", "strategy", "join_style", "root_entity", "involved_entities",
    "projections", "aggregations", "filters", "orderings"] with
  | some [id, strategy, joinStyle, root, involved, projections, aggregations, filters,
      orderings] => do
    return {
      id := ← optional none (.nullable .string) id
      strategy := ← optional .partitioned Strategy.reader strategy
      joinStyle := ← optional .outer JoinStyle.reader joinStyle
      root := ← optional none (.nullable .string) root
      involved := ← optional {} Involved.reader involved
      projections := ← optional [] (.list Projection.reader) projections
      aggregations := ← optional [] (.list Aggregation.reader) aggregations
      filters := ← optional [] (.list Filter.reader) filters
      orderings := ← optional [] (.list OrderingColumn.reader) orderings }
  | _ => none

def ofText (text : String) : Option Definition := (Json.parse text).bind reader

end Definition

end Tabulation.Query
