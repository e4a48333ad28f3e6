import Tabulation.Catalog.Registry
import Tabulation.Plan.Rejection
import Tabulation.Query.Definition

/-! Checking a query against the catalog, column by column. -/
namespace Tabulation.Plan
open Catalog (Column ColumnRole DataKind)
open Query (Model EntityRole Involved Projection Aggregation Filter OrderingColumn Operation
  Strategy JoinStyle)

/-- A column of a query with the catalog column that its label names. -/
structure Found (α : Type) where
  use : α
  column : Column
deriving DecidableEq

def Found.entity {α : Type} (f : Found α) : EntityType := f.column.entity

/-- A query whose columns all fit the catalog. -/
structure Checked where
  strategy : Strategy
  joinStyle : JoinStyle
  root : Option EntityType
  projections : List (Found Projection)
  aggregations : List (Found Aggregation)
  /-- The filters that are switched on. -/
  filters : List (Found Filter)
  /-- The orderings, each with the place of its label among projections and aggregations. -/
  orderings : List (Nat × OrderingColumn)
deriving DecidableEq

/-- The roles in which an entity type has to be involved, one of them, for its columns to be used
in a role. -/
def involvedRoles : ColumnRole → List EntityRole
  | .projection => [.axis]
  | .aggregation => [.measure]
  | .filter => [.filter]
  | .ordering => [.axis, .measure]

/-- The catalog column of a label: it has to be known, to support the role, and to be of an entity
type that the query involves for that role. -/
def lookUp (catalog : Catalog) (involved : Involved) (role : ColumnRole) (label : String) :
    Except Rejection Column :=
  match catalog.column? label with
  | none => .error (.columnUnknown label role)
  | some column =>
    if ¬ column.supports role then .error (.columnRole label role column.entity)
    else if ¬ (involvedRoles role).any (involved.contains · column.entity) then
      .error (.entityNotInvolved label role column.entity)
    else .ok column

def checkProjection (catalog : Catalog) (involved : Involved) (p : Projection) :
    Except Rejection (Found Projection) := do
  let column ← lookUp catalog involved .projection p.label
  if p.bucket.isSome ∧ column.kind ≠ .date then .error (.bucketInvalid p.label column.kind)
  else .ok ⟨p, column⟩

def checkAggregation (catalog : Catalog) (involved : Involved) (a : Aggregation) :
    Except Rejection (Found Aggregation) := do
  let column ← lookUp catalog involved .aggregation a.label
  if a.function.requiresNumeric ∧ column.kind ≠ .numeric then
    .error (.aggregateInvalid a.label a.function column.kind)
  else .ok ⟨a, column⟩

/-- Whether an operation makes sense for values of a kind. -/
def fits (op : Operation) (kind : DataKind) : Bool :=
  match op with
  | .like => kind = .text ∨ kind = .enumerated
  | op => ¬ op.isOrderedComparison ∨ kind.isOrdered

/-- The number of values matters for filters that are switched on only. -/
def checkFilter (catalog : Catalog) (involved : Involved) (f : Filter) :
    Except Rejection (Found Filter) := do
  let column ← lookUp catalog involved .filter f.label
  if ¬ fits f.operation column.kind then
    .error (.operationInvalid f.label f.operation column.kind)
  else if f.isActive ∧ ¬ f.operation.acceptsArity f.values.length then
    .error (.filterArity f.label f.operation f.values.length)
  else .ok ⟨f, column⟩

/-- An ordering has to be by a label that is projected or aggregated. -/
def checkOrdering (catalog : Catalog) (involved : Involved) (labels : List String)
    (o : OrderingColumn) : Except Rejection (Nat × OrderingColumn) := do
  let _ ← lookUp catalog involved .ordering o.label
  match labels.idxOf? o.label with
  | some place => .ok (place, o)
  | none => .error (.orderingInvalid o.label)

/-- Checks projections, aggregations, filters and orderings in this order, up to the first one
that does not fit. -/
def check (catalog : Catalog) (m : Model) : Except Rejection Checked := do
  if m.projections.isEmpty ∧ m.aggregations.isEmpty then throw .queryEmpty
  let projections ← m.projections.mapM (checkProjection catalog m.involved)
  let aggregations ← m.aggregations.mapM (checkAggregation catalog m.involved)
  let filters ← m.filters.mapM (checkFilter catalog m.involved)
  let labels := m.projections.map (·.label) ++ m.aggregations.map (·.label)
  let orderings ← m.orderings.mapM (checkOrdering catalog m.involved labels)
  return {
    strategy := m.strategy
    joinStyle := m.joinStyle
    root := m.root
    projections
    aggregations
    filters := filters.filter fun f => f.use.isActive
    orderings }

end Tabulation.Plan
