import Tabulation.Catalog.FanOut
import Tabulation.Query.Column
import Tabulation.Scope.Basic
import Tabulation.Sorting.Expression

/-! Plans: compiled queries as plain data, bound to no catalog and no store. -/
namespace Tabulation
namespace Plan
open Catalog (DataKind Step FanOutKey)
open Query (AggregateFn Bucket Operation)

/-- Whether a row that finds no partner is dropped or stays alone. -/
inductive JoinKind where
  | inner
  | left
deriving DecidableEq, Repr

namespace JoinKind

def all : List JoinKind := [.inner, .left]

def name : JoinKind → String
  | .inner => "inner"
  | .left => "left"

def clause : JoinKind → String
  | .inner => "JOIN"
  | .left => "LEFT JOIN"

end JoinKind

/-- Rows of the step's target join the row bound to `parentAlias` under `aliasName`. -/
structure Join where
  kind : JoinKind
  parentAlias : String
  aliasName : String
  step : Step
deriving DecidableEq, Repr

/-- A field of the row bound to an alias. -/
structure ColumnRef where
  aliasName : String
  entity : EntityType
  field : String
  label : String
  kind : DataKind
deriving DecidableEq, Repr

def ColumnRef.qualified (c : ColumnRef) : String := s!"{c.aliasName}.{c.field}"

structure Predicate where
  column : ColumnRef
  operation : Operation
  values : List Json.Value
deriving DecidableEq

/-- A root row stays if some row reached by the joins satisfies all predicates. -/
structure SemiJoin where
  target : EntityType
  joins : List Join
  predicates : List Predicate
deriving DecidableEq

/-- A root row is in scope if some row reached by the joins has one of the identifiers. -/
structure ScopeBranch where
  entity : EntityType
  joins : List Join
  key : ColumnRef
  ids : OrderedSet EntityId
deriving DecidableEq

/-- A value by which rows are grouped, and its place in the result. -/
structure GroupKey where
  outputIndex : Nat
  column : ColumnRef
  bucket : Option Bucket
deriving DecidableEq, Repr

/-- An aggregate, and its place in the result. -/
structure Aggregate where
  outputIndex : Nat
  function : AggregateFn
  column : ColumnRef
deriving DecidableEq, Repr

/-- Aggregates that share a fan-out key; they are computed for each root row on its own. -/
structure SubExpression where
  key : FanOutKey
  joinKind : JoinKind
  joins : List Join
  predicates : List Predicate
  aggregates : List Aggregate
deriving DecidableEq

inductive OutputKind where
  | projection
  | aggregation
deriving DecidableEq, Repr

def OutputKind.all : List OutputKind := [.projection, .aggregation]

def OutputKind.name : OutputKind → String
  | .projection => "projection"
  | .aggregation => "aggregation"

structure Output where
  name : String
  label : String
  kind : OutputKind
deriving DecidableEq, Repr

end Plan

/-- A compiled query. Root rows are restricted by scope and semi-joins, joined, filtered by the
predicates and grouped; local aggregates are fed from the joined rows, those of a sub-expression
from its own rows, once for every root row in a group. -/
structure Plan where
  root : EntityType
  rootAlias : String
  rootKey : Plan.ColumnRef
  joins : List Plan.Join
  predicates : List Plan.Predicate
  /-- The ways into the scope; `none` if there is no restriction. -/
  scope : Option (List Plan.ScopeBranch)
  semiJoins : List Plan.SemiJoin
  groupKeys : List Plan.GroupKey
  localAggregates : List Plan.Aggregate
  subExpressions : List Plan.SubExpression
  outputs : List Plan.Output
  ordering : Sorting.TypedOrdering
  /-- The result column of each ordering expression. -/
  orderColumns : List Nat
deriving DecidableEq

namespace Plan

def columnNames (p : Plan) : List String := p.outputs.map (·.name)

/-- Whether the whole result is one group. -/
def isGlobal (p : Plan) : Bool := p.groupKeys.isEmpty

end Plan

end Tabulation
