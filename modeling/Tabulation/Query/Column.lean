import Tabulation.Sorting.Criteria

/-! The columns of a query: each names a catalog column by its label and says how to use it. -/
namespace Tabulation.Query
open Json (Value Reader required optional)
open Sorting (Direction NullHandling)

/-- What an entity type takes part in a query for. -/
inductive EntityRole where
  | axis
  | measure
  | filter
deriving DecidableEq, Repr

namespace EntityRole

def all : List EntityRole := [.axis, .measure, .filter]

def name : EntityRole → String
  | .axis => "axis"
  | .measure => "measure"
  | .filter => "filter"

def reader : Reader EntityRole := .oneOf (all.map fun r => (r.name, r))

end EntityRole

/-- The shape of the plan: one flat join for aggregates that all share one fan-out key, or one
sub-expression for every key. -/
inductive Strategy where
  | flat
  | partitioned
deriving DecidableEq, Repr

namespace Strategy

def all : List Strategy := [.flat, .partitioned]

def name : Strategy → String
  | .flat => "flat"
  | .partitioned => "partitioned"

def reader : Reader Strategy := .oneOf (all.map fun s => (s.name, s))

end Strategy

/-- Whether roots without rows to aggregate are dropped or keep an empty aggregate. -/
inductive JoinStyle where
  | inner
  | outer
deriving DecidableEq, Repr

namespace JoinStyle

def all : List JoinStyle := [.inner, .outer]

def name : JoinStyle → String
  | .inner => "inner"
  | .outer => "outer"

def reader : Reader JoinStyle := .oneOf (all.map fun s => (s.name, s))

end JoinStyle

/-- The unit to which a projected date is cut. -/
inductive Bucket where
  | day
  | month
  | year
deriving DecidableEq, Repr

namespace Bucket

def all : List Bucket := [.day, .month, .year]

def name : Bucket → String
  | .day => "by_day"
  | .month => "by_month"
  | .year => "by_year"

def unit : Bucket → String
  | .day => "day"
  | .month => "month"
  | .year => "year"

def reader : Reader Bucket := .oneOf (all.map fun b => (b.name, b))

end Bucket

inductive AggregateFn where
  | count
  | countDistinct
  | sum
  | avg
  | min
  | max
deriving DecidableEq, Repr

namespace AggregateFn

def all : List AggregateFn := [.count, .countDistinct, .sum, .avg, .min, .max]

def name : AggregateFn → String
  | .count => "count"
  | .countDistinct => "count_distinct"
  | .sum => "sum"
  | .avg => "avg"
  | .min => "min"
  | .max => "max"

def display : AggregateFn → String
  | .count => "COUNT"
  | .countDistinct => "COUNT_DISTINCT"
  | .sum => "SUM"
  | .avg => "AVG"
  | .min => "MIN"
  | .max => "MAX"

/-- Whether the function makes sense of numbers only. -/
def requiresNumeric : AggregateFn → Bool
  | .sum | .avg => true
  | _ => false

def reader : Reader AggregateFn := .oneOf (all.map fun f => (f.name, f))

end AggregateFn

inductive Operation where
  | equals
  | notEquals
  | greaterThan
  | greaterEqual
  | lessThan
  | lessEqual
  | between
  | oneOf
  | like
  /-- An operation of the store, known by its name. -/
  | special (name : String)
deriving DecidableEq, Repr

namespace Operation

/-- The operations that need no name, with their written names. -/
def plain : List (String × Operation) :=
  [("equals", .equals), ("not_equals", .notEquals), ("greater_than", .greaterThan),
   ("greater_equal", .greaterEqual), ("less_than", .lessThan), ("less_equal", .lessEqual),
   ("between", .between), ("in", .oneOf), ("like", .like)]

def display : Operation → String
  | .equals => "EQUALS"
  | .notEquals => "NOT_EQUALS"
  | .greaterThan => "GREATER_THAN"
  | .greaterEqual => "GREATER_EQUAL"
  | .lessThan => "LESS_THAN"
  | .lessEqual => "LESS_EQUAL"
  | .between => "BETWEEN"
  | .oneOf => "IN"
  | .like => "LIKE"
  | .special name => name

/-- Whether an active filter may have that many values. -/
def acceptsArity (op : Operation) (count : Nat) : Bool :=
  match op with
  | .between => count = 2
  | .oneOf => count ≥ 1
  | .special _ => true
  | _ => count = 1

/-- The number of values, in words. -/
def expectedArity : Operation → String
  | .between => "exactly 2"
  | .oneOf => "at least 1"
  | .special _ => "any number of"
  | _ => "exactly 1"

/-- Whether the operation needs values in an order. -/
def isOrderedComparison : Operation → Bool
  | .greaterThan | .greaterEqual | .lessThan | .lessEqual | .between => true
  | _ => false

def toJson : Operation → Value
  | .equals => .string "equals"
  | .notEquals => .string "not_equals"
  | .greaterThan => .string "greater_than"
  | .greaterEqual => .string "greater_equal"
  | .lessThan => .string "less_than"
  | .lessEqual => .string "less_equal"
  | .between => .string "between"
  | .oneOf => .string "in"
  | .like => .string "like"
  | .special name => .object [("special", .string name)]

def reader : Reader Operation := fun d =>
  match d.variant? with
  | some ("special", some (.string name)) => some (.special name)
  | some (name, none) | some (name, some .null) => plain.lookup name
  | _ => none

end Operation

structure Projection where
  label : String
  bucket : Option Bucket := none
deriving DecidableEq, Repr

structure Aggregation where
  label : String
  function : AggregateFn
deriving DecidableEq, Repr

/-- The name of the result column. -/
def Aggregation.outputName (a : Aggregation) : String := s!"{a.function.display}({a.label})"

structure Filter where
  label : String
  operation : Operation
  values : List Value := []
deriving DecidableEq

/-- A filter without values is switched off. -/
def Filter.isActive (f : Filter) : Bool := ¬ f.values.isEmpty

/-- An ordering by a column of the query. -/
structure OrderingColumn where
  label : String
  direction : Direction := .ascending
  nullHandling : NullHandling := .native
deriving DecidableEq, Repr

def Projection.toJson (p : Projection) : Value :=
  .object (("label", .string p.label) ::
    match p.bucket with
    | some b => [("bucket", .string b.name)]
    | none => [])

def Projection.reader : Reader Projection := fun d =>
  match d.fields? ["label", "bucket"] with
  | some [label, bucket] => do
    return ⟨← required .string label, ← optional none (.nullable Bucket.reader) bucket⟩
  | _ => none

def Aggregation.toJson (a : Aggregation) : Value :=
  .object [("label", .string a.label), ("function", .string a.function.name)]

def Aggregation.reader : Reader Aggregation := fun d =>
  match d.fields? ["label", "function"] with
  | some [label, function] => do
    return ⟨← required .string label, ← required AggregateFn.reader function⟩
  | _ => none

def Filter.toJson (f : Filter) : Value :=
  .object [("label", .string f.label), ("operation", f.operation.toJson),
    ("values", .array f.values)]

def Filter.reader : Reader Filter := fun d =>
  match d.fields? ["label", "operation", "values"] with
  | some [label, operation, values] => do
    return ⟨← required .string label, ← required Operation.reader operation,
      ← optional [] (.list .any) values⟩
  | _ => none

def OrderingColumn.toJson (o : OrderingColumn) : Value :=
  .object [("label", .string o.label), ("direction", .string o.direction.name),
    ("null_handling", .string o.nullHandling.name)]

def OrderingColumn.reader : Reader OrderingColumn := fun d =>
  match d.fields? ["label", "direction", "null_handling"] with
  | some [label, direction, nullHandling] => do
    return ⟨← required .string label, ← optional .ascending Direction.reader direction,
      ← optional .native NullHandling.reader nullHandling⟩
  | _ => none

end Tabulation.Query
