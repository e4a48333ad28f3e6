import Tabulation.Catalog.Document
import Tabulation.Plan.Basic

/-! Plans as documents. All fields are written; those that can be null may be left out in
reading. -/
namespace Tabulation.Plan
open Json (Value Reader required orNull)
open Catalog (DataKind Step FanOutKey)
open Query (AggregateFn Bucket Operation)

def JoinKind.reader : Reader JoinKind := .oneOf (JoinKind.all.map fun k => (k.name, k))

def OutputKind.reader : Reader OutputKind := .oneOf (OutputKind.all.map fun k => (k.name, k))

def Join.toJson (j : Join) : Value :=
  .object [("kind", .string j.kind.name), ("parent_alias", .string j.parentAlias),
    ("alias", .string j.aliasName), ("step", j.step.toJson)]

def Join.reader : Reader Join := fun d =>
  match d.fields? ["kind", "parent_alias", "alias", "step"] with
  | some [kind, parentAlias, aliasName, step] => do
    return ⟨← required JoinKind.reader kind, ← required .string parentAlias,
      ← required .string aliasName, ← required Step.reader step⟩
  | _ => none

def ColumnRef.toJson (c : ColumnRef) : Value :=
  .object [("alias", .string c.aliasName), ("entity", .string c.entity),
    ("attribute", .string c.field), ("label", .string c.label), ("kind", .string c.kind.name)]

def ColumnRef.reader : Reader ColumnRef := fun d =>
  match d.fields? ["alias", "entity", "attribute", "label", "kind"] with
  | some [aliasName, entity, field, label, kind] => do
    return ⟨← required .string aliasName, ← required .string entity, ← required .string field,
      ← required .string label, ← required DataKind.reader kind⟩
  | _ => none

def Predicate.toJson (p : Predicate) : Value :=
  .object [("column", p.column.toJson), ("operation", p.operation.toJson),
    ("values", .array p.values)]

def Predicate.reader : Reader Predicate := fun d =>
  match d.fields? ["column", "operation", "values"] with
  | some [column, operation, values] => do
    return ⟨← required ColumnRef.reader column, ← required Operation.reader operation,
      ← required (.list .any) values⟩
  | _ => none

def SemiJoin.toJson (s : SemiJoin) : Value :=
  .object [("target", .string s.target), ("joins", .array (s.joins.map Join.toJson)),
    ("predicates", .array (s.predicates.map Predicate.toJson))]

def SemiJoin.reader : Reader SemiJoin := fun d =>
  match d.fields? ["target", "joins", "predicates"] with
  | some [target, joins, predicates] => do
    return ⟨← required .string target, ← required (.list Join.reader) joins,
      ← required (.list Predicate.reader) predicates⟩
  | _ => none

def ScopeBranch.toJson (b : ScopeBranch) : Value :=
  .object [("entity", .string b.entity), ("joins", .array (b.joins.map Join.toJson)),
    ("key", b.key.toJson), ("ids", Scope.idsToJson b.ids)]

def ScopeBranch.reader : Reader ScopeBranch := fun d =>
  match d.fields? ["entity", "joins", "key", "ids"] with
  | some [entity, joins, key, ids] => do
    return ⟨← required .string entity, ← required (.list Join.reader) joins,
      ← required ColumnRef.reader key, ← required (.set .int64) ids⟩
  | _ => none

def branchesToJson (branches : List ScopeBranch) : Value :=
  .object [("branches", .array (branches.map ScopeBranch.toJson))]

def branchesReader : Reader (List ScopeBranch) := fun d =>
  match d.fields? ["branches"] with
  | some [branches] => required (.list ScopeBranch.reader) branches
  | _ => none

def GroupKey.toJson (k : GroupKey) : Value :=
  .object [("output_index", .ofNat k.outputIndex), ("column", k.column.toJson),
    ("bucket", (k.bucket.map fun b => Value.string b.name).getD .null)]

def GroupKey.reader : Reader GroupKey := fun d =>
  match d.fields? ["output_index", "column", "bucket"] with
  | some [outputIndex, column, bucket] => do
    return ⟨← required .nat64 outputIndex, ← required ColumnRef.reader column,
      ← orNull Bucket.reader bucket⟩
  | _ => none

def Aggregate.toJson (a : Aggregate) : Value :=
  .object [("output_index", .ofNat a.outputIndex), ("function", .string a.function.name),
    ("column", a.column.toJson)]

def Aggregate.reader : Reader Aggregate := fun d =>
  match d.fields? ["output_index", "function", "column"] with
  | some [outputIndex, function, column] => do
    return ⟨← required .nat64 outputIndex, ← required AggregateFn.reader function,
      ← required ColumnRef.reader column⟩
  | _ => none

def SubExpression.toJson (s : SubExpression) : Value :=
  .object [("key", s.key.toJson), ("join_kind", .string s.joinKind.name),
    ("joins", .array (s.joins.map Join.toJson)),
    ("predicates", .array (s.predicates.map Predicate.toJson)),
    ("aggregates", .array (s.aggregates.map Aggregate.toJson))]

def SubExpression.reader : Reader SubExpression := fun d =>
  match d.fields? ["key", "join_kind", "joins", "predicates", "aggregates"] with
  | some [key, joinKind, joins, predicates, aggregates] => do
    return ⟨← required FanOutKey.reader key, ← required JoinKind.reader joinKind,
      ← required (.list Join.reader) joins, ← required (.list Predicate.reader) predicates,
      ← required (.list Aggregate.reader) aggregates⟩
  | _ => none

def Output.toJson (o : Output) : Value :=
  .object [("name", .string o.name), ("label", .string o.label), ("kind", .string o.kind.name)]

def Output.reader : Reader Output := fun d =>
  match d.fields? ["name", "label", "kind"] with
  | some [name, label, kind] => do
    return ⟨← required .string name, ← required .string label, ← required OutputKind.reader kind⟩
  | _ => none

def toJson (p : Plan) : Value :=
  .object [("root", .string p.root), ("root_alias", .string p.rootAlias),
    ("root_key", p.rootKey.toJson), ("joins", .array (p.joins.map Join.toJson)),
    ("predicates", .array (p.predicates.map Predicate.toJson)),
    ("scope", (p.scope.map branchesToJson).getD .null),
    ("semi_joins", .array (p.semiJoins.map SemiJoin.toJson)),
    ("group_keys", .array (p.groupKeys.map GroupKey.toJson)),
    ("local_aggregates", .array (p.localAggregates.map Aggregate.toJson)),
    ("sub_expressions", .array (p.subExpressions.map SubExpression.toJson)),
    ("outputs", .array (p.outputs.map Output.toJson)), ("ordering", p.ordering.toJson),
    ("order_columns", .array (p.orderColumns.map .ofNat))]

def reader : Reader Plan := fun d =>
  match d.fields? ["root", "root_alias", "root_key", "joins", "predicates", "scope", "semi_joins",
    "group_keys", "local_aggregates", "sub_expressions", "outputs", "ordering",
    "order_columns"] with
  | some [root, rootAlias, rootKey, joins, predicates, scope, semiJoins, groupKeys,
      localAggregates, subExpressions, outputs, ordering, orderColumns] => do
    return {
      root := ← required .string root
      rootAlias := ← required .string rootAlias
      rootKey := ← required ColumnRef.reader rootKey
      joins := ← required (.list Join.reader) joins
      predicates := ← required (.list Predicate.reader) predicates
      scope := ← orNull branchesReader scope
      semiJoins := ← required (.list SemiJoin.reader) semiJoins
      groupKeys := ← required (.list GroupKey.reader) groupKeys
      localAggregates := ← required (.list Aggregate.reader) localAggregates
      subExpressions := ← required (.list SubExpression.reader) subExpressions
      outputs := ← required (.list Output.reader) outputs
      ordering := ← required Sorting.TypedOrdering.reader ordering
      orderColumns := ← required (.list .nat64) orderColumns }
  | _ => none

end Tabulation.Plan
