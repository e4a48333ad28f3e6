import Tabulation.Plan.Basic
import Tabulation.Plan.Rejection

/-! Plans and rejections in words. A plan reads as one grouped statement, with a joined
sub-statement for every sub-expression and a condition for every semi-join. -/
namespace Tabulation.Plan
open Json (Value)
open Query (AggregateFn Operation)

def join (separator : String) (texts : List String) : String := separator.intercalate texts

/-- A filter value: text in quotes, which are doubled inside. -/
def renderValue : Value → String
  | .string s =>
    String.ofList ('\'' :: (s.toList.flatMap fun c => if c = '\'' then [c, c] else [c]) ++ ['\''])
  | v => v.text

def Join.render (j : Join) : String :=
  s!"{j.kind.clause} {j.step.target} {j.aliasName} ON " ++
    s!"{j.parentAlias}.{j.step.sourceField} = {j.aliasName}.{j.step.targetField}"

def GroupKey.render (k : GroupKey) : String :=
  match k.bucket with
  | some bucket => s!"DATE_TRUNC('{bucket.unit}', {k.column.qualified})"
  | none => k.column.qualified

def Aggregate.render (a : Aggregate) : String :=
  match a.function with
  | .countDistinct => s!"COUNT(DISTINCT {a.column.qualified})"
  | function => s!"{function.display}({a.column.qualified})"

/-- How the partial results of a sub-expression are put together; `source` is its alias. -/
def Aggregate.renderMerge (a : Aggregate) (source : String) : String :=
  let partialName := s!"{source}.a{a.outputIndex}"
  match a.function with
  | .count | .countDistinct => s!"COALESCE(SUM({partialName}), 0)"
  | function => s!"{function.display}({partialName})"

def Predicate.render (p : Predicate) : String :=
  let column := p.column.qualified
  let values := p.values.map renderValue
  let value (i : Nat) := values[i]?.getD "NULL"
  match p.operation with
  | .equals => s!"{column} = {value 0}"
  | .notEquals => s!"{column} <> {value 0}"
  | .greaterThan => s!"{column} > {value 0}"
  | .greaterEqual => s!"{column} >= {value 0}"
  | .lessThan => s!"{column} < {value 0}"
  | .lessEqual => s!"{column} <= {value 0}"
  | .between => s!"{column} BETWEEN {value 0} AND {value 1}"
  | .oneOf =>
    let listed := join ", " values
    s!"{column} IN ({listed})"
  | .like => s!"{column} LIKE {value 0}"
  | .special name =>
    let listed := join ", " values
    s!"{name}({column}, [{listed}])"

/-- The root followed by joins. -/
def renderSource (p : Plan) (joins : List Join) : String :=
  join " " (s!"{p.root} {p.rootAlias}" :: joins.map Join.render)

/-- The condition that ties a nested statement to the root row outside. -/
def renderCorrelation (p : Plan) : String := s!"{p.rootKey.qualified} = outer.{p.rootKey.field}"

def SubExpression.render (p : Plan) (s : SubExpression) : String :=
  let key := p.rootKey.qualified
  let selected := s!"{key} AS root_id" ::
    s.aggregates.map fun a => s!"{a.render} AS a{a.outputIndex}"
  let selection := join ", " selected
  let condition :=
    if s.predicates.isEmpty then ""
    else " WHERE " ++ join " AND " (s.predicates.map Predicate.render)
  s!"SELECT {selection} FROM {renderSource p s.joins}{condition} GROUP BY {key}"

def SemiJoin.render (p : Plan) (s : SemiJoin) : String :=
  let condition := join " AND " (s.predicates.map Predicate.render)
  s!"EXISTS (SELECT 1 FROM {renderSource p s.joins} WHERE {renderCorrelation p} AND {condition})"

def ScopeBranch.render (p : Plan) (b : ScopeBranch) : String :=
  let ids := join ", " (b.ids.toList.map fun id => (Value.ofInt64 id).text)
  let membership := s!"{b.key.qualified} IN ({ids})"
  if b.joins.isEmpty then membership
  else
    s!"EXISTS (SELECT 1 FROM {renderSource p b.joins} WHERE {renderCorrelation p} AND " ++
      s!"{membership})"

/-- Without a way into the scope nothing is in it. -/
def renderScope (p : Plan) (branches : List ScopeBranch) : String :=
  if branches.isEmpty then "FALSE"
  else "(" ++ join " OR " (branches.map fun b => b.render p) ++ ")"

/-- A selected expression under the name of its result column. -/
def renderNamed (p : Plan) (expression : String) (outputIndex : Nat) : String :=
  let name := (p.outputs[outputIndex]?.map fun o => o.name).getD ""
  s!"{expression} AS \"{name}\""

/-- The name of the sub-expression at a place. -/
def subName (place : Nat) : String := s!"f{place}"

/-- The statement, line by line. -/
def statementLines (p : Plan) : List String :=
  let selected :=
    p.groupKeys.map (fun k => renderNamed p k.render k.outputIndex) ++
    p.localAggregates.map (fun a => renderNamed p a.render a.outputIndex) ++
    p.subExpressions.zipIdx.flatMap fun s =>
      s.1.aggregates.map fun a => renderNamed p (a.renderMerge (subName s.2)) a.outputIndex
  let subs := p.subExpressions.zipIdx.map fun s =>
    s!"  {s.1.joinKind.clause} ({s.1.render p}) {subName s.2} ON " ++
      s!"{p.rootKey.qualified} = {subName s.2}.root_id"
  let conditions :=
    p.predicates.map Predicate.render ++ (p.scope.map (renderScope p)).toList ++
      p.semiJoins.map fun s => s.render p
  let keys := p.groupKeys.map GroupKey.render
  let exprs := p.ordering.exprs.map Sorting.OrderExpr.render
  ["SELECT " ++ join ", " selected, s!"FROM {p.root} {p.rootAlias}"] ++
    p.joins.map (fun j => "  " ++ j.render) ++ subs ++
    (if conditions.isEmpty then [] else ["WHERE " ++ join " AND " conditions]) ++
    (if keys.isEmpty then [] else ["GROUP BY " ++ join ", " keys]) ++
    (if exprs.isEmpty then [] else ["ORDER BY " ++ join ", " exprs])

/-- What becomes of a query. -/
inductive Explanation where
  | accepted (root : EntityType) (columns : List String) (partitions : Nat)
      (statement : List String)
  | rejected (code reason : String)
deriving DecidableEq, Repr

namespace Explanation

def ofPlan (p : Plan) : Explanation :=
  .accepted p.root p.columnNames p.subExpressions.length (statementLines p)

def ofRejection (r : Rejection) : Explanation := .rejected r.code r.message

def lines : Explanation → List String
  | .accepted root columns partitions statement =>
    ["=== EXPLAIN PLAN ===", "Status: ACCEPTED", s!"Root: {root}",
     "Columns: " ++ join ", " columns, s!"Fan-out partitions: {partitions}"] ++ statement
  | .rejected code reason =>
    ["=== EXPLAIN PLAN ===", "Status: REJECTED", s!"Error Code: {code}", s!"Reason: {reason}"]

/-- The lines, each with a line feed at its end. -/
def text (e : Explanation) : String := String.join (e.lines.map fun line => line ++ "\n")

end Explanation

end Tabulation.Plan
