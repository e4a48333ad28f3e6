import Tabulation.Calendar.Reading
import Tabulation.Evaluation.Accumulator
import Tabulation.Evaluation.Condition
import Tabulation.Evaluation.Grouping
import Tabulation.Evaluation.Join
import Tabulation.Evaluation.ResultSet

/-! Evaluating a plan over tables. Every root row that is in scope and passes the semi-joins gives
shares: for every group that its joined rows fall into, what it puts into the accumulators of the
group. Its sub-expressions are computed for this row alone and enter every group once. Groups come
in the order in which they appear, until they are sorted. -/
namespace Tabulation.Evaluation
open Json (Value)
open Plan (ColumnRef Join JoinKind ScopeBranch SemiJoin SubExpression GroupKey Aggregate)
open Query (Bucket)
open Storage (Fault)

/-- The text of a day, cut to a unit. -/
def bucketText (bucket : Bucket) (d : Calendar.Date) : List Char :=
  match bucket with
  | .day => d.dayText
  | .month => d.monthText
  | .year => Calendar.Date.yearText d.year

/-- The value by which a row is grouped: dates are cut to their bucket. -/
def groupValue (bucket : Option Bucket) (v : Option Value) : Except Fault Value :=
  match v, bucket with
  | none, _ | some .null, _ => .ok .null
  | some v, none => .ok v
  | some v, some bucket =>
    match v.text?.bind Calendar.readDate with
    | some date => .ok (.string (String.ofList (bucketText bucket date)))
    | none => .error (.notDate v)

/-- The identifier that a key field holds, as a number or as a text. -/
def identifier? (v : Value) : Option EntityId :=
  v.int64?.or (v.text?.bind fun s => Decimal.readInt64 s.toList)

/-- Whether all conditions hold of the values bound. -/
def allHold (conditions : List Condition) (b : Binding) : Bool :=
  conditions.all fun c => c.holds (b.value? c.column)

/-- A plan's sub-expression with its predicates made ready. -/
structure ReadySub where
  sub : SubExpression
  conditions : List Condition

/-- A plan with its predicates made ready, and the way to find partner rows. -/
structure Ready where
  plan : Plan
  partners : Join → Row → List Row
  conditions : List Condition
  semiJoins : List (SemiJoin × List Condition)
  subExpressions : List ReadySub

/-- All joins of a plan. -/
def allJoins (p : Plan) : List Join :=
  p.joins ++ (p.scope.getD []).flatMap (·.joins) ++ p.semiJoins.flatMap (·.joins) ++
    p.subExpressions.flatMap (·.joins)

/-- Makes the predicates ready: those of the joined rows, of the semi-joins and of the
sub-expressions, in this order. -/
def Ready.ofPlan (tables : Tables) (specials : Specials) (p : Plan) : Except Fault Ready := do
  let conditions ← p.predicates.mapM (Condition.prepare specials)
  let semiJoins ← p.semiJoins.mapM fun s =>
    (s.predicates.mapM (Condition.prepare specials)).map (s, ·)
  let subExpressions ← p.subExpressions.mapM fun s =>
    (s.predicates.mapM (Condition.prepare specials)).map fun cs => (⟨s, cs⟩ : ReadySub)
  return ⟨p, (JoinIndex.ofJoins tables (allJoins p)).partners, conditions, semiJoins,
    subExpressions⟩

namespace Ready

/-- The rows that joins reach from one root row. -/
def reach (r : Ready) (joins : List Join) (root : Row) : List Binding :=
  expand r.partners joins [[(r.plan.rootAlias, root)]]

/-- Whether the root row reaches a leaf that the branch lists. -/
def inBranch (r : Ready) (root : Row) (branch : ScopeBranch) : Bool :=
  (r.reach branch.joins root).any fun b =>
    ((b.value? branch.key).bind identifier?).any (branch.ids.contains ·)

/-- Whether the root row is in scope. -/
def inScope (r : Ready) (root : Row) : Bool :=
  match r.plan.scope with
  | none => true
  | some branches => branches.any (r.inBranch root)

/-- Whether the root row reaches a row that satisfies the semi-join. -/
def passes (r : Ready) (root : Row) (semi : SemiJoin × List Condition) : Bool :=
  (r.reach semi.1.joins root).any (allHold semi.2)

/-- Whether the root row counts at all. -/
def admits (r : Ready) (root : Row) : Bool :=
  r.inScope root && r.semiJoins.all (r.passes root)

/-- Feeds the aggregates with one row. -/
def feed (aggregates : List Aggregate) (accumulators : List Accumulator) (b : Binding) :
    Except Fault (List Accumulator) :=
  (aggregates.zip accumulators).mapM fun a => a.2.push (b.value? a.1.column)

/-- The aggregates of a sub-expression for one root row; there are none if it has no rows and the
row is to be dropped then. -/
def partials (r : Ready) (root : Row) (s : ReadySub) : Except Fault (Option (List Accumulator)) :=
  let rows := (r.reach s.sub.joins root).filter (allHold s.conditions)
  if rows.isEmpty ∧ s.sub.joinKind = .inner then .ok none
  else
    (rows.foldlM (feed s.sub.aggregates)
      (s.sub.aggregates.map fun a => Accumulator.new a.function)).map some

/-- The aggregates of all sub-expressions; there are none as soon as one of them drops the row. -/
def allPartials (r : Ready) (root : Row) :
    List ReadySub → Except Fault (Option (List (List Accumulator)))
  | [] => .ok (some [])
  | s :: rest => do
    match ← r.partials root s with
    | none => return none
    | some found => return (← r.allPartials root rest).map (found :: ·)

end Ready

/-- One joined row: the values it is grouped by and its inputs for the local aggregates. -/
structure Contribution where
  key : List Value
  inputs : List (Option Input)
deriving DecidableEq

/-- The text under which rows are grouped. -/
def Contribution.keyText (c : Contribution) : String := Comparison.groupKey (.array c.key)

/-- What one root row puts into one group: its joined rows, and its sub-expressions once. -/
structure Share where
  rows : Group Contribution
  partials : List (List Accumulator)

namespace Share

def key (s : Share) : List Value := s.rows.first.key

def keyText (s : Share) : String := s.rows.first.keyText

end Share

namespace Ready

/-- Reads the group values and the inputs of a joined row. -/
def contribution (r : Ready) (b : Binding) : Except Fault Contribution := do
  let key ← r.plan.groupKeys.mapM fun k => groupValue k.bucket (b.value? k.column)
  let inputs ← r.plan.localAggregates.mapM fun a => Input.read a.function (b.value? a.column)
  return ⟨key, inputs⟩

/-- The shares of one root row. -/
def shares (r : Ready) (root : Row) : Except Fault (List Share) := do
  if ¬ r.admits root then return []
  match ← r.allPartials root r.subExpressions with
  | none => return []
  | some found =>
    let rows := (r.reach r.plan.joins root).filter (allHold r.conditions)
    let contributions ← rows.mapM r.contribution
    return (groupBy Contribution.keyText contributions).map fun rows => ⟨rows, found⟩

end Ready

/-- The accumulators of one result tuple. -/
structure Totals where
  locals : List Accumulator
  subs : List (List Accumulator)

namespace Totals

def zero (p : Plan) : Totals :=
  ⟨p.localAggregates.map fun a => .new a.function,
    p.subExpressions.map fun s => s.aggregates.map fun a => .new a.function⟩

/-- Takes up one root row's share of the group. -/
def add (t : Totals) (s : Share) : Totals :=
  ⟨s.rows.toList.foldl (fun locals c => locals.zipWith Accumulator.addRead c.inputs) t.locals,
    t.subs.zipWith (List.zipWith Accumulator.merge) s.partials⟩

/-- The result cells with their places. -/
def cells (t : Totals) (p : Plan) : List (Nat × Value) :=
  let finished (aggregates : List Aggregate) (accumulators : List Accumulator) :=
    (aggregates.zip accumulators).map fun a => (a.1.outputIndex, a.2.finish)
  finished p.localAggregates t.locals ++
    (p.subExpressions.zip t.subs).flatMap fun s => finished s.1.aggregates s.2

end Totals

/-- The tuple of a group. -/
def tuple (p : Plan) (key : List Value) (totals : Totals) : Tuple :=
  let keyCells := (p.groupKeys.zip key).map fun k => (k.1.outputIndex, k.2)
  (keyCells ++ totals.cells p).foldl (fun t cell => t.set cell.1 cell.2)
    (List.replicate p.outputs.length .null)

/-- The tuples of all groups, not yet sorted. Without any group, a global result has one tuple of
empty aggregates. -/
def tuples (p : Plan) (shares : List Share) : List Tuple :=
  match groupBy Share.keyText shares with
  | [] => if p.isGlobal then [tuple p [] (.zero p)] else []
  | groups => groups.map fun g => tuple p g.first.key (g.toList.foldl Totals.add (.zero p))

/-- Evaluates a plan over the tables, with the store's own operations. -/
def evaluate (tables : Tables) (specials : Specials) (p : Plan) : Except Fault (List Tuple) := do
  let ready ← Ready.ofPlan tables specials p
  let shares ← (tables.rows p.root).mapM ready.shares
  return SortKey.sort p.sortKeys (tuples p shares.flatten)

end Tabulation.Evaluation
