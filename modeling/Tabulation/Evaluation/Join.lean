import Std.Data.HashMap
import Tabulation.Comparison.Key
import Tabulation.Plan.Basic

/-! Joining rows along the joins of a plan, through indexes by join key. -/
namespace Tabulation.Evaluation
open Json (Value)
open Plan (ColumnRef Join)

/-- The fields of one entity row. -/
abbrev Row := Json.Members

/-- The rows of every entity type, in the order of their entry. -/
abbrev Tables := OrderedMap EntityType (List Row)

def Tables.rows (tables : Tables) (entity : EntityType) : List Row :=
  (tables.get? entity).getD []

/-- The key under which a row is joined by a field. -/
def joinKey? (row : Row) (field : String) : Option String :=
  (row.get? field).bind Comparison.joinKey?

/-- The rows of one table by the join key of one field. -/
abbrev KeyIndex := Std.HashMap String (List Row)

/-- Rows under one key keep their order. -/
def KeyIndex.ofRows (field : String) (rows : List Row) : KeyIndex :=
  rows.foldr
    (fun row index =>
      match joinKey? row field with
      | some key => index.alter key fun found => some (row :: found.getD [])
      | none => index) ∅

/-- The key indexes by entity type and field. -/
abbrev JoinIndex := Std.HashMap (EntityType × String) KeyIndex

/-- One index for every target field of the joins. -/
def JoinIndex.ofJoins (tables : Tables) (joins : List Join) : JoinIndex :=
  joins.foldl
    (fun index join =>
      let target := (join.step.target, join.step.targetField)
      if index.contains target then index
      else index.insert target (.ofRows target.2 (tables.rows target.1))) ∅

/-- The rows that a join finds for a parent row. -/
def JoinIndex.partners (index : JoinIndex) (join : Join) (parent : Row) : List Row :=
  match joinKey? parent join.step.sourceField,
      index[(join.step.target, join.step.targetField)]? with
  | some key, some rows => rows.getD key []
  | _, _ => []

/-- Rows bound to aliases; the latest binding of an alias counts. -/
abbrev Binding := List (String × Row)

namespace Binding

def row? (b : Binding) (aliasName : String) : Option Row := b.lookup aliasName

def value? (b : Binding) (c : ColumnRef) : Option Value :=
  (b.row? c.aliasName).bind fun row => row.get? c.field

end Binding

/-- Joins the rows that `partners` finds to one binding. Without any, a left join keeps the binding
and an inner join drops it. -/
def joinOne (partners : Join → Row → List Row) (join : Join) (b : Binding) : List Binding :=
  match (b.row? join.parentAlias).map (partners join) with
  | none | some [] => if join.kind = .left then [b] else []
  | some rows => rows.map fun row => (join.aliasName, row) :: b

/-- Applies joins one after the other to every binding. -/
def expand (partners : Join → Row → List Row) (joins : List Join) (seeds : List Binding) :
    List Binding :=
  joins.foldl (fun bindings join => bindings.flatMap (joinOne partners join)) seeds

end Tabulation.Evaluation
