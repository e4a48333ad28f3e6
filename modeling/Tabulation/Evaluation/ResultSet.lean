import Tabulation.Comparison.Order
import Tabulation.Plan.Basic
import Tabulation.Query.Paging

/-! Results: tuples in order, and pages of them. -/
namespace Tabulation
namespace Evaluation
open Json (Value)
open Query (Paging)
open Sorting (Direction NullPlacement)

/-- One value for every result column. -/
abbrev Tuple := List Value

/-- What tuples are sorted by: the column at an index. -/
structure SortKey where
  index : Nat
  direction : Direction
  nulls : NullPlacement
deriving DecidableEq, Repr

namespace SortKey

/-- The cell at the index; a null and a missing cell are none. -/
def cell? (key : SortKey) (t : Tuple) : Option Value :=
  match t[key.index]? with
  | none | some .null => none
  | some v => some v

def compare (key : SortKey) (s t : Tuple) : Ordering :=
  match key.cell? s, key.cell? t with
  | none, none => .eq
  | none, some _ => key.nulls.nullVersusValue key.direction
  | some _, none => (key.nulls.nullVersusValue key.direction).swap
  | some a, some b =>
    match key.direction with
    | .ascending => Comparison.sortValues a b
    | .descending => (Comparison.sortValues a b).swap

/-- The first key under which two tuples differ decides. -/
def compareAll (keys : List SortKey) (s t : Tuple) : Ordering :=
  keys.foldr (fun key rest => (key.compare s t).then rest) .eq

/-- The tuples in order. Those that no key tells apart stay in the order that they had. -/
def sort (keys : List SortKey) (tuples : List Tuple) : List Tuple :=
  tuples.mergeSort fun s t => (compareAll keys s t).isLE

end SortKey

structure ResultSet where
  columns : List String
  tuples : List Tuple
deriving DecidableEq

namespace ResultSet

def columnIndex? (r : ResultSet) (name : String) : Option Nat := r.columns.idxOf? name

/-- The cells of a column, of those tuples that are long enough to have one. -/
def column? (r : ResultSet) (name : String) : Option (List Value) :=
  (r.columnIndex? name).map fun index => r.tuples.filterMap (·[index]?)

/-- The tuples of one page. A page of size 0, a page past the end and a page whose position 64 bits
cannot hold are empty. -/
def page (r : ResultSet) (paging : Paging) : ResultSet :=
  match paging.offset? with
  | some start =>
    if 0 < paging.size ∧ start < r.tuples.length then
      { r with tuples := r.tuples.extract start (min (paging.stop start) r.tuples.length) }
    else { r with tuples := [] }
  | none => { r with tuples := [] }

/-- The requested page, or all tuples if there is no request. -/
def paged (r : ResultSet) (paging : Option Paging) : ResultSet :=
  (paging.map r.page).getD r

def toJson (r : ResultSet) : Value :=
  .object [("columns", .array (r.columns.map .string)),
    ("tuples", .array (r.tuples.map .array))]

end ResultSet

end Evaluation

/-- The sort keys of a plan's ordering. -/
def Plan.sortKeys (p : Plan) : List Evaluation.SortKey :=
  (p.ordering.exprs.zip p.orderColumns).map fun e => ⟨e.2, e.1.direction, e.1.nulls⟩

end Tabulation
