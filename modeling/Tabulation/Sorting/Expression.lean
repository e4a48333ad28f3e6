import Tabulation.Sorting.Criteria

/-! The typed ordering of a plan: sort criteria anchored at the alias of the plan's root. -/
namespace Tabulation.Sorting
open Json (Value Reader required)

/-- One ordering expression. -/
structure OrderExpr where
  aliasName : String
  property : String
  direction : Direction
  nulls : NullPlacement
deriving DecidableEq, Repr

namespace OrderExpr

def render (e : OrderExpr) : String :=
  let text := s!"{e.aliasName}.{e.property} {e.direction.name}"
  if e.nulls = .smallest then text else s!"{text} {e.nulls.clause}"

def toJson (e : OrderExpr) : Value :=
  .object [("alias", .string e.aliasName), ("property", .string e.property),
    ("direction", .string e.direction.name), ("nulls", .string e.nulls.name)]

def reader : Reader OrderExpr := fun d =>
  match d.fields? ["alias", "property", "direction", "nulls"] with
  | some [aliasName, property, direction, nulls] => do
    return ⟨← required .string aliasName, ← required .string property,
      ← required Direction.reader direction, ← required NullPlacement.reader nulls⟩
  | _ => none

end OrderExpr

/-- No ordering at all is told apart from an ordering by no expressions, which `ofCriteria` never
gives. -/
inductive TypedOrdering where
  | unsorted
  | ordered (exprs : List OrderExpr)
deriving DecidableEq, Repr

namespace TypedOrdering

def exprs : TypedOrdering → List OrderExpr
  | .unsorted => []
  | .ordered exprs => exprs

/-- The criteria anchored at the alias of `root`. -/
def ofCriteria (root : EntityType) (criteria : Criteria) : TypedOrdering :=
  if criteria.isEmpty then .unsorted
  else .ordered (criteria.map fun order =>
    ⟨root.aliasName, order.property, order.direction, .ofHandling order.nullHandling⟩)

def toJson : TypedOrdering → Value
  | .unsorted => .string "Unsorted"
  | .ordered exprs => .object [("Ordered", .array (exprs.map OrderExpr.toJson))]

def reader : Reader TypedOrdering := fun d =>
  match d.variant? with
  | some ("Unsorted", none) | some ("Unsorted", some .null) => some .unsorted
  | some ("Ordered", some exprs) => (Reader.list OrderExpr.reader exprs).map .ordered
  | _ => none

end TypedOrdering

end Tabulation.Sorting
