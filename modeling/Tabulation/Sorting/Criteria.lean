import Tabulation.Catalog.Basic
import Tabulation.Json.Record

/-! Sort criteria as a caller states them, and the typed expressions that they become. -/
namespace Tabulation.Sorting
open Json (Value Reader required optional)

inductive Direction where
  | ascending
  | descending
deriving DecidableEq, Repr

namespace Direction

def all : List Direction := [.ascending, .descending]

def name : Direction → String
  | .ascending => "ASC"
  | .descending => "DESC"

def reader : Reader Direction := .oneOf (all.map fun d => (d.name, d))

end Direction

/-- Where a caller wants nulls. A wish that is not known is kept as such. -/
inductive NullHandling where
  | nullsFirst
  | nullsLast
  | native
  | unknown
deriving DecidableEq, Repr

namespace NullHandling

def name : NullHandling → String
  | .nullsFirst => "NULLS_FIRST"
  | .nullsLast => "NULLS_LAST"
  | .native => "NATIVE"
  | .unknown => "UNKNOWN"

def ofName : String → NullHandling
  | "NULLS_FIRST" => .nullsFirst
  | "NULLS_LAST" => .nullsLast
  | "NATIVE" => .native
  | _ => .unknown

def reader : Reader NullHandling := fun d =>
  match d.variant? with
  | some (name, none) | some (name, some .null) => some (ofName name)
  | _ => none

end NullHandling

/-- One sort criterion. -/
structure SortOrder where
  property : String
  direction : Direction := .ascending
  nullHandling : NullHandling := .native
deriving DecidableEq, Repr

namespace SortOrder

def toJson (order : SortOrder) : Value :=
  .object [("property", .string order.property), ("direction", .string order.direction.name),
    ("null_handling", .string order.nullHandling.name)]

def reader : Reader SortOrder := fun d =>
  match d.fields? ["property", "direction", "null_handling"] with
  | some [property, direction, nullHandling] => do
    return ⟨← required .string property, ← optional .ascending Direction.reader direction,
      ← optional .native NullHandling.reader nullHandling⟩
  | _ => none

end SortOrder

/-- Sort criteria, the most important one first. -/
abbrev Criteria := List SortOrder

def Criteria.toJson (criteria : Criteria) : Value := .array (criteria.map SortOrder.toJson)

def Criteria.reader : Reader Criteria := .list SortOrder.reader

/-- Where nulls are placed. -/
inductive NullPlacement where
  | first
  | last
  /-- As if smaller than every value. -/
  | smallest
deriving DecidableEq, Repr

namespace NullPlacement

def all : List NullPlacement := [.first, .last, .smallest]

def name : NullPlacement → String
  | .first => "first"
  | .last => "last"
  | .smallest => "default"

def reader : Reader NullPlacement := .oneOf (all.map fun p => (p.name, p))

/-- The words that ask for the placement; none are needed where nulls count as smallest. -/
def clause : NullPlacement → String
  | .first => "NULLS FIRST"
  | .last => "NULLS LAST"
  | .smallest => ""

def ofHandling : NullHandling → NullPlacement
  | .nullsFirst => .first
  | .nullsLast => .last
  | .native | .unknown => .smallest

/-- How a null compares with a value. -/
def nullVersusValue : NullPlacement → Direction → Ordering
  | .first, _ => .lt
  | .last, _ => .gt
  | .smallest, .ascending => .lt
  | .smallest, .descending => .gt

end NullPlacement

end Tabulation.Sorting
