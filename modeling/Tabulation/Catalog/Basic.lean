import Tabulation.Ordered.Set
import Tabulation.Text.LowerCase

/-! What a catalog declares: entity types, the relations between them, and labelled columns. -/
namespace Tabulation

/-- The name of a kind of entity, such as `TestCase`. -/
abbrev EntityType := String

/-- The identifier of one entity row. -/
abbrev EntityId := Int64

/-- The name under which a query refers to the rows of an entity type: the first letter in lower
case. -/
def EntityType.aliasName (entity : EntityType) : String :=
  match entity.toList with
  | [] => ""
  | c :: cs => String.ofList (Text.lowerCase c ++ cs)

namespace Catalog

inductive DataKind where
  | id
  | text
  | numeric
  | boolean
  | date
  | enumerated
deriving DecidableEq, Repr

namespace DataKind

def all : List DataKind := [.id, .text, .numeric, .boolean, .date, .enumerated]

def name : DataKind → String
  | .id => "id"
  | .text => "text"
  | .numeric => "numeric"
  | .boolean => "boolean"
  | .date => "date"
  | .enumerated => "enumerated"

/-- Whether larger and smaller mean something for values of the kind. -/
def isOrdered : DataKind → Bool
  | .boolean => false
  | _ => true

end DataKind

/-- What a column may serve for in a query. -/
inductive ColumnRole where
  | projection
  | aggregation
  | filter
  | ordering
deriving DecidableEq, Repr

namespace ColumnRole

def all : List ColumnRole := [.projection, .aggregation, .filter, .ordering]

def name : ColumnRole → String
  | .projection => "projection"
  | .aggregation => "aggregation"
  | .filter => "filter"
  | .ordering => "ordering"

def rank : ColumnRole → Nat
  | .projection => 0
  | .aggregation => 1
  | .filter => 2
  | .ordering => 3

instance : Ord ColumnRole := ⟨compareOn rank⟩
instance : Std.TransOrd ColumnRole := inferInstanceAs (Std.TransCmp (compareOn rank))

end ColumnRole

/-- A queryable attribute of an entity type. -/
structure Column where
  label : String
  entity : EntityType
  /-- The field on the rows of the entity type. -/
  field : String
  kind : DataKind
  roles : OrderedSet ColumnRole := OrderedSet.ofList ColumnRole.all
deriving DecidableEq

def Column.supports (column : Column) (role : ColumnRole) : Bool := column.roles.contains role

/-- An entity type and the field that identifies its rows. -/
structure Entity where
  name : EntityType
  primaryKey : String := "id"
deriving DecidableEq, Repr

/-- How many target rows one source row of a relation may have, and the other way round. -/
inductive Cardinality where
  | oneToMany
  | manyToOne
  | oneToOne
deriving DecidableEq, Repr

def Cardinality.all : List Cardinality := [.oneToMany, .manyToOne, .oneToOne]

def Cardinality.name : Cardinality → String
  | .oneToMany => "one_to_many"
  | .manyToOne => "many_to_one"
  | .oneToOne => "one_to_one"

/-- Rows of `source` and `target` belong together where the two fields are equal. -/
structure Relation where
  source : EntityType
  sourceField : String
  target : EntityType
  targetField : String
  cardinality : Cardinality
deriving DecidableEq, Repr

/-- A relation walked in one direction. -/
structure Step where
  source : EntityType
  sourceField : String
  target : EntityType
  targetField : String
  /-- One source row may have many target rows. -/
  fansOut : Bool
deriving DecidableEq, Repr

def Relation.forward (r : Relation) : Step :=
  ⟨r.source, r.sourceField, r.target, r.targetField, r.cardinality = .oneToMany⟩

def Relation.backward (r : Relation) : Step :=
  ⟨r.target, r.targetField, r.source, r.sourceField, r.cardinality = .manyToOne⟩

end Catalog

end Tabulation
