import Tabulation.Catalog.FanOut
import Tabulation.Catalog.Search
import Tabulation.Ordered.Set

/-! The catalog: entity types, relations and labelled columns that fit together. -/
namespace Tabulation

structure Catalog where
  forest : Catalog.Forest
  /-- The columns by label. -/
  columns : OrderedMap String Catalog.Column
  /-- The labels of the columns of each entity type. -/
  labels : OrderedMap EntityType (OrderedSet String)
deriving DecidableEq

namespace Catalog

/-- What a catalog is built from, in the order of declaration. -/
structure Declarations where
  entities : List Entity := []
  relations : List Relation := []
  columns : List Column := []
deriving DecidableEq

def addColumn (catalog : Catalog) (column : Column) : Except Error Catalog :=
  if ¬ catalog.forest.contains column.entity then
    .error (.unknownEntity column.entity (.column column.label))
  else if (catalog.columns.get? column.label).isSome then .error (.duplicateLabel column.label)
  else
    .ok { catalog with
      columns := catalog.columns.insert column.label column
      labels := catalog.labels.alter column.entity fun known => (known.getD ∅).insert column.label }

/-- The catalog of the declarations: first the entity types, then the relations, then the columns,
up to the first one that does not fit. -/
def build (declarations : Declarations) : Except Error Catalog := do
  let forest ← Forest.build declarations.entities declarations.relations
  declarations.columns.foldlM addColumn ⟨forest, ∅, ∅⟩

def column? (catalog : Catalog) (label : String) : Option Column := catalog.columns.get? label

def find (catalog : Catalog) (label : String) : Except Error Column :=
  match catalog.column? label with
  | some column => .ok column
  | none => .error (.columnNotFound label)

/-- The columns of an entity type by label. -/
def columnsOf (catalog : Catalog) (entity : EntityType) : List Column :=
  ((catalog.labels.get? entity).getD ∅).toList.filterMap catalog.column?

def path? (catalog : Catalog) (source target : EntityType) : Option (List Step) :=
  catalog.forest.path? source target

/-- How the path from `root` multiplies rows. -/
def fanOutKey? (catalog : Catalog) (root target : EntityType) : Option FanOutKey :=
  (catalog.path? root target).map FanOutKey.ofSteps

/-- The declarations that give the catalog again: entity types by name, relations in the order of
declaration, columns by label. -/
def declarations (catalog : Catalog) : Declarations :=
  ⟨catalog.forest.entityList, catalog.forest.relations, catalog.columns.values⟩

end Catalog

end Tabulation
