import Tabulation.Catalog.Registry
import Tabulation.Json.Parser
import Tabulation.Json.Printer
import Tabulation.Json.Record

/-! Catalogs as documents: each part is written field by field and read back. -/
namespace Tabulation.Catalog
open Json (Value Reader required optional)

def DataKind.reader : Reader DataKind := .oneOf (DataKind.all.map fun k => (k.name, k))

def ColumnRole.reader : Reader ColumnRole := .oneOf (ColumnRole.all.map fun r => (r.name, r))

def Cardinality.reader : Reader Cardinality := .oneOf (Cardinality.all.map fun c => (c.name, c))

def Entity.toJson (entity : Entity) : Value :=
  .object [("name", .string entity.name), ("primary_key", .string entity.primaryKey)]

def Entity.reader : Reader Entity := fun d =>
  match d.fields? ["name", "primary_key"] with
  | some [name, primaryKey] => do
    return ⟨← required .string name, ← optional "id" .string primaryKey⟩
  | _ => none

def Relation.toJson (r : Relation) : Value :=
  .object [("from", .string r.source), ("from_field", .string r.sourceField),
    ("to", .string r.target), ("to_field", .string r.targetField),
    ("cardinality", .string r.cardinality.name)]

def Relation.reader : Reader Relation := fun d =>
  match d.fields? ["from", "from_field", "to", "to_field", "cardinality"] with
  | some [source, sourceField, target, targetField, cardinality] => do
    return ⟨← required .string source, ← required .string sourceField, ← required .string target,
      ← required .string targetField, ← required Cardinality.reader cardinality⟩
  | _ => none

def Column.toJson (column : Column) : Value :=
  .object [("label", .string column.label), ("entity", .string column.entity),
    ("attribute", .string column.field), ("kind", .string column.kind.name),
    ("roles", .array (column.roles.toList.map fun r => .string r.name))]

def Column.reader : Reader Column := fun d =>
  match d.fields? ["label", "entity", "attribute", "kind", "roles"] with
  | some [label, entity, field, kind, roles] => do
    return ⟨← required .string label, ← required .string entity, ← required .string field,
      ← required DataKind.reader kind,
      ← optional (OrderedSet.ofList ColumnRole.all) (.set ColumnRole.reader) roles⟩
  | _ => none

def Step.toJson (s : Step) : Value :=
  .object [("from", .string s.source), ("from_field", .string s.sourceField),
    ("to", .string s.target), ("to_field", .string s.targetField), ("fans_out", .bool s.fansOut)]

def Step.reader : Reader Step := fun d =>
  match d.fields? ["from", "from_field", "to", "to_field", "fans_out"] with
  | some [source, sourceField, target, targetField, fansOut] => do
    return ⟨← required .string source, ← required .string sourceField, ← required .string target,
      ← required .string targetField, ← required .bool fansOut⟩
  | _ => none

def Hop.toJson (h : Hop) : Value := .array [.string h.source, .string h.target]

def Hop.reader : Reader Hop
  | .array [.string source, .string target] => some ⟨source, target⟩
  | _ => none

def FanOutKey.toJson (key : FanOutKey) : Value := .array (key.hops.map Hop.toJson)

def FanOutKey.reader : Reader FanOutKey := fun d => (Reader.list Hop.reader d).map FanOutKey.mk

def Declarations.toJson (d : Declarations) : Value :=
  .object [("entities", .array (d.entities.map Entity.toJson)),
    ("relations", .array (d.relations.map Relation.toJson)),
    ("columns", .array (d.columns.map Column.toJson))]

def Declarations.reader : Reader Declarations := fun d =>
  match d.fields? ["entities", "relations", "columns"] with
  | some [entities, relations, columns] => do
    return ⟨← optional [] (.list Entity.reader) entities,
      ← optional [] (.list Relation.reader) relations,
      ← optional [] (.list Column.reader) columns⟩
  | _ => none

/-- The document of a catalog. -/
def toJson (catalog : Catalog) : Value := catalog.declarations.toJson

/-- The text in which a catalog is saved. -/
def fileText (catalog : Catalog) : String := catalog.toJson.pretty

/-- The catalog that a document declares; `source` names the document in errors. -/
def ofDocument (source : String) (document : Json.Document) : Except Error Catalog :=
  match Declarations.reader document with
  | some declarations => build declarations
  | none => .error (.malformed source "Invalid JSON")

def ofText (source text : String) : Except Error Catalog :=
  match Json.parse text with
  | some document => ofDocument source document
  | none => .error (.malformed source "Invalid JSON")

end Tabulation.Catalog
