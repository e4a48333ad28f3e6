import Tabulation.Evaluation.Evaluator
import Tabulation.Json.Parser
import Tabulation.Scope.Resolver

/-! Stores in memory: rows by entity type, and containers with their children. -/
namespace Tabulation.Storage
open Json (Value Reader required optional)
open Evaluation (Row Tables Special Specials ResultSet)
open Query (Paging)
open Scope (Reference Directory)

/-- A container as data files declare it. -/
structure Container where
  reference : Reference
  children : List Reference
deriving DecidableEq, Repr

/-- What a data file holds. Rows are not yet known to be objects. -/
structure Contents where
  tables : OrderedMap EntityType (List Value)
  containers : List Container
  primaryKeys : OrderedMap EntityType String

structure Store where
  tables : Tables := ∅
  /-- The identifying fields of entity types whose rows are not identified by `id`. -/
  primaryKeys : OrderedMap EntityType String := ∅
  containers : List (Reference × List Reference) := []
  specials : Specials := .builtin

def Container.reader : Reader Container := fun d =>
  match d.fields? ["entity_type", "id", "children"] with
  | some [entityType, id, children] => do
    return ⟨⟨← required .string entityType, ← required .int64 id⟩,
      ← optional [] (.list Reference.reader) children⟩
  | _ => none

def Contents.reader : Reader Contents := fun d =>
  match d.fields? ["tables", "containers", "primary_keys"] with
  | some [tables, containers, primaryKeys] => do
    return {
      tables := ← optional ∅ (.map some (.list .any)) tables
      containers := ← optional [] (.list Container.reader) containers
      primaryKeys := ← optional ∅ (.map some .string) primaryKeys }
  | _ => none

/-- Puts children under a container, behind those that it has. -/
def addChildren (r : Reference) (children : List Reference) :
    List (Reference × List Reference) → List (Reference × List Reference)
  | [] => [(r, children)]
  | c :: cs => if c.1 = r then (r, c.2 ++ children) :: cs else c :: addChildren r children cs

namespace Store

def rows (s : Store) (entity : EntityType) : List Row := s.tables.rows entity

/-- The field that identifies the rows of an entity type. -/
def primaryKey (s : Store) (entity : EntityType) : String :=
  (s.primaryKeys.get? entity).getD "id"

def withPrimaryKey (s : Store) (entity : EntityType) (field : String) : Store :=
  { s with primaryKeys := s.primaryKeys.insert entity field }

/-- Adds a row behind those of its entity type. It has to be an object. -/
def insert (s : Store) (entity : EntityType) : Value → Except Fault Store
  | .object row =>
    .ok { s with tables := s.tables.alter entity fun rows => rows.getD [] ++ [row] }
  | row => .error (.rowNotObject entity row)

def addContainer (s : Store) (c : Container) : Store :=
  { s with containers := addChildren c.reference c.children s.containers }

/-- Makes an operation known under a name, in place of one that has the name. -/
def register (s : Store) (name : String) (special : Special) : Store :=
  { s with specials := s.specials.insert name special }

/-- Fills a store: primary keys, then rows, then containers. -/
def ofContents (c : Contents) : Except Fault Store := do
  let s : Store := c.primaryKeys.entries.foldl (fun s k => s.withPrimaryKey k.1 k.2) {}
  let s ← c.tables.entries.foldlM (fun s table => table.2.foldlM (·.insert table.1) s) s
  return c.containers.foldl addContainer s

/-- The store that a data file describes. -/
def ofText (text : String) : Except Fault Store :=
  match (Json.parse text).bind Contents.reader with
  | some contents => ofContents contents
  | none => .error .malformedData

/-- The entities in the store: a row is a leaf. -/
def directory (s : Store) : Directory :=
  ⟨s.containers, fun r => (s.rows r.entityType).any fun row =>
    (row.get? (s.primaryKey r.entityType)).bind Value.int64? = some r.id⟩

/-- Runs a plan over the rows and gives the requested page of the result. -/
def run (s : Store) (p : Plan) (paging : Option Paging) : Except Fault ResultSet := do
  let tuples ← Evaluation.evaluate s.tables s.specials p
  return (⟨p.columnNames, tuples⟩ : ResultSet).paged paging

end Store

/-- What runs plans. -/
abbrev Backend := Plan → Option Paging → Except Fault ResultSet

end Tabulation.Storage
