import Tabulation.Catalog.Registry
import Tabulation.Query.Definition

/-! Restrictions: mandatory filters that the place of a chart puts on its query. Each one adds a
filter of its own behind those that are there already and changes nothing else but the entity
types involved in filters. -/
namespace Tabulation.Query
open Json (Value Reader required)

/-- The workspace that a chart belongs to. -/
inductive Workspace where
  | requirement
  | testCase
  | campaign
  | customReport
  | home
  | automation
deriving DecidableEq, Repr

namespace Workspace

def all : List Workspace := [.requirement, .testCase, .campaign, .customReport, .home, .automation]

def name : Workspace → String
  | .requirement => "requirement"
  | .testCase => "test_case"
  | .campaign => "campaign"
  | .customReport => "custom_report"
  | .home => "home"
  | .automation => "automation"

def reader : Reader Workspace := .oneOf (all.map fun w => (w.name, w))

end Workspace

/-- What a query is restricted to: one milestone, or some projects. -/
inductive Limit where
  | milestone (id : EntityId)
  | projects (ids : List EntityId)
deriving DecidableEq, Repr

namespace Limit

/-- The label of the column that is filtered in a workspace. Not every workspace has one. -/
def columnLabel : Limit → Workspace → Option String
  | .milestone _, .requirement => some "REQUIREMENT_VERSION_MILESTONE_ID"
  | .milestone _, .testCase => some "TEST_CASE_MILESTONE_ID"
  | .milestone _, .campaign => some "CAMPAIGN_MILESTONE_ID"
  | .projects _, .requirement => some "REQUIREMENT_PROJECT_ID"
  | .projects _, .testCase => some "TEST_CASE_PROJECT_ID"
  | .projects _, .campaign => some "CAMPAIGN_PROJECT_ID"
  | _, _ => none

def operation : Limit → Operation
  | .milestone _ => .equals
  | .projects _ => .oneOf

def values : Limit → List Value
  | .milestone id => [.ofInt64 id]
  | .projects ids => ids.map .ofInt64

end Limit

structure Restriction where
  limit : Limit
  workspace : Workspace
deriving DecidableEq, Repr

namespace Restriction

/-- The filter that the restriction adds and the entity type it is on: none without a column for
the workspace, without that column in the catalog, or without values. -/
def filter? (r : Restriction) (catalog : Catalog) : Option (Filter × EntityType) := do
  let label ← r.limit.columnLabel r.workspace
  let column ← catalog.column? label
  if r.limit.values.isEmpty then none
  else some (⟨label, r.limit.operation, r.limit.values⟩, column.entity)

/-- The label of a column that would be filtered if there were values for it. -/
def skippedLabel? (r : Restriction) : Option String :=
  if r.limit.values.isEmpty then r.limit.columnLabel r.workspace else none

/-- The model under the restriction. -/
def apply (r : Restriction) (catalog : Catalog) (m : Model) : Model :=
  match r.filter? catalog with
  | some (filter, entity) =>
    { m with filters := m.filters ++ [filter], involved := m.involved.add .filter entity }
  | none => m

def reader : Reader Restriction := fun d =>
  match d.fields? ["rule", "value", "workspace"] with
  | some [.given (.string rule), value, workspace] => do
    let limit ←
      match rule with
      | "milestone" => (required .int64 value).map Limit.milestone
      | "project" => (required (.list .int64) value).map Limit.projects
      | _ => none
    return ⟨limit, ← required Workspace.reader workspace⟩
  | _ => none

end Restriction

/-- The model under several restrictions, the innermost of which comes first. -/
def Model.restrict (m : Model) (catalog : Catalog) (rs : List Restriction) : Model :=
  rs.foldl (fun m r => r.apply catalog m) m

end Tabulation.Query
