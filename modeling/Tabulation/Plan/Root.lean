import Tabulation.Plan.Check

/-! The root of a plan, whose rows are counted once each, and the way of every column from it. -/
namespace Tabulation.Plan
open Catalog (Column ColumnRole Step FanOutKey)
open Query (Projection Aggregation Filter)

/-- A column of a query with its path from the root. -/
structure Placed (α : Type) where
  use : α
  column : Column
  path : List Step
deriving DecidableEq

namespace Placed

variable {α : Type}

def entity (p : Placed α) : EntityType := p.column.entity

/-- How the path multiplies root rows. -/
def key (p : Placed α) : FanOutKey := .ofSteps p.path

end Placed

/-- The path to an entity type on which no step fans out. -/
def directPath? (catalog : Catalog) (root entity : EntityType) : Option (List Step) :=
  match catalog.path? root entity with
  | some path => if (FanOutKey.ofSteps path).isRoot then some path else none
  | none => none

/-- Places a column anywhere in the root's tree. -/
def place {α : Type} (catalog : Catalog) (root : EntityType) (role : ColumnRole)
    (label : α → String) (f : Found α) : Except Rejection (Placed α) :=
  match catalog.path? root f.entity with
  | some path => .ok ⟨f.use, f.column, path⟩
  | none => .error (.unrelated (label f.use) role f.entity root)

/-- Places a projection, which must not fan out. -/
def placeProjection (catalog : Catalog) (root : EntityType) (f : Found Projection) :
    Except Rejection (Placed Projection) :=
  match directPath? catalog root f.entity with
  | some path => .ok ⟨f.use, f.column, path⟩
  | none => .error (.projectionFansOut f.use.label f.entity root)

/-- The first occurrence of every entity type. -/
def distinct : List EntityType → List EntityType
  | [] => []
  | e :: es => e :: (distinct es).filter (· ≠ e)

/-- The root with the projections placed from it: the entity type that the query names; else, of
the projected entity types, the first one that reaches all of them without fanning out; else, if
nothing is projected, the one that is aggregated first. -/
def chooseRoot (catalog : Catalog) (c : Checked) :
    Except Rejection (EntityType × List (Placed Projection)) :=
  match c.root with
  | some root => do
    if ¬ catalog.forest.contains root then throw (.rootUnknown root)
    return (root, ← c.projections.mapM (placeProjection catalog root))
  | none =>
    match c.projections, c.aggregations with
    | [], [] => .error .queryEmpty
    | [], a :: _ => .ok (a.entity, [])
    | _ :: _, _ =>
      let candidates := distinct (c.projections.map Found.entity)
      let placedFrom (root : EntityType) :=
        match c.projections.mapM (placeProjection catalog root) with
        | .ok placed => some (root, placed)
        | .error _ => none
      match candidates.findSome? placedFrom with
      | some choice => .ok choice
      | none => .error (.noCommonRoot candidates)

/-- Aggregations that multiply root rows in the same way, each with its place among all. -/
abbrev Partition := List (Nat × Placed Aggregation)

/-- The aggregations by fan-out key. A flat query can only have one key. -/
def partition (catalog : Catalog) (root : EntityType) (c : Checked) :
    Except Rejection (OrderedMap FanOutKey Partition) := do
  let placed ← c.aggregations.mapM (place catalog root .aggregation Aggregation.label)
  let parts : OrderedMap FanOutKey Partition :=
    placed.zipIdx.foldl (fun parts a =>
      parts.alter a.1.key fun part => part.getD [] ++ [(a.2, a.1)]) ∅
  if c.strategy = .flat ∧ parts.size > 1 then throw (.mixedFanOut parts.keys)
  return parts

/-- The filters by entity type, and in the order of the query within one. -/
def placeFilters (catalog : Catalog) (root : EntityType) (c : Checked) :
    Except Rejection (List (Placed Filter)) :=
  (c.filters.mergeSort fun f g => (compare f.entity g.entity).isLE).mapM
    (place catalog root .filter Filter.label)

end Tabulation.Plan
