import Tabulation.Plan.Basic
import Tabulation.Plan.Root

/-! Compiling a query into a plan. -/
namespace Tabulation.Plan
open Catalog (Column Step FanOutKey)
open Query (Model Projection Aggregation Filter JoinStyle)
open Sorting (Criteria SortOrder TypedOrdering)

/-- Adds one step to a list of joins. An alias is joined once; if it is there already, an inner
join prevails. -/
def addStep (joins : List Join) (kind : JoinKind) (step : Step) : List Join :=
  let aliasName := step.target.aliasName
  if joins.any fun j => j.aliasName = aliasName then
    joins.map fun j =>
      if j.aliasName = aliasName ∧ kind = .inner then { j with kind := .inner } else j
  else joins ++ [⟨kind, step.source.aliasName, aliasName, step⟩]

def addPath (kindOf : Step → JoinKind) (joins : List Join) (path : List Step) : List Join :=
  path.foldl (fun joins step => addStep joins (kindOf step) step) joins

def addInner : List Join → List Step → List Join := addPath fun _ => .inner

def addLeft : List Join → List Step → List Join := addPath fun _ => .left

def ColumnRef.ofColumn (c : Column) : ColumnRef :=
  ⟨c.entity.aliasName, c.entity, c.field, c.label, c.kind⟩

/-- The field that identifies the rows of an entity type. -/
def ColumnRef.primaryKey (catalog : Catalog) (entity : EntityType) : ColumnRef :=
  let field := catalog.forest.primaryKey entity
  ⟨entity.aliasName, entity, field, field, .id⟩

def Predicate.ofFilter (f : Placed Filter) : Predicate :=
  ⟨.ofColumn f.column, f.use.operation, f.use.values⟩

/-- The filters on one entity type to which the path fans out. -/
structure FannedFilters where
  entity : EntityType
  path : List Step
  predicates : List Predicate
deriving DecidableEq

/-- Brings together the filters on one entity type, which stand side by side. -/
def groupFilters : List (Placed Filter) → List FannedFilters
  | [] => []
  | f :: fs =>
    match groupFilters fs with
    | [] => [⟨f.entity, f.path, [.ofFilter f]⟩]
    | g :: gs =>
      if g.entity = f.entity then ⟨f.entity, f.path, .ofFilter f :: g.predicates⟩ :: gs
      else ⟨f.entity, f.path, [.ofFilter f]⟩ :: g :: gs

/-- Joins with the predicates that their rows have to satisfy. -/
abbrev Restricted := List Join × List Predicate

/-- Applies filters to rows that are joined anyway: the entity type has to be there, and its whole
path is made inner. -/
def restrictBy (r : Restricted) (f : FannedFilters) : Restricted :=
  if r.1.any fun j => j.aliasName = f.entity.aliasName then
    (addInner r.1 f.path, r.2 ++ f.predicates)
  else r

def aggregates (offset : Nat) (part : Partition) : List Aggregate :=
  part.map fun a => ⟨offset + a.1, a.2.use.function, .ofColumn a.2.column⟩

def joinKind : JoinStyle → JoinKind
  | .inner => .inner
  | .outer => .left

/-- How a step to an aggregated column joins: a row without partners on it has nothing to count
where the step fans out, and stays where it does not. -/
def measureKind (step : Step) : JoinKind := if step.fansOut then .inner else .left

/-- The aggregates of one fan-out key as an expression of their own. -/
def subExpression (style : JoinStyle) (fanned : List FannedFilters) (offset : Nat)
    (key : FanOutKey) (part : Partition) : SubExpression :=
  let joins := part.foldl (fun joins a => addPath measureKind joins a.2.path) []
  let restricted := fanned.foldl restrictBy (joins, [])
  ⟨key, joinKind style, restricted.1, restricted.2, aggregates offset part⟩

/-- How a step to an aggregated column joins in a flat query, where rows without partners on a step
that fans out are subject to the join style. -/
def flatKind (style : JoinStyle) (fanned : List FannedFilters) (step : Step) : JoinKind :=
  if step.fansOut then joinKind style
  else if fanned.any fun f => f.entity = step.target then .inner
  else .left

/-- Joins for the aggregates of a flat query whose path fans out, over the multiplied rows. -/
def addFlat (style : JoinStyle) (fanned : List FannedFilters) (r : Restricted)
    (part : Partition) : Restricted :=
  let joins := part.foldl (fun joins a => addPath (flatKind style fanned) joins a.2.path) r.1
  fanned.foldl restrictBy (joins, r.2)

def semiJoin (f : FannedFilters) : SemiJoin := ⟨f.entity, addInner [] f.path, f.predicates⟩

/-- One way into the scope for every entity type that the root is related to. -/
def scopeBranches (catalog : Catalog) (root : EntityType) :
    Scope.Resolved → Option (List ScopeBranch)
  | .unrestricted => none
  | .restricted leaves =>
    some (leaves.entries.filterMap fun e =>
      (catalog.path? root e.1).map fun path =>
        ⟨e.1, addInner [] path, .primaryKey catalog e.1, e.2⟩)

def Checked.outputs (c : Checked) : List Output :=
  c.projections.map (fun p => ⟨p.use.label, p.use.label, .projection⟩) ++
    c.aggregations.map fun a => ⟨a.use.outputName, a.use.label, .aggregation⟩

/-- The result column that a sort property names: by its name, or else by its label. -/
def sortColumn (outputs : List Output) (order : SortOrder) : Except Rejection (Nat × SortOrder) :=
  match (outputs.findIdx? fun o => o.name = order.property).or
      (outputs.findIdx? fun o => o.label = order.property) with
  | some place => .ok (place, order)
  | none => .error (.sortPropertyUnknown order.property)

/-- The query's own orderings, and after them the sort criteria that come with the page. -/
def orders (c : Checked) (outputs : List Output) (sort : Criteria) :
    Except Rejection (List (Nat × SortOrder)) := do
  let own := c.orderings.map fun o =>
    (o.1, (⟨o.2.label, o.2.direction, o.2.nullHandling⟩ : SortOrder))
  return own ++ (← sort.mapM (sortColumn outputs))

/-- Compiles a query under a resolved scope. -/
def compile (catalog : Catalog) (m : Model) (scope : Scope.Resolved) (sort : Criteria) :
    Except Rejection Plan := do
  let checked ← check catalog m
  let (root, projections) ← chooseRoot catalog checked
  let parts ← partition catalog root checked
  let filters ← placeFilters catalog root checked
  let direct := filters.filter fun f => f.key.isRoot
  let fanned := groupFilters (filters.filter fun f => ¬ f.key.isRoot)
  let offset := projections.length
  let near := (parts.entries.filter fun part => part.1.isRoot).flatMap (·.2)
  let far := parts.entries.filter fun part => ¬ part.1.isRoot
  let joins := projections.foldl (fun joins p => addInner joins p.path) []
  let joins := direct.foldl (fun joins f => addInner joins f.path) joins
  let joins := near.foldl (fun joins a => addLeft joins a.2.path) joins
  let predicates := direct.map Predicate.ofFilter
  let flat := checked.strategy = .flat
  let (joins, predicates) :=
    if flat then far.foldl (fun r part => addFlat checked.joinStyle fanned r part.2)
      (joins, predicates)
    else (joins, predicates)
  let outputs := checked.outputs
  let orders ← orders checked outputs sort
  return {
    root
    rootAlias := root.aliasName
    rootKey := .primaryKey catalog root
    joins
    predicates
    scope := scopeBranches catalog root scope
    semiJoins := fanned.map semiJoin
    groupKeys := projections.zipIdx.map fun p => ⟨p.2, .ofColumn p.1.column, p.1.use.bucket⟩
    localAggregates :=
      aggregates offset near ++ if flat then far.flatMap fun part => aggregates offset part.2
        else []
    subExpressions := if flat then [] else
      far.map fun part => subExpression checked.joinStyle fanned offset part.1 part.2
    outputs
    ordering := .ofCriteria root (orders.map (·.2))
    orderColumns := orders.map (·.1) }

end Tabulation.Plan
