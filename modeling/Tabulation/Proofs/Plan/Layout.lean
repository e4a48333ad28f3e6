import Tabulation.Proofs.Plan.JoinList
import Tabulation.Proofs.Plan.Root

/-! Compiling in two stages: a query is laid out from its root, and the layout is put together to a
plan. -/
namespace Tabulation.Plan
open Catalog (Column FanOutKey)
open Query (Model Projection Aggregation Filter)
open Sorting (Criteria SortOrder)
open Outcome

/-- The columns of a query as they are placed from its root. -/
structure Layout where
  root : EntityType
  projections : List (Placed Projection)
  parts : OrderedMap FanOutKey Partition
  filters : List (Placed Filter)

namespace Layout

/-- The filters that single out root rows by themselves. -/
def direct (l : Layout) : List (Placed Filter) := l.filters.filter fun f => f.key.isRoot

def fanned (l : Layout) : List FannedFilters :=
  groupFilters (l.filters.filter fun f => ¬ f.key.isRoot)

/-- The aggregations that do not multiply root rows. -/
def near (l : Layout) : Partition :=
  (l.parts.entries.filter fun part => part.1.isRoot).flatMap (·.2)

def far (l : Layout) : List (FanOutKey × Partition) :=
  l.parts.entries.filter fun part => ¬ part.1.isRoot

lemma far_subset {l : Layout} : l.far ⊆ l.parts.entries := List.filter_sublist.subset

/-- The joins and predicates of the main rows, apart from what a flat query adds. -/
def main (l : Layout) : Restricted :=
  let joins := l.projections.foldl (fun joins p => addInner joins p.path) []
  let joins := l.direct.foldl (fun joins f => addInner joins f.path) joins
  (l.near.foldl (fun joins a => addLeft joins a.2.path) joins, l.direct.map Predicate.ofFilter)

/-- The plan of a layout. -/
def plan (l : Layout) (catalog : Catalog) (c : Checked) (scope : Scope.Resolved)
    (orders : List (Nat × SortOrder)) : Plan :=
  let offset := l.projections.length
  let flat := c.strategy = .flat
  let main :=
    if flat then l.far.foldl (fun r part => addFlat c.joinStyle l.fanned r part.2) l.main
    else l.main
  { root := l.root
    rootAlias := l.root.aliasName
    rootKey := .primaryKey catalog l.root
    joins := main.1
    predicates := main.2
    scope := scopeBranches catalog l.root scope
    semiJoins := l.fanned.map semiJoin
    groupKeys := l.projections.zipIdx.map fun p => ⟨p.2, .ofColumn p.1.column, p.1.use.bucket⟩
    localAggregates :=
      aggregates offset l.near ++
        if flat then l.far.flatMap fun part => aggregates offset part.2 else []
    subExpressions := if flat then [] else
      l.far.map fun part => subExpression c.joinStyle l.fanned offset part.1 part.2
    outputs := c.outputs
    ordering := .ofCriteria l.root (orders.map (·.2))
    orderColumns := orders.map (·.1) }

lemma plan_of_partitioned (l : Layout) {c : Checked} (h : c.strategy = .partitioned)
    (catalog : Catalog) (scope : Scope.Resolved) (orders : List (Nat × SortOrder)) :
    let p := l.plan catalog c scope orders
    p.joins = l.main.1 ∧ p.predicates = l.main.2 ∧
      p.localAggregates = aggregates l.projections.length l.near ∧
      p.subExpressions = l.far.map fun part =>
        subExpression c.joinStyle l.fanned l.projections.length part.1 part.2 := by
  simp [plan, h]

lemma plan_of_far_nil (l : Layout) (h : l.far = []) (catalog : Catalog) (c : Checked)
    (scope : Scope.Resolved) (orders : List (Nat × SortOrder)) :
    let p := l.plan catalog c scope orders
    p.joins = l.main.1 ∧ p.predicates = l.main.2 ∧
      p.localAggregates = aggregates l.projections.length l.near ∧ p.subExpressions = [] := by
  simp [plan, h]

/-- How a checked query is laid out. -/
structure Of (catalog : Catalog) (c : Checked) (l : Layout) : Prop where
  root : chooseRoot catalog c = .ok (l.root, l.projections)
  parts : partition catalog l.root c = .ok l.parts
  filters : placeFilters catalog l.root c = .ok l.filters

end Layout

/-- A plan is put together from a layout of the checked query. -/
theorem layout_of_compile {catalog : Catalog} {m : Model} {scope : Scope.Resolved}
    {sort : Criteria} {p : Plan} (h : compile catalog m scope sort = .ok p) :
    ∃ c l os, check catalog m = .ok c ∧ Layout.Of catalog c l ∧ orders c c.outputs sort = .ok os ∧
      p = l.plan catalog c scope os := by
  obtain ⟨c, hc, h⟩ := bind_eq_ok.1 h
  obtain ⟨⟨root, projections⟩, hroot, h⟩ := bind_eq_ok.1 h
  obtain ⟨parts, hparts, h⟩ := bind_eq_ok.1 h
  obtain ⟨filters, hfilters, h⟩ := bind_eq_ok.1 h
  obtain ⟨os, hos, h⟩ := bind_eq_ok.1 h
  cases h
  exact ⟨c, ⟨root, projections, parts, filters⟩, os, hc, ⟨hroot, hparts, hfilters⟩, hos, rfl⟩

/-- Compiling where filters are in the order of their entity types already. -/
def compileSorted (catalog : Catalog) (m : Model) (scope : Scope.Resolved) (sort : Criteria) :
    Except Rejection Plan := do
  let c ← check catalog m
  let (root, projections) ← chooseRoot catalog c
  let parts ← partition catalog root c
  let filters ← c.filters.mapM (place catalog root .filter Filter.label)
  let os ← orders c c.outputs sort
  return Layout.plan ⟨root, projections, parts, filters⟩ catalog c scope os

theorem compile_eq_compileSorted {catalog : Catalog} {m : Model}
    (h : (check catalog m).toOption.all fun c =>
      c.filters.Pairwise fun f g => (compare f.entity g.entity).isLE)
    (scope : Scope.Resolved) (sort : Criteria) :
    compile catalog m scope sort = compileSorted catalog m scope sort := by
  unfold compile compileSorted
  cases hc : check catalog m with
  | error e => rfl
  | ok c =>
    rw [hc] at h
    have hsorted := of_decide_eq_true h
    have hplace : ∀ root, placeFilters catalog root c =
        c.filters.mapM (place catalog root .filter Filter.label) := fun root => by
      rw [placeFilters, List.mergeSort_of_pairwise hsorted]
    change (chooseRoot catalog c >>= _) = (chooseRoot catalog c >>= _)
    refine bind_congr fun r => bind_congr fun parts => ?_
    rw [hplace]
    rfl

/-- What a successful check found. -/
structure Checked.Of (catalog : Catalog) (m : Model) (c : Checked) : Prop where
  strategy : c.strategy = m.strategy
  joinStyle : c.joinStyle = m.joinStyle
  root : c.root = m.root
  projections : m.projections.mapM (checkProjection catalog m.involved) = .ok c.projections
  aggregations : m.aggregations.mapM (checkAggregation catalog m.involved) = .ok c.aggregations
  filters : ∃ filters, m.filters.mapM (checkFilter catalog m.involved) = .ok filters ∧
    c.filters = filters.filter fun f => f.use.isActive
  orderings : m.orderings.mapM (checkOrdering catalog m.involved
    (m.projections.map (·.label) ++ m.aggregations.map (·.label))) = .ok c.orderings

theorem of_check {catalog : Catalog} {m : Model} {c : Checked} (h : check catalog m = .ok c) :
    Checked.Of catalog m c := by
  unfold check at h
  split_ifs at h with he
  · cases h
  · obtain ⟨-, -, h⟩ := bind_eq_ok.1 h
    obtain ⟨projections, hp, h⟩ := bind_eq_ok.1 h
    obtain ⟨aggregations, ha, h⟩ := bind_eq_ok.1 h
    obtain ⟨filters, hf, h⟩ := bind_eq_ok.1 h
    obtain ⟨orderings, ho, h⟩ := bind_eq_ok.1 h
    cases h
    exact ⟨rfl, rfl, rfl, hp, ha, ⟨filters, hf, rfl⟩, ho⟩

lemma lookUp_eq_ok {catalog : Catalog} {involved : Query.Involved} {role : Catalog.ColumnRole}
    {label : String} {column : Column} (h : lookUp catalog involved role label = .ok column) :
    catalog.column? label = some column := by
  unfold lookUp at h
  split at h
  · cases h
  · rename_i found hfound
    split_ifs at h
    cases h
    exact hfound

lemma column?_of_checkAggregation {catalog : Catalog} {involved : Query.Involved}
    {a : Aggregation} {f : Found Aggregation} (h : checkAggregation catalog involved a = .ok f) :
    f.use = a ∧ catalog.column? a.label = some f.column := by
  obtain ⟨column, hcolumn, h⟩ := bind_eq_ok.1 h
  split_ifs at h
  cases h
  exact ⟨rfl, lookUp_eq_ok hcolumn⟩

lemma column?_of_checkProjection {catalog : Catalog} {involved : Query.Involved} {p : Projection}
    {f : Found Projection} (h : checkProjection catalog involved p = .ok f) :
    f.use = p ∧ catalog.column? p.label = some f.column := by
  obtain ⟨column, hcolumn, h⟩ := bind_eq_ok.1 h
  split_ifs at h
  cases h
  exact ⟨rfl, lookUp_eq_ok hcolumn⟩

lemma column?_of_checkFilter {catalog : Catalog} {involved : Query.Involved} {f : Filter}
    {x : Found Filter} (h : checkFilter catalog involved f = .ok x) :
    x.use = f ∧ catalog.column? f.label = some x.column := by
  obtain ⟨column, hcolumn, h⟩ := bind_eq_ok.1 h
  split_ifs at h
  cases h
  exact ⟨rfl, lookUp_eq_ok hcolumn⟩

lemma contains_of_column? {catalog : Catalog} (hc : catalog.WellFormed) {label : String}
    {column : Column} (h : catalog.column? label = some column) :
    catalog.forest.contains column.entity := by
  obtain ⟨before, after, he, -⟩ := List.lookup_eq_some_iff.1 h
  exact hc.column (label, column) (he ▸ by simp)

lemma mem_groupFilters {fs : List (Placed Filter)} {g : FannedFilters} (h : g ∈ groupFilters fs) :
    (∃ f ∈ fs, g.entity = f.entity ∧ g.path = f.path) ∧ g.predicates ≠ [] ∧
      ∀ p ∈ g.predicates, ∃ f ∈ fs, f.entity = g.entity ∧ p = .ofFilter f := by
  induction fs generalizing g with
  | nil => simp [groupFilters] at h
  | cons f fs ih =>
    have hself : ∀ p ∈ [Predicate.ofFilter f],
        ∃ x ∈ f :: fs, x.entity = f.entity ∧ p = .ofFilter x := by
      intro p hp
      exact ⟨f, List.mem_cons_self, rfl, List.mem_singleton.1 hp⟩
    have hlater : ∀ g, g ∈ groupFilters fs → (∃ x ∈ f :: fs, g.entity = x.entity ∧ g.path = x.path) ∧
        g.predicates ≠ [] ∧ ∀ p ∈ g.predicates, ∃ x ∈ f :: fs, x.entity = g.entity ∧ p = .ofFilter x := by
      intro g hg
      obtain ⟨⟨x, hx, hxe⟩, hne, hall⟩ := ih hg
      refine ⟨⟨x, List.mem_cons_of_mem _ hx, hxe⟩, hne, fun p hp => ?_⟩
      obtain ⟨y, hy, hye⟩ := hall p hp
      exact ⟨y, List.mem_cons_of_mem _ hy, hye⟩
    unfold groupFilters at h
    split at h
    · obtain rfl := List.mem_singleton.1 h
      exact ⟨⟨f, List.mem_cons_self, rfl, rfl⟩, by simp, hself⟩
    · rename_i g' gs hgs
      split_ifs at h with he
      · rcases List.mem_cons.1 h with rfl | h
        · refine ⟨⟨f, List.mem_cons_self, rfl, rfl⟩, by simp, fun p hp => ?_⟩
          rcases List.mem_cons.1 hp with rfl | hp
          · exact hself _ (by simp)
          · obtain ⟨x, hx, hxe, hpx⟩ := (hlater g' (hgs ▸ List.mem_cons_self)).2.2 p hp
            exact ⟨x, hx, hxe.trans he, hpx⟩
        · exact hlater g (hgs ▸ List.mem_cons_of_mem _ h)
      · rcases List.mem_cons.1 h with rfl | h
        · exact ⟨⟨f, List.mem_cons_self, rfl, rfl⟩, by simp, hself⟩
        · exact hlater g (hgs ▸ h)

/-- Every column of a layout lies at the end of its path from the root, and aggregations are in parts
by the way in which these paths multiply rows. -/
structure Layout.Sound (catalog : Catalog) (l : Layout) : Prop where
  root : catalog.forest.contains l.root
  projection : ∀ x ∈ l.projections, catalog.path? l.root x.entity = some x.path ∧ x.key.isRoot
  part : ∀ e ∈ l.parts.entries, e.2 ≠ [] ∧
    ∀ a ∈ e.2, catalog.path? l.root a.2.entity = some a.2.path ∧ a.2.key = e.1
  filter : ∀ f ∈ l.filters, catalog.path? l.root f.entity = some f.path

lemma contains_root {catalog : Catalog} {m : Model} {c : Checked} {root : EntityType}
    {projections : List (Placed Projection)} (hc : catalog.WellFormed)
    (hm : Checked.Of catalog m c) (h : chooseRoot catalog c = .ok (root, projections)) :
    catalog.forest.contains root := by
  have hplaced := path?_of_chooseRoot h
  cases hroot : c.root with
  | some named => exact ((chooseRoot_named hroot).1 h).2.1
  | none =>
    cases hp : c.projections with
    | nil =>
      obtain ⟨⟨f, fs, hf, rfl⟩, -⟩ := (chooseRoot_aggregated hroot hp).1 h
      obtain ⟨a, -, ha⟩ := exists_of_mem_mapM hm.aggregations (hf ▸ List.mem_cons_self : f ∈ c.aggregations)
      exact contains_of_column? hc (column?_of_checkAggregation ha).2
    | cons f fs =>
      obtain ⟨x, -, hx⟩ := exists_mem_of_mapM hplaced (hp ▸ List.mem_cons_self : f ∈ c.projections)
      exact (Catalog.contains_of_path? (path?_of_placeProjection hx).2.2.1).1

theorem Layout.Of.sound {catalog : Catalog} {m : Model} {c : Checked} {l : Layout}
    (hc : catalog.WellFormed) (hm : Checked.Of catalog m c) (h : Layout.Of catalog c l) :
    l.Sound catalog where
  root := contains_root hc hm h.root
  projection x hx := by
    obtain ⟨f, -, hf⟩ := exists_of_mem_mapM (path?_of_chooseRoot h.root) hx
    exact (path?_of_placeProjection hf).2.2
  part e he := by
    obtain ⟨placed, hplaced, hparts, -⟩ := partition_eq_ok.1 h.parts
    rw [hparts] at he
    obtain ⟨hne, hall⟩ := mem_partsOf he
    refine ⟨hne, fun a ha => ⟨?_, (hall a ha).1⟩⟩
    have hmem := List.mem_of_getElem? (hall a ha).2
    obtain ⟨f, -, hf⟩ := exists_of_mem_mapM hplaced hmem
    exact (path?_of_place hf).2.2
  filter f hf := by
    obtain ⟨g, -, hg⟩ := exists_of_mem_mapM h.filters hf
    exact (path?_of_place hg).2.2

/-- Every plan is put together from a sound layout of its query. -/
theorem exists_layout {catalog : Catalog} {m : Model} {scope : Scope.Resolved} {sort : Criteria}
    {p : Plan} (hc : catalog.WellFormed) (h : compile catalog m scope sort = .ok p) :
    ∃ c l os, Checked.Of catalog m c ∧ Layout.Of catalog c l ∧ l.Sound catalog ∧
      orders c c.outputs sort = .ok os ∧ p = l.plan catalog c scope os := by
  obtain ⟨c, l, os, hcheck, hl, hos, hp⟩ := layout_of_compile h
  have hm := of_check hcheck
  exact ⟨c, l, os, hm, hl, hl.sound hc hm, hos, hp⟩

lemma joinKind_of_compile {catalog : Catalog} {m : Model} {scope : Scope.Resolved} {sort : Criteria}
    {p : Plan} (hp : compile catalog m scope sort = .ok p) :
    ∀ s ∈ p.subExpressions, s.joinKind = joinKind m.joinStyle := by
  obtain ⟨c, l, os, hcheck, -, -, rfl⟩ := layout_of_compile hp
  intro s hs
  simp only [Layout.plan] at hs
  split_ifs at hs
  · simp at hs
  · obtain ⟨e, -, rfl⟩ := List.mem_map.1 hs
    rw [← (of_check hcheck).joinStyle]
    rfl

lemma joinKind_of_outer {catalog : Catalog} {m : Model} {scope : Scope.Resolved} {sort : Criteria}
    {p : Plan} (hp : compile catalog m scope sort = .ok p) (ho : m.joinStyle = .outer) :
    ∀ s ∈ p.subExpressions, s.joinKind = .left := fun s hs => by
  rw [joinKind_of_compile hp s hs, ho]
  rfl

end Tabulation.Plan
