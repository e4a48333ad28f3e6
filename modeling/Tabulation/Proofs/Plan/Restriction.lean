import Tabulation.Catalog.TestManagement
import Tabulation.Proofs.Ordered
import Tabulation.Proofs.Plan.Acceptance
import Tabulation.Proofs.Plan.ActiveFilters
import Tabulation.Query.Restriction

/-! Restrictions only filter. A query that can be compiled can be compiled under restrictions, too, and the
plan has the same root, groups, aggregates and order. -/
namespace Tabulation
open Catalog (Column)
open Outcome

namespace Query

namespace Involved

variable {i : Involved} {role role' : EntityRole} {entity entity' : EntityType}

lemma get?_set {entities : OrderedSet EntityType} :
    (i.set role entities).get? role' = if role' = role then some entities else i.get? role' := by
  cases role <;> cases role' <;> rfl

/-- To involve an entity type takes nothing away. -/
lemma contains_add : (i.add role entity).contains role' entity' ↔
    (role' = role ∧ entity' = entity) ∨ i.contains role' entity' := by
  unfold add contains
  rw [get?_set]
  split_ifs with hrole
  · subst hrole
    cases i.get? role' with
    | none =>
      have hnone : (∅ : OrderedSet EntityType).toList = [] := rfl
      simp [OrderedSet.contains, OrderedSet.mem_insert, hnone]
    | some entities => simp [OrderedSet.contains, OrderedSet.mem_insert]
  · simp [hrole]

end Involved

namespace Restriction

/-- The column that a restriction filters: none without a column for the workspace, without that column in
the catalog, or without values. -/
def column? (r : Restriction) (catalog : Catalog) : Option Column :=
  if r.limit.values.isEmpty then none else (r.limit.columnLabel r.workspace).bind catalog.column?

/-- A filter that says what a restriction says. -/
structure Says (r : Restriction) (f : Filter) : Prop where
  label : r.limit.columnLabel r.workspace = some f.label
  operation : f.operation = r.limit.operation
  values : f.values = r.limit.values

/-- The column of a restriction, if it has one, may be filtered in queries with this root. -/
def Applies (catalog : Catalog) (root : EntityType) (r : Restriction) : Prop :=
  ∀ column ∈ r.column? catalog, column.supports .filter ∧ (catalog.path? root column.entity).isSome

instance (catalog : Catalog) (root : EntityType) : DecidablePred (Applies catalog root) := fun r =>
  inferInstanceAs (Decidable (∀ column ∈ r.column? catalog,
    column.supports .filter ∧ (catalog.path? root column.entity).isSome))

variable {r : Restriction} {catalog : Catalog} {column : Column}

lemma filter?_eq_none (h : r.column? catalog = none) : r.filter? catalog = none := by
  unfold column? at h
  unfold filter?
  cases hlabel : r.limit.columnLabel r.workspace with
  | none => rfl
  | some label => cases hcolumn : catalog.column? label <;> simp_all

lemma exists_filter? (h : r.column? catalog = some column) : ∃ f : Filter,
    r.filter? catalog = some (f, column.entity) ∧ r.Says f ∧ catalog.column? f.label = some column := by
  unfold column? at h
  split_ifs at h with hvalues
  obtain ⟨label, hlabel, hcolumn⟩ := Option.bind_eq_some_iff.1 h
  refine ⟨⟨label, r.limit.operation, r.limit.values⟩, ?_, ⟨hlabel, rfl, rfl⟩, hcolumn⟩
  simp [filter?, hlabel, hcolumn, hvalues]

/-- A restriction says one thing only. -/
lemma Says.eq {f : Filter} {label : String} (h : r.Says f)
    (hlabel : r.limit.columnLabel r.workspace = some label) :
    f = ⟨label, r.limit.operation, r.limit.values⟩ := by
  obtain ⟨hf, hoperation, hvalues⟩ := h
  cases f
  rw [Option.some.inj (hlabel.symm.trans hf)]
  simp_all

/-- The filter of a restriction fits its column, of whatever kind that is. -/
lemma Says.fits {f : Filter} (h : r.Says f) : f.operation ≠ .like ∧
    f.operation.isOrderedComparison = false ∧
    (f.isActive → f.operation.acceptsArity f.values.length) := by
  obtain ⟨-, hoperation, hf⟩ := h
  cases hlimit : r.limit with
  | milestone id => simp [hoperation, hf, hlimit, Limit.operation, Limit.values,
      Operation.isOrderedComparison, Operation.acceptsArity]
  | projects ids =>
    refine ⟨by simp [hoperation, hlimit, Limit.operation], ?_, fun hactive => ?_⟩
    · simp [hoperation, hlimit, Limit.operation, Operation.isOrderedComparison]
    · have hsome : 1 ≤ f.values.length := List.length_pos_iff.2 (by simpa [Filter.isActive] using hactive)
      simpa [hoperation, hlimit, Limit.operation, Operation.acceptsArity] using hsome

end Restriction

/-- The restrictions that have a column to filter. -/
def contributing (catalog : Catalog) (rs : List Restriction) : List Restriction :=
  rs.filter fun r => (r.column? catalog).isSome

namespace Model

variable {catalog : Catalog} {m : Model} {r : Restriction} {column : Column}

/-- A query with further filters behind its own, on entity types that are involved for it. -/
structure Filtered (catalog : Catalog) (m : Model) (fs : List Filter) (m' : Model) : Prop where
  body : m' = { m with filters := m.filters ++ fs, involved := m'.involved }
  involved : ∀ role entity, m.involved.contains role entity → m'.involved.contains role entity
  filtered : ∀ f ∈ fs, ∀ column, catalog.column? f.label = some column →
    m'.involved.contains .filter column.entity

lemma Filtered.refl (catalog : Catalog) (m : Model) : m.Filtered catalog [] m :=
  ⟨by rw [List.append_nil], fun _ _ h => h, fun f hf => absurd hf List.not_mem_nil⟩

lemma apply_eq_self (h : r.column? catalog = none) (m : Model) : r.apply catalog m = m := by
  rw [Restriction.apply, Restriction.filter?_eq_none h]

/-- A restriction with a column adds one filter. -/
lemma Filtered.apply {fs : List Filter} {m' : Model} (h : m.Filtered catalog fs m')
    (hr : r.column? catalog = some column) :
    ∃ f, r.Says f ∧ m.Filtered catalog (fs ++ [f]) (r.apply catalog m') := by
  obtain ⟨f, hf, hsays, hcolumn⟩ := Restriction.exists_filter? hr
  have happly : r.apply catalog m' =
      { m' with filters := m'.filters ++ [f], involved := m'.involved.add .filter column.entity } := by
    rw [Restriction.apply, hf]
  have hinvolved : (r.apply catalog m').involved = m'.involved.add .filter column.entity := by rw [happly]
  refine ⟨f, hsays, ?_, fun role entity hm => ?_, fun g hg found hfound => ?_⟩
  · rw [happly, h.body, List.append_assoc]
  · rw [hinvolved, Involved.contains_add]
    exact .inr (h.involved role entity hm)
  · rw [hinvolved, Involved.contains_add]
    rcases List.mem_append.1 hg with hg | hg
    · exact .inr (h.filtered g hg found hfound)
    · rw [List.mem_singleton.1 hg, hcolumn] at hfound
      exact .inl ⟨rfl, congrArg Column.entity (Option.some.inj hfound).symm⟩

/-- Restrictions add one filter for each of them that has a column, the innermost first. -/
theorem exists_filtered (catalog : Catalog) (m : Model) (rs : List Restriction) : ∃ fs : List Filter,
    List.Forall₂ Restriction.Says (contributing catalog rs) fs ∧
      m.Filtered catalog fs (m.restrict catalog rs) := by
  induction rs using List.reverseRecOn with
  | nil => exact ⟨[], .nil, .refl catalog m⟩
  | append_singleton rs r ih =>
    obtain ⟨fs, hsays, hfiltered⟩ := ih
    have hlast : m.restrict catalog (rs ++ [r]) = r.apply catalog (m.restrict catalog rs) := by
      rw [restrict, List.foldl_append]
      rfl
    have hfilter : contributing catalog (rs ++ [r]) =
        contributing catalog rs ++ contributing catalog [r] := List.filter_append ..
    rw [hlast, hfilter]
    cases hr : r.column? catalog with
    | none =>
      refine ⟨fs, ?_, by rwa [apply_eq_self hr]⟩
      simpa [contributing, hr] using hsays
    | some column =>
      obtain ⟨f, hf, happlied⟩ := hfiltered.apply hr
      refine ⟨fs ++ [f], List.rel_append hsays ?_, happlied⟩
      simpa [contributing, hr] using hf

lemma restrict_eq_self {rs : List Restriction} (h : ∀ r ∈ rs, r.column? catalog = none) :
    m.restrict catalog rs = m :=
  List.foldlRecOn rs _ (motive := (· = m)) rfl fun m' hm' r hr => by rw [hm', apply_eq_self (h r hr)]

end Model

end Query

open Query (Model Filter Restriction contributing)

namespace Plan

variable {catalog : Catalog} {m m' : Model} {fs : List Filter} {root : EntityType}
  {scope : Scope.Resolved} {sort : Sorting.Criteria} {p p' : Plan}

lemma RootOf.filtered (h : RootOf catalog m root) (hm : m.Filtered catalog fs m') :
    RootOf catalog m' root := by
  rw [hm.body]
  cases h with
  | named hroot known reaches => exact .named hroot known reaches
  | projected hroot first => exact .projected hroot first
  | aggregated hroot hprojections haggregations entity =>
    exact .aggregated hroot hprojections haggregations entity

lemma Surrounds.filtered (h : Surrounds catalog m root) (hm : m.Filtered catalog fs m')
    (hfs : ∀ f ∈ fs, (catalog.labelKey? root f.label).isSome) : Surrounds catalog m' root := by
  rw [hm.body]
  refine ⟨h.aggregation, fun f hf hactive => ?_, h.flat⟩
  rcases List.mem_append.1 hf with hf | hf
  · exact h.filter f hf hactive
  · exact hfs f hf

lemma Usable.mono {involved involved' : Query.Involved} {role : Catalog.ColumnRole} {label : String}
    {column : Column} (hinvolved : ∀ role entity, involved.contains role entity → involved'.contains role entity)
    (h : Usable catalog involved role label column) : Usable catalog involved' role label column := by
  refine ⟨h.named, h.supports, ?_⟩
  have htakes := h.takesPart
  cases role with
  | projection => exact hinvolved _ _ htakes
  | aggregation => exact hinvolved _ _ htakes
  | filter => exact hinvolved _ _ htakes
  | ordering => exact htakes.imp (hinvolved _ _) (hinvolved _ _)

/-- A query stays as it is for the check when filters are added that fit. -/
lemma Checkable.filtered (h : Checkable catalog m) (hm : m.Filtered catalog fs m')
    (hfs : ∀ f ∈ fs, ∃ column, catalog.column? f.label = some column ∧ column.supports .filter ∧
      f.operation ≠ .like ∧ f.operation.isOrderedComparison = false ∧
      (f.isActive → f.operation.acceptsArity f.values.length)) : Checkable catalog m' := by
  have hmono : ∀ role label column, Usable catalog m.involved role label column →
      Usable catalog m'.involved role label column := fun role label column => Usable.mono hm.involved
  have hfiltered := hm.filtered
  rw [hm.body] at hmono hfiltered ⊢
  refine ⟨h.nonempty, fun x hx => ?_, fun a ha => ?_, fun f hf => ?_, fun o ho => ?_⟩
  · exact (h.projection x hx).imp fun column => .imp_left (hmono _ _ _)
  · exact (h.aggregation a ha).imp fun column => .imp_left (hmono _ _ _)
  · rcases List.mem_append.1 hf with hf | hf
    · exact (h.filter f hf).imp fun column => .imp_left (hmono _ _ _)
    · obtain ⟨column, hnamed, hsupports, hlike, hordered, harity⟩ := hfs f hf
      refine ⟨column, ⟨hnamed, hsupports, hfiltered f hf column hnamed⟩, fun h => absurd h hlike, ?_, harity⟩
      simp [hordered]
  · exact (h.ordering o ho).imp fun column => .imp_left (hmono _ _ _)

/-- The same aggregates for the same way of multiplying rows. -/
structure SubExpression.SameAggregates (s s' : SubExpression) : Prop where
  key : s'.key = s.key
  joinKind : s'.joinKind = s.joinKind
  aggregates : s'.aggregates = s.aggregates

/-- Plans that differ at most in joins and conditions on rows. -/
structure SameFrame (p p' : Plan) : Prop where
  root : p'.root = p.root
  rootAlias : p'.rootAlias = p.rootAlias
  rootKey : p'.rootKey = p.rootKey
  scope : p'.scope = p.scope
  groupKeys : p'.groupKeys = p.groupKeys
  localAggregates : p'.localAggregates = p.localAggregates
  subExpressions : List.Forall₂ SubExpression.SameAggregates p.subExpressions p'.subExpressions
  outputs : p'.outputs = p.outputs
  ordering : p'.ordering = p.ordering
  orderColumns : p'.orderColumns = p.orderColumns

lemma Layout.sameFrame_plan (l : Layout) (c : Checked) (gs : List (Found Filter)) (hs : List (Placed Filter))
    (scope : Scope.Resolved) (os : List (Nat × Sorting.SortOrder)) :
    SameFrame (l.plan catalog c scope os)
      (Layout.plan { l with filters := hs } catalog { c with filters := gs } scope os) := by
  refine ⟨rfl, rfl, rfl, rfl, rfl, rfl, ?_, rfl, rfl, rfl⟩
  simp only [Layout.plan]
  split_ifs
  · exact .nil
  · rw [List.forall₂_map_left_iff, List.forall₂_map_right_iff]
    exact List.forall₂_same.2 fun part _ => ⟨rfl, rfl, rfl⟩

/-- Filters that are added leave the frame of a plan as it is. -/
theorem sameFrame_of_filtered (hm : m.Filtered catalog fs m') (hp : compile catalog m scope sort = .ok p)
    (hp' : compile catalog m' scope sort = .ok p') : p.SameFrame p' := by
  rw [hm.body] at hp'
  obtain ⟨c, gs, l, l', os, -, -, hl, hl', rfl, rfl⟩ := exists_layouts hp hp'
  rw [hl.withFilters hl']
  exact l.sameFrame_plan c gs l'.filters scope os

/-- Restrictions on columns that may be filtered only add their filters: the query still compiles, to a
plan with the same frame, and without such columns to the very same plan. -/
theorem restrictions_only_filter {rs : List Restriction} (hp : compile catalog m scope sort = .ok p)
    (hrs : ∀ r ∈ rs, r.Applies catalog p.root) :
    (∃ p', compile catalog (m.restrict catalog rs) scope sort = .ok p' ∧ p.SameFrame p') ∧
    (∃ fs, (m.restrict catalog rs).filters = m.filters ++ fs ∧
      List.Forall₂ Restriction.Says (contributing catalog rs) fs) ∧
    ((∀ r ∈ rs, r.column? catalog = none) → compile catalog (m.restrict catalog rs) scope sort = .ok p) := by
  obtain ⟨fs, hsays, hm⟩ := m.exists_filtered catalog rs
  refine ⟨?_, ⟨fs, by rw [hm.body], hsays⟩, fun hnone => by rwa [Model.restrict_eq_self hnone]⟩
  have haccepted := (compiles_iff_acceptable catalog m scope sort).1 ⟨p, hp⟩
  obtain ⟨c, l, os, hc, hl, -, rfl⟩ := layout_of_compile hp
  obtain ⟨hroot, haround⟩ := hl.rooted (of_check hc)
  -- the column of every filter that is added
  have hfs : ∀ f ∈ fs, ∃ r : Restriction, r.Says f ∧ ∃ column, catalog.column? f.label = some column ∧
      column.supports .filter ∧ (catalog.path? l.root column.entity).isSome := by
    intro f hf
    obtain ⟨r, hr, hrf⟩ := exists_of_mem_forall₂ hsays hf
    obtain ⟨hmem, hsome⟩ := List.mem_filter.1 hr
    obtain ⟨column, hcolumn⟩ := Option.isSome_iff_exists.1 hsome
    obtain ⟨g, -, hg, hnamed⟩ := Restriction.exists_filter? hcolumn
    have hlabel : g.label = f.label := Option.some.inj (hg.label.symm.trans hrf.label)
    exact ⟨r, hrf, column, hlabel ▸ hnamed, hrs r hmem column hcolumn⟩
  have hacceptable : Acceptable catalog (m.restrict catalog rs) sort := by
    refine ⟨haccepted.toCheckable.filtered hm fun f hf => ?_, ⟨l.root, hroot.filtered hm, ?_⟩, ?_⟩
    · obtain ⟨r, hrf, column, hnamed, hsupports, -⟩ := hfs f hf
      exact ⟨column, hnamed, hsupports, hrf.fits⟩
    · refine haround.filtered hm fun f hf => ?_
      obtain ⟨r, -, column, hnamed, -, hpath⟩ := hfs f hf
      rw [Catalog.labelKey?_eq hnamed, Catalog.fanOutKey?]
      simpa using hpath
    · rw [hm.body]
      exact haccepted.sortable
  obtain ⟨p', hp'⟩ := (compiles_iff_acceptable catalog _ scope sort).2 hacceptable
  exact ⟨p', hp', sameFrame_of_filtered hm hp hp'⟩

/-- The executions of each campaign, of the campaigns in a project and the test cases in a milestone. Home
has no milestones, and no projects are no restriction. -/
theorem restrictions_only_filter_campaigns :
    let m : Model := {
      involved := { axis := some (.ofList ["Campaign"]), measure := some (.ofList ["Execution"]) }
      projections := [⟨"CAMPAIGN_NAME", none⟩]
      aggregations := [⟨"EXECUTION_ID", .count⟩] }
    let rs : List Restriction := [⟨.projects [7], .campaign⟩, ⟨.milestone 3, .home⟩, ⟨.milestone 3, .testCase⟩,
      ⟨.projects [], .campaign⟩]
    ∃ catalog p p', Catalog.TestManagement.catalog = .ok catalog ∧
      compile catalog m .unrestricted [] = .ok p ∧
      compile catalog (m.restrict catalog rs) .unrestricted [] = .ok p' ∧ p.SameFrame p' ∧
      (p.semiJoins = [] ∧ p'.semiJoins.map (·.target) = ["TestCase"]) ∧
      (m.restrict catalog rs).filters =
        [⟨"CAMPAIGN_PROJECT_ID", .oneOf, [.ofInt64 7]⟩, ⟨"TEST_CASE_MILESTONE_ID", .equals, [.ofInt64 3]⟩] ∧
      compile catalog (m.restrict catalog [⟨.milestone 3, .home⟩]) .unrestricted [] = .ok p := by
  intro m rs
  let sorted (m : Model) (catalog : Catalog) : Bool := (check catalog m).toOption.all fun c =>
    c.filters.Pairwise fun f g => (compare f.entity g.entity).isLE
  let home : Restriction := ⟨.milestone 3, .home⟩
  obtain ⟨catalog, hcatalog, h⟩ : ∃ catalog, Catalog.TestManagement.catalog = .ok catalog ∧
      (sorted (m.restrict catalog rs) catalog &&
        decide (contributing catalog rs = [⟨.projects [7], .campaign⟩, ⟨.milestone 3, .testCase⟩] ∧
          ∀ r ∈ [home], r.column? catalog = none) &&
        (compile catalog m .unrestricted []).toOption.any (fun p =>
          decide (p.semiJoins = [] ∧ ∀ r ∈ home :: rs, r.Applies catalog p.root)) &&
        (compileSorted catalog (m.restrict catalog rs) .unrestricted []).toOption.any fun q =>
          decide (q.semiJoins.map (·.target) = ["TestCase"])) :=
    exists_of_any (by decide +kernel)
  simp only [Bool.and_eq_true, decide_eq_true_eq] at h
  obtain ⟨⟨⟨hsorted, hcontributing, hnone⟩, hplain⟩, hrestricted⟩ := h
  obtain ⟨p, hp, h⟩ := exists_of_any hplain
  obtain ⟨hsemi, happlies⟩ := of_decide_eq_true h
  obtain ⟨hhome, hrs⟩ := List.forall_mem_cons.1 happlies
  obtain ⟨q, hq, hqsemi⟩ := exists_of_any hrestricted
  have hq := (compile_eq_compileSorted hsorted _ _).trans hq
  obtain ⟨⟨p', hp', hframe⟩, ⟨fs, hfilters, hsays⟩, -⟩ := restrictions_only_filter hp hrs
  obtain rfl := Except.ok.inj (hp'.symm.trans hq)
  have hhomes : ∀ r ∈ [home], r.Applies catalog p.root := List.forall_mem_singleton.2 hhome
  obtain ⟨-, -, hunrestricted⟩ := restrictions_only_filter hp hhomes
  rw [hcontributing] at hsays
  obtain ⟨f, _, hf, hrest, rfl⟩ := List.forall₂_cons_left_iff.1 hsays
  obtain ⟨g, _, hg, hnil, rfl⟩ := List.forall₂_cons_left_iff.1 hrest
  obtain rfl := List.forall₂_nil_left_iff.1 hnil
  refine ⟨catalog, p, p', hcatalog, hp, hp', hframe, ⟨hsemi, of_decide_eq_true hqsemi⟩, ?_, hunrestricted hnone⟩
  rw [hfilters, hf.eq rfl, hg.eq rfl]
  rfl

end Plan
end Tabulation
