import Tabulation.Proofs.Plan.Addition
import Tabulation.Proofs.Plan.Checking

/-! Which queries compile: those that pass the check, have a root, and whose other columns and sort
criteria then fit it. -/
namespace Tabulation
open Catalog (FanOutKey)
open Query (Model Projection Aggregation Filter)
open Sorting (Criteria SortOrder)
open Outcome

/-- The entity type of a labelled column. -/
def Catalog.labelEntity? (catalog : Catalog) (label : String) : Option EntityType :=
  (catalog.column? label).map (·.entity)

namespace Query.Model

/-- From the root, no projection fans out. -/
def Reaches (catalog : Catalog) (m : Model) (root : EntityType) : Prop :=
  ∀ p ∈ m.projections, catalog.labelKey? root p.label = some ⟨[]⟩

instance (catalog : Catalog) (m : Model) : DecidablePred (m.Reaches catalog) := fun root =>
  inferInstanceAs (Decidable (∀ p ∈ m.projections, catalog.labelKey? root p.label = some ⟨[]⟩))

end Query.Model

namespace Plan

/-- The entity type that is the root of a query. -/
inductive RootOf (catalog : Catalog) (m : Model) : EntityType → Prop
  | named {root : EntityType} (hroot : m.root = some root) (known : catalog.forest.contains root)
      (reaches : m.Reaches catalog root) : RootOf catalog m root
  /-- The first projected entity type from which no projection fans out. -/
  | projected {root : EntityType} (hroot : m.root = none)
      (first : (m.projections.filterMap fun p => catalog.labelEntity? p.label).find?
        (m.Reaches catalog ·) = some root) : RootOf catalog m root
  | aggregated {a : Aggregation} {as : List Aggregation} {root : EntityType} (hroot : m.root = none)
      (hprojections : m.projections = []) (haggregations : m.aggregations = a :: as)
      (entity : catalog.labelEntity? a.label = some root) : RootOf catalog m root

/-- Aggregations and active filters are connected to the root, in one way if the plan is flat. -/
structure Surrounds (catalog : Catalog) (m : Model) (root : EntityType) : Prop where
  aggregation : ∀ a ∈ m.aggregations, (catalog.labelKey? root a.label).isSome
  filter : ∀ f ∈ m.filters, f.isActive → (catalog.labelKey? root f.label).isSome
  flat : m.strategy = .flat → ∀ a ∈ m.aggregations, ∀ b ∈ m.aggregations,
    catalog.labelKey? root a.label = catalog.labelKey? root b.label

/-- A query that can be planned, in an order by columns that it has. -/
structure Acceptable (catalog : Catalog) (m : Model) (sort : Criteria) : Prop
    extends Checkable catalog m where
  rooted : ∃ root, RootOf catalog m root ∧ Surrounds catalog m root
  sortable : ∀ o ∈ sort, (∃ p ∈ m.projections, p.label = o.property) ∨
    ∃ a ∈ m.aggregations, a.outputName = o.property ∨ a.label = o.property

variable {catalog : Catalog} {m : Model} {c : Checked} {root : EntityType}

namespace Finds

variable {α : Type} {label : α → String} {xs : List α} {fs : List (Found α)}

lemma entities (h : Finds catalog label xs fs) :
    xs.filterMap (fun x => catalog.labelEntity? (label x)) = fs.map Found.entity := by
  induction h with
  | nil => rfl
  | @cons x f xs fs hf _ ih =>
    have hentity : catalog.labelEntity? (label x) = some f.entity := by
      rw [Catalog.labelEntity?, hf.2]
      rfl
    rw [List.filterMap_cons, hentity, ih, List.map_cons]

/-- What holds of the keys of labels holds of those of the columns. -/
lemma forall_key (h : Finds catalog label xs fs) (root : EntityType) (P : Option FanOutKey → Prop) :
    (∀ f ∈ fs, P (catalog.fanOutKey? root f.entity)) ↔
      ∀ x ∈ xs, P (catalog.labelKey? root (label x)) := by
  induction h with
  | nil => simp
  | @cons x f xs fs hf _ ih =>
    rw [List.forall_mem_cons, List.forall_mem_cons, ih, Catalog.labelKey?_eq hf.2]
    rfl

end Finds

lemma exists_placeProjections_iff (hm : Checked.Of catalog m c) (root : EntityType) :
    (∃ placed, c.projections.mapM (placeProjection catalog root) = .ok placed) ↔
      m.Reaches catalog root := by
  rw [exists_mapM_eq_ok, Model.Reaches]
  simp only [exists_placeProjection_iff]
  exact hm.finds_projections.forall_key root fun key => key = some ⟨[]⟩

/-- Of candidates the first one is taken from which no projection fans out. -/
lemma exists_placedFrom_iff (hm : Checked.Of catalog m c) (es : List EntityType) :
    (∃ placed, es.findSome? (placedFrom catalog c) = some (root, placed)) ↔
      es.find? (m.Reaches catalog ·) = some root :=
  exists_findSome?_placedFrom fun e _ => (exists_placeProjections_iff hm e).trans decide_eq_true_iff.symm

lemma rootOf_iff (hroot : m.root = none) : RootOf catalog m root ↔
    (m.projections.filterMap fun p => catalog.labelEntity? p.label).find?
        (m.Reaches catalog ·) = some root ∨
      m.projections = [] ∧ ∃ a as, m.aggregations = a :: as ∧ catalog.labelEntity? a.label = some root := by
  constructor
  · rintro (⟨h, -⟩ | ⟨-, h⟩ | ⟨-, hprojections, haggregations, h⟩)
    · simp [hroot] at h
    · exact .inl h
    · exact .inr ⟨hprojections, _, _, haggregations, h⟩
  · rintro (h | ⟨hprojections, a, as, haggregations, h⟩)
    · exact .projected hroot h
    · exact .aggregated hroot hprojections haggregations h

theorem exists_chooseRoot_iff (hm : Checked.Of catalog m c) :
    (∃ placed, chooseRoot catalog c = .ok (root, placed)) ↔ RootOf catalog m root := by
  have hprojections := hm.finds_projections
  cases hroot : m.root with
  | some named =>
    simp only [chooseRoot_named (hm.root.trans hroot), exists_and_left, exists_placeProjections_iff hm]
    constructor
    · rintro ⟨rfl, hknown, hreaches⟩
      exact .named hroot hknown hreaches
    · rintro (⟨h, hknown, hreaches⟩ | ⟨h, -⟩ | ⟨h, -⟩)
      · exact ⟨Option.some.inj (hroot.symm.trans h), hknown, hreaches⟩
      · simp [hroot] at h
      · simp [hroot] at h
  | none =>
    rw [rootOf_iff hroot, hprojections.entities]
    by_cases hc : c.projections = []
    · have hnil : m.projections = [] := by rw [← hprojections.map_use, hc, List.map_nil]
      have haggregations := hm.finds_aggregations
      simp only [chooseRoot_aggregated (hm.root.trans hroot) hc, hc, hnil, List.map_nil, List.find?_nil,
        reduceCtorEq, false_or, true_and, exists_and_left, exists_eq, and_true]
      cases hfound : c.aggregations with
      | nil =>
        rw [hfound, Finds, List.forall₂_nil_right_iff] at haggregations
        simp [haggregations]
      | cons f fs =>
        rw [hfound, Finds, List.forall₂_cons_right_iff] at haggregations
        obtain ⟨a, as, ⟨-, hcolumn⟩, -, ha⟩ := haggregations
        simp [ha, Catalog.labelEntity?, hcolumn, Found.entity]
    · have hsome : m.projections ≠ [] := by simpa [← hprojections.map_use] using hc
      simp only [chooseRoot_projected (hm.root.trans hroot) hc, exists_placedFrom_iff hm, find?_distinct,
        hsome, false_and, or_false]

lemma exists_placeAggregations_iff (hm : Checked.Of catalog m c) :
    (∃ placed, c.aggregations.mapM (place catalog root .aggregation Aggregation.label) = .ok placed) ↔
      ∀ a ∈ m.aggregations, (catalog.labelKey? root a.label).isSome := by
  rw [exists_mapM_eq_ok, ← hm.finds_aggregations.forall_key root fun key => key.isSome]
  simp only [exists_place_iff]

lemma size_partsOf_iff (hm : Checked.Of catalog m c) {placed : List (Placed Aggregation)}
    (h : c.aggregations.mapM (place catalog root .aggregation Aggregation.label) = .ok placed) :
    (partsOf placed).size ≤ 1 ↔ ∀ a ∈ m.aggregations, ∀ b ∈ m.aggregations,
      catalog.labelKey? root a.label = catalog.labelKey? root b.label := by
  have hfinds := hm.finds_aggregations
  have hkeys : (∀ a ∈ placed, ∀ b ∈ placed, a.key = b.key) ↔
      ∀ key ∈ placed.map (fun x => some x.key), ∀ key' ∈ placed.map (fun x => some x.key), key = key' := by
    simp
  rw [size_partsOf_le_one, hkeys, keys_of_place h]
  simp only [List.forall_mem_map]
  rw [hfinds.forall_key root fun key => ∀ g ∈ c.aggregations, key = catalog.fanOutKey? root g.entity]
  exact forall₂_congr fun a _ => hfinds.forall_key root fun key => catalog.labelKey? root a.label = key

theorem exists_partition_iff (hm : Checked.Of catalog m c) :
    (∃ parts, partition catalog root c = .ok parts) ↔
      (∀ a ∈ m.aggregations, (catalog.labelKey? root a.label).isSome) ∧
        (m.strategy = .flat → ∀ a ∈ m.aggregations, ∀ b ∈ m.aggregations,
          catalog.labelKey? root a.label = catalog.labelKey? root b.label) := by
  simp only [partition_eq_ok, ← hm.strategy, ← exists_placeAggregations_iff hm]
  constructor
  · rintro ⟨parts, placed, hplaced, rfl, hflat⟩
    exact ⟨⟨placed, hplaced⟩, fun hs => (size_partsOf_iff hm hplaced).1 (hflat hs)⟩
  · rintro ⟨⟨placed, hplaced⟩, hflat⟩
    exact ⟨_, placed, hplaced, rfl, fun hs => (size_partsOf_iff hm hplaced).2 (hflat hs)⟩

theorem exists_placeFilters_iff (hm : Checked.Of catalog m c) :
    (∃ filters, placeFilters catalog root c = .ok filters) ↔
      ∀ f ∈ m.filters, f.isActive → (catalog.labelKey? root f.label).isSome := by
  unfold placeFilters
  rw [exists_mapM_eq_ok]
  simp only [List.mem_mergeSort, exists_place_iff]
  rw [hm.finds_filters.forall_key root fun key => key.isSome]
  simp only [List.mem_filter, and_imp]

lemma exists_sortColumn_iff {outputs : List Output} {o : SortOrder} :
    (∃ x, sortColumn outputs o = .ok x) ↔
      ∃ x ∈ outputs, x.name = o.property ∨ x.label = o.property := by
  have hplace : ((outputs.findIdx? fun x => x.name = o.property).or
      (outputs.findIdx? fun x => x.label = o.property)).isSome ↔
        ∃ x ∈ outputs, x.name = o.property ∨ x.label = o.property := by
    simp [Option.isSome_or, List.findIdx?_isSome, and_or_left, exists_or]
  rw [← hplace]
  unfold sortColumn
  split
  · rename_i h
    simp [h]
  · rename_i h
    simp [h]

theorem exists_orders_iff (hm : Checked.Of catalog m c) {sort : Criteria} :
    (∃ os, orders c c.outputs sort = .ok os) ↔ ∀ o ∈ sort,
      (∃ p ∈ m.projections, p.label = o.property) ∨
        ∃ a ∈ m.aggregations, a.outputName = o.property ∨ a.label = o.property := by
  have hmapped : (∃ os, orders c c.outputs sort = .ok os) ↔
      ∃ places, sort.mapM (sortColumn c.outputs) = .ok places := by
    unfold orders
    rw [exists_bind_eq_ok]
    simp [pure, Except.pure]
  rw [hmapped, exists_mapM_eq_ok, hm.outputs_eq]
  simp only [exists_sortColumn_iff, List.mem_append, List.mem_map, or_and_right, exists_or,
    exists_exists_and_eq_and, or_self]

lemma compile_of_layout {scope : Scope.Resolved} {sort : Criteria} {l : Layout}
    {os : List (Nat × SortOrder)} (hc : check catalog m = .ok c) (hl : Layout.Of catalog c l)
    (hos : orders c c.outputs sort = .ok os) : compile catalog m scope sort = .ok (l.plan catalog c scope os) :=
  bind_eq_ok.2 ⟨c, hc, bind_eq_ok.2 ⟨_, hl.root, bind_eq_ok.2 ⟨_, hl.parts,
    bind_eq_ok.2 ⟨_, hl.filters, bind_eq_ok.2 ⟨os, hos, rfl⟩⟩⟩⟩⟩

/-- A plan comes out just if every stage of the compilation succeeds. -/
lemma exists_compile_iff {scope : Scope.Resolved} {sort : Criteria} :
    (∃ p, compile catalog m scope sort = .ok p) ↔ ∃ c, check catalog m = .ok c ∧
      (∃ l, Layout.Of catalog c l) ∧ ∃ os, orders c c.outputs sort = .ok os := by
  constructor
  · rintro ⟨p, h⟩
    obtain ⟨c, l, os, hc, hl, hos, -⟩ := layout_of_compile h
    exact ⟨c, hc, ⟨l, hl⟩, os, hos⟩
  · rintro ⟨c, hc, ⟨l, hl⟩, os, hos⟩
    exact ⟨_, compile_of_layout hc hl hos⟩

/-- A layout has the root of its query, which the other columns surround. -/
lemma Layout.Of.rooted (hm : Checked.Of catalog m c) {l : Layout} (h : Layout.Of catalog c l) :
    RootOf catalog m l.root ∧ Surrounds catalog m l.root := by
  obtain ⟨hconnected, hflat⟩ := (exists_partition_iff hm).1 ⟨_, h.parts⟩
  exact ⟨(exists_chooseRoot_iff hm).1 ⟨_, h.root⟩, hconnected,
    (exists_placeFilters_iff hm).1 ⟨_, h.filters⟩, hflat⟩

lemma exists_layout_iff (hm : Checked.Of catalog m c) :
    (∃ l, Layout.Of catalog c l) ↔ ∃ root, RootOf catalog m root ∧ Surrounds catalog m root := by
  constructor
  · rintro ⟨l, hl⟩
    exact ⟨l.root, hl.rooted hm⟩
  · rintro ⟨root, hroot, haround⟩
    obtain ⟨projections, hprojections⟩ := (exists_chooseRoot_iff hm).2 hroot
    obtain ⟨parts, hparts⟩ := (exists_partition_iff hm).2 ⟨haround.aggregation, haround.flat⟩
    obtain ⟨filters, hfilters⟩ := (exists_placeFilters_iff hm).2 haround.filter
    exact ⟨⟨root, projections, parts, filters⟩, hprojections, hparts, hfilters⟩

/-- Compiling gives plans for the acceptable queries, whatever the scope is. -/
theorem compiles_iff_acceptable (catalog : Catalog) (m : Model) (scope : Scope.Resolved) (sort : Criteria) :
    (∃ p, compile catalog m scope sort = .ok p) ↔ Acceptable catalog m sort := by
  rw [exists_compile_iff]
  constructor
  · rintro ⟨c, hc, hl, hos⟩
    have hm := of_check hc
    exact ⟨exists_check_iff.1 ⟨c, hc⟩, (exists_layout_iff hm).1 hl, (exists_orders_iff hm).1 hos⟩
  · rintro ⟨hcheck, hroot, hsort⟩
    obtain ⟨c, hc⟩ := exists_check_iff.2 hcheck
    have hm := of_check hc
    exact ⟨c, hc, (exists_layout_iff hm).2 hroot, (exists_orders_iff hm).2 hsort⟩

end Plan

end Tabulation
