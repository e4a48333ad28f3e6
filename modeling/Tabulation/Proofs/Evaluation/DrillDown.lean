import Mathlib.Algebra.BigOperators.Group.List.Basic
import Mathlib.Algebra.GroupWithZero.Nat
import Tabulation.Proofs.Evaluation.Exclusion
import Tabulation.Proofs.Evaluation.Measures
import Tabulation.Proofs.Evaluation.Merging

/-! Drilling down into counts. A query that projects columns of its root gives every root row to one group
with all its joined rows, so what is counted group by group adds up to the count over all. -/
namespace Tabulation

/-- The query over all rows at once: nothing is projected, so there is nothing to order by. -/
def Query.Model.ungrouped (m : Query.Model) : Query.Model :=
  { m with projections := [], orderings := [] }

namespace Evaluation
open Json (Value)
open Plan (Aggregate ColumnRef SubExpression)

/-- How many rows have a value in a column. -/
def countIn (c : ColumnRef) (rows : List Binding) : Nat := (present (rows.map (·.value? c))).length

lemma countIn_append (c : ColumnRef) (rows rows' : List Binding) :
    countIn c (rows ++ rows') = countIn c rows + countIn c rows' := by
  simp [countIn, present_append]

lemma countIn_eq_sum (c : ColumnRef) (rows : List Binding) :
    countIn c rows = (rows.map fun b => countIn c [b]).sum := by
  induction rows with
  | nil => rfl
  | cons b rows ih =>
    have hcons : countIn c (b :: rows) = countIn c [b] + countIn c rows :=
      countIn_append c [b] rows
    rw [hcons, ih, List.map_cons, List.sum_cons]

lemma countIn_flatten (c : ColumnRef) (parts : List (List Binding)) :
    countIn c parts.flatten = (parts.map (countIn c)).sum := by
  induction parts with
  | nil => rfl
  | cons part parts ih => rw [List.flatten_cons, countIn_append, ih, List.map_cons, List.sum_cons]

lemma sum_map_ite_eq {texts : List String} (h : texts.Nodup) {text : String} (ht : text ∈ texts)
    (n : Nat) : (texts.map fun t => if t = text then n else 0).sum = n := by
  induction texts with
  | nil => simp at ht
  | cons t texts ih =>
    obtain ⟨hfresh, hnodup⟩ := List.nodup_cons.1 h
    rw [List.map_cons, List.sum_cons]
    by_cases he : t = text
    · have hnone : ∀ u ∈ texts, (if u = text then n else 0) = 0 := fun u hu =>
        if_neg fun hut : u = text => hfresh (he.trans hut.symm ▸ hu)
      rw [if_pos he, List.map_congr_left hnone]
      simp
    · have hmem : text ∈ texts := (List.mem_cons.1 ht).resolve_left (Ne.symm he)
      rw [if_neg he, ih hnodup hmem, Nat.zero_add]

/-- A sum may be taken group by group, if every element is in a group. -/
theorem sum_map_filter {α : Type} (key : α → String) (w : α → Nat) {texts : List String}
    (htexts : texts.Nodup) {xs : List α} (hall : ∀ x ∈ xs, key x ∈ texts) :
    (texts.map fun text => ((xs.filter fun x => key x = text).map w).sum).sum = (xs.map w).sum := by
  induction xs with
  | nil => simp
  | cons x xs ih =>
    obtain ⟨hx, hxs⟩ := List.forall_mem_cons.1 hall
    -- the head adds to the sum of its own group only
    have hsplit : ∀ text, (((x :: xs).filter fun y => key y = text).map w).sum =
        (if text = key x then w x else 0) + ((xs.filter fun y => key y = text).map w).sum := by
      intro text
      by_cases ht : key x = text
      · simp [ht]
      · simp [ht, Ne.symm ht]
    have hone := sum_map_ite_eq htexts hx (w x)
    simp only [hsplit, List.sum_map_add, hone, ih hxs, List.map_cons, List.sum_cons]

namespace Run

/-- The root rows that count and have joined rows. -/
def sharing (x : Run) (roots : List Row) : List Row :=
  (roots.filter x.counts).filter fun root => !(x.mainRows root).isEmpty

/-- All rows in which the values for an aggregate are counted: the joined rows for one of the main rows,
and else those of its sub-expression, once for each root row. -/
inductive Counts (x : Run) (roots : List Row) (a : Aggregate) : Nat → Prop
  | main (h : a ∈ x.plan.localAggregates) : Counts x roots a (countIn a.column (x.bindings roots))
  | sub {s : SubExpression} (hs : s ∈ x.plan.subExpressions) (h : a ∈ s.aggregates) :
      Counts x roots a ((x.sharing roots).map fun root => countIn a.column (x.subRows s root)).sum

variable {x : Run} {roots : List Row}

/-- A result has one tuple for each text under which rows are grouped, or one for all if nothing is
projected. -/
lemma exists_result (x : Run) (roots : List Row) :
    ∃ bs : List Binding, x.result roots = bs.map (fun b =>
        tuple x.plan (groupValues x.plan b) (x.totals roots (groupText x.plan b))) ∧
      (bs.map (groupText x.plan)).Nodup ∧
      ∀ b ∈ x.bindings roots, groupText x.plan b ∈ bs.map (groupText x.plan) := by
  cases hg : x.plan.isGlobal with
  | true =>
    have hnil : x.plan.groupKeys = [] := List.isEmpty_iff.1 hg
    have hvalues : ∀ b, groupValues x.plan b = [] := fun b => by rw [groupValues, hnil, List.map_nil]
    have htext : ∀ b, groupText x.plan b = Comparison.groupKey (.array []) := fun b => by
      rw [groupText, hvalues]
    refine ⟨[[]], ?_, by simp, fun b _ => by simp [htext]⟩
    rw [x.result_of_isGlobal roots hg, List.map_singleton, hvalues, htext]
  | false =>
    have hresult := x.result_eq_map_groups roots hg
    rw [groups, List.map_map] at hresult
    refine ⟨_, hresult, List.pairwise_map.2 (firsts_pairwise _ _), fun b hb => ?_⟩
    obtain ⟨first, hfirst, htext⟩ := exists_mem_firsts (groupText x.plan) hb
    exact List.mem_map.2 ⟨first, hfirst, htext⟩

lemma localCell_of_count {a : Aggregate} (ha : a.function = .count) (text : String) :
    x.localCell roots text a = (a.outputIndex,
      .ofNat (countIn a.column ((x.bindings roots).filter fun b => groupText x.plan b = text))) := by
  rw [localCell, ha, tally_count]
  rfl

lemma subCell_of_count {s : SubExpression} {a : Aggregate} (ha : a.function = .count) (text : String) :
    x.subCell roots text s a = (a.outputIndex,
      .ofNat ((x.members roots text).map fun root => countIn a.column (x.subRows s root)).sum) := by
  have hmergeable : Mergeable .count
      ((x.members roots text).map fun root => valuesOf a (x.subRows s root)) := trivial
  have hmerge := foldl_merge_tally hmergeable
  have hflat : ((x.members roots text).map fun root => valuesOf a (x.subRows s root)).flatten =
      ((x.members roots text).map (x.subRows s)).flatten.map (·.value? a.column) := by
    rw [List.map_flatten, List.map_map]
    rfl
  rw [List.map_map, hflat, tally_count] at hmerge
  rw [subCell, ha]
  change (_, Accumulator.finish (((x.members roots text).map (tally .count ∘ fun root =>
    valuesOf a (x.subRows s root))).foldl _ _)) = _
  rw [hmerge]
  change (_, Value.ofNat (countIn a.column _)) = _
  rw [countIn_flatten, List.map_map]
  rfl

section

variable {key : Row → String} (hkey : ∀ root, ∀ b ∈ x.mainRows root, groupText x.plan b = key root)
include hkey

/-- The members of a group are those root rows that share with it, where each shares with one group. -/
lemma members_eq_filter (text : String) :
    x.members roots text = (x.sharing roots).filter fun root => key root = text := by
  simp only [members, sharing, List.filter_filter]
  apply List.filter_congr
  intro root _
  have hsame : (x.mainRows root).any (fun b => groupText x.plan b = text) =
      (x.mainRows root).any fun _ => key root = text :=
    any_congr fun b hb => by rw [hkey root b hb]
  rw [hsame]
  by_cases hk : key root = text <;> cases x.mainRows root <;> simp [hk]

lemma key_mem_of_sharing {texts : List String}
    (hall : ∀ b ∈ x.bindings roots, groupText x.plan b ∈ texts) {root : Row}
    (hroot : root ∈ x.sharing roots) : key root ∈ texts := by
  obtain ⟨hcounts, hrows⟩ := List.mem_filter.1 hroot
  have hne : x.mainRows root ≠ [] := by simpa using hrows
  obtain ⟨b, hb⟩ := List.exists_mem_of_ne_nil _ hne
  rw [← hkey root b hb]
  exact hall b (List.mem_flatMap.2 ⟨root, hcounts, hb⟩)

/-- Where each root row shares with one group at most, the cells of a count add up to the count in all
rows. -/
theorem Counts.sum_eq (hfilled : x.plan.filled.Perm (List.range x.plan.outputs.length)) {a : Aggregate}
    (ha : a.function = .count) {n : Nat} (h : x.Counts roots a n) :
    ∃ counts : List Nat, List.Forall₂ (fun t count => t[a.outputIndex]? = some (.ofNat count))
      (x.result roots) counts ∧ counts.sum = n := by
  obtain ⟨bs, hresult, hnodup, hall⟩ := x.exists_result roots
  rw [hresult]
  cases h with
  | main h =>
    let part (text : String) := (x.bindings roots).filter fun b => groupText x.plan b = text
    refine ⟨bs.map fun b => countIn a.column (part (groupText x.plan b)), ?_, ?_⟩
    · rw [List.forall₂_map_left_iff, List.forall₂_map_right_iff, List.forall₂_same]
      intro b _
      refine x.getElem?_tuple_totals roots _ hfilled b ?_
      rw [filling, cells_totals, ← localCell_of_count ha]
      exact List.mem_append_right _ (List.mem_append_left _ (List.mem_map.2 ⟨a, h, rfl⟩))
    · have hsum := sum_map_filter (groupText x.plan) (fun b => countIn a.column [b]) hnodup hall
      simp only [List.map_map, ← countIn_eq_sum] at hsum
      exact hsum
  | @sub s hs h =>
    refine ⟨bs.map fun b => ((x.members roots (groupText x.plan b)).map fun root =>
      countIn a.column (x.subRows s root)).sum, ?_, ?_⟩
    · rw [List.forall₂_map_left_iff, List.forall₂_map_right_iff, List.forall₂_same]
      intro b _
      refine x.getElem?_tuple_totals roots _ hfilled b ?_
      rw [filling, cells_totals, ← subCell_of_count ha]
      exact List.mem_append_right _ (List.mem_append_right _
        (List.mem_flatMap.2 ⟨s, hs, List.mem_map.2 ⟨a, h, rfl⟩⟩))
    · have hsum := sum_map_filter key (fun root => countIn a.column (x.subRows s root)) hnodup
        fun root hroot => key_mem_of_sharing hkey hall hroot
      simp only [List.map_map] at hsum
      simp only [members_eq_filter hkey]
      exact hsum

end

end Run

end Evaluation

namespace Plan
open Query (Model)
open Outcome

variable {catalog : Catalog} {m : Model} {c c' : Checked} {l l' : Layout} {root : EntityType}

lemma Checked.Of.ungrouped (h : Checked.Of catalog m c) (h' : Checked.Of catalog m.ungrouped c') :
    c' = { c with projections := [], orderings := [] } := by
  obtain ⟨filters, hfilters, hactive⟩ := h.filters
  obtain ⟨filters', hfilters', hactive'⟩ := h'.filters
  obtain rfl := Except.ok.inj (hfilters'.symm.trans hfilters)
  have hstrategy := h'.strategy.trans h.strategy.symm
  have hstyle := h'.joinStyle.trans h.joinStyle.symm
  have hroot := h'.root.trans h.root.symm
  have hprojections : c'.projections = [] := (Except.ok.inj h'.projections).symm
  have haggregations := Except.ok.inj (h'.aggregations.symm.trans h.aggregations)
  have horderings : c'.orderings = [] := (Except.ok.inj h'.orderings).symm
  cases c'
  simp only at hstrategy hstyle hroot hprojections haggregations horderings hactive'
  rw [hstrategy, hstyle, hroot, hprojections, haggregations, horderings, hactive', hactive]

lemma Layout.Of.ungrouped (h : Layout.Of catalog c l) (hr : c.root = some root)
    (h' : Layout.Of catalog { c with projections := [], orderings := [] } l') :
    l.root = root ∧ l' = { l with projections := [] } := by
  have hr' : ({ c with projections := [], orderings := [] } : Checked).root = some root := hr
  obtain ⟨rfl, -, -⟩ := (chooseRoot_named hr).1 h.root
  obtain ⟨hroot, -, hnone⟩ := (chooseRoot_named hr').1 h'.root
  have hprojections : l'.projections = [] := (Except.ok.inj hnone).symm
  have hparts := h'.parts
  have hfilters := h'.filters
  rw [← hroot] at hparts hfilters
  have hparts := Except.ok.inj (hparts.symm.trans h.parts)
  have hfilters := Except.ok.inj (hfilters.symm.trans h.filters)
  refine ⟨rfl, ?_⟩
  cases l'
  simp only at hroot hprojections hparts hfilters
  rw [← hroot, hparts, hfilters, hprojections]

/-- Columns of the root lie where the root is. -/
lemma Layout.Of.projections_at_root (hm : Checked.Of catalog m c) (h : Layout.Of catalog c l)
    (hs : l.Sound catalog)
    (hroot : ∀ x ∈ m.projections, ∀ column, catalog.column? x.label = some column → column.entity = l.root)
    {x : Placed Query.Projection} (hx : x ∈ l.projections) : x.entity = l.root ∧ x.path = [] := by
  obtain ⟨f, hf, hplaced⟩ := exists_of_mem_mapM (path?_of_chooseRoot h.root) hx
  obtain ⟨p, hp, hcheck⟩ := exists_of_mem_mapM hm.projections hf
  obtain ⟨-, hcolumn, hpath, -⟩ := path?_of_placeProjection hplaced
  have hentity : x.entity = l.root := by
    rw [Placed.entity, hcolumn]
    exact hroot p hp f.column (column?_of_checkProjection hcheck).2
  rw [hentity, Catalog.path?_self hs.root] at hpath
  exact ⟨hentity, (Option.some.inj hpath).symm⟩

lemma Layout.main_ungrouped (h : ∀ x ∈ l.projections, x.path = []) :
    ({ l with projections := [] } : Layout).main = l.main := by
  have hnone : l.projections.foldl (fun joins x => addInner joins x.path) [] = [] := by
    refine List.foldlRecOn l.projections _ (motive := (· = [])) rfl fun joins hjoins x hx => ?_
    rw [hjoins, h x hx]
    rfl
  unfold Layout.main
  rw [hnone]
  rfl

/-- Every aggregation is placed, with the others that do not fan out or in a part that does. -/
lemma Layout.Of.exists_placed (hm : Checked.Of catalog m c) (h : Layout.Of catalog c l) {i : Nat}
    {a : Query.Aggregation} (ha : m.aggregations[i]? = some a) :
    ∃ x : Placed Query.Aggregation, x.use = a ∧
      ((i, x) ∈ l.near ∨ ∃ e ∈ l.far, (i, x) ∈ e.2) := by
  obtain ⟨placed, hplaced, hparts, -⟩ := partition_eq_ok.1 h.parts
  obtain ⟨f, hf, hcheck⟩ := Evaluation.forall₂_getElem? (mapM_eq_ok.1 hm.aggregations) ha
  obtain ⟨x, hx, hplace⟩ := Evaluation.forall₂_getElem? (mapM_eq_ok.1 hplaced) hf
  have huse := (path?_of_place hplace).1.trans (column?_of_checkAggregation hcheck).1
  refine ⟨x, huse, ?_⟩
  by_cases hroot : x.key.isRoot
  · refine .inl ?_
    rw [Layout.near, hparts, near_partsOf]
    exact mem_placesOf.2 ⟨Catalog.FanOutKey.isRoot_iff.1 hroot, hx⟩
  · refine .inr ⟨(x.key, placesOf placed x.key), List.mem_filter.2 ⟨?_, by simpa using hroot⟩,
      mem_placesOf.2 ⟨rfl, hx⟩⟩
    rw [hparts]
    exact mem_entries_partsOf.2 ⟨⟨x, List.mem_of_getElem? hx, rfl⟩, rfl⟩

/-- Where aliases tell entity types apart, no main join takes the alias of the root. -/
lemma Layout.Sound.aliasName_ne_root (hs : l.Sound catalog) (hc : catalog.WellFormed)
    (ha : catalog.DistinctAliases) {j : Join} (hj : j ∈ l.main.1) :
    j.aliasName ≠ l.root.aliasName := by
  obtain ⟨hjoins, hrooted⟩ := hs.main_joins hc ha
  rw [hjoins] at hj
  obtain ⟨s, hmem, rfl⟩ := List.mem_map.1 hj
  obtain ⟨p, hp, -⟩ := hrooted.path_of_mem hmem
  have htarget := (Catalog.contains_of_path? hp).2
  intro halias
  exact Catalog.path?_target_ne hc hp (by simp) (ha _ _ htarget hs.root halias)

end Plan

namespace Evaluation
open Plan
open Query (Model)

variable {catalog : Catalog} {m : Model} {c : Checked} {l : Layout} {scope : Scope.Resolved}
  {os os' : List (Nat × Sorting.SortOrder)} {tables : Tables} {specials : Specials}

lemma groupText_of_projections_at_root (hc : catalog.WellFormed) (ha : catalog.DistinctAliases)
    (hs : l.Sound catalog) (hflat : c.strategy = .partitioned)
    (hroot : ∀ x ∈ l.projections, x.entity = l.root) (root : Row) :
    let x : Run := ⟨tables, specials, l.plan catalog c scope os⟩
    ∀ b ∈ x.mainRows root, groupText x.plan b = groupText x.plan [(l.root.aliasName, root)] := by
  intro x b hb
  obtain ⟨hjoins, -, -, -⟩ := l.plan_of_partitioned hflat catalog scope os
  have hrow : b.row? l.root.aliasName = some root := by
    refine row?_of_mem_reach (fun j hj => ?_) (List.mem_filter.1 hb).1
    exact hs.aliasName_ne_root hc ha (hjoins ▸ hj)
  have hvalues : groupValues x.plan b = groupValues x.plan [(l.root.aliasName, root)] := by
    refine List.map_congr_left fun k hk => ?_
    obtain ⟨⟨y, i⟩, hy, rfl⟩ := List.mem_map.1 hk
    have hentity := hroot y (List.fst_mem_of_mem_zipIdx hy)
    have halias : (ColumnRef.ofColumn y.column).aliasName = l.root.aliasName :=
      congrArg EntityType.aliasName hentity
    simp only [Binding.value?, halias, hrow, row?_cons, if_true]
  rw [groupText, groupText, hvalues]

/-- The plan of a query and the one without its projections find the same rows. -/
lemma sameRows_ungrouped (hflat : c.strategy = .partitioned) (hpath : ∀ x ∈ l.projections, x.path = []) :
    let x : Run := ⟨tables, specials, l.plan catalog c scope os⟩
    let y : Run := ⟨tables, specials, { l with projections := [] }.plan catalog
      { c with projections := [], orderings := [] } scope os'⟩
    y.mainRows = x.mainRows ∧ y.counts = x.counts := by
  intro x y
  obtain ⟨hjoins, hpredicates, -, hsubs⟩ := l.plan_of_partitioned hflat catalog scope os
  obtain ⟨hjoins', hpredicates', -, hsubs'⟩ := Layout.plan_of_partitioned { l with projections := [] }
    (c := { c with projections := [], orderings := [] }) hflat catalog scope os'
  rw [Layout.main_ungrouped hpath] at hjoins' hpredicates'
  constructor
  · funext root
    unfold Run.mainRows
    rw [show y.plan.joins = _ from hjoins', show y.plan.predicates = _ from hpredicates',
      show x.plan.joins = _ from hjoins, show x.plan.predicates = _ from hpredicates]
    rfl
  · funext root
    have hadmits : y.admits root = x.admits root := Run.admits_congr rfl rfl rfl root
    unfold Run.counts
    rw [hadmits, show y.plan.subExpressions = _ from hsubs', show x.plan.subExpressions = _ from hsubs,
      List.all_map, List.all_map]
    rfl

lemma exists_counts (hflat : c.strategy = .partitioned) (hm : Checked.Of catalog m c)
    (hl : Layout.Of catalog c l) (hpath : ∀ x ∈ l.projections, x.path = []) {i : Nat}
    {a : Query.Aggregation} (ha : m.aggregations[i]? = some a) (roots : List Row) :
    let x : Run := ⟨tables, specials, l.plan catalog c scope os⟩
    let y : Run := ⟨tables, specials, { l with projections := [] }.plan catalog
      { c with projections := [], orderings := [] } scope os'⟩
    ∃ column n, x.Counts roots ⟨l.projections.length + i, a.function, column⟩ n ∧
      y.Counts roots ⟨i, a.function, column⟩ n := by
  intro x y
  have hsame : y.mainRows = x.mainRows ∧ y.counts = x.counts := sameRows_ungrouped hflat hpath
  obtain ⟨hrows, hcounts⟩ := hsame
  have hbindings : y.bindings roots = x.bindings roots := by
    rw [Run.bindings, Run.bindings, hrows, hcounts]
  have hsharing : y.sharing roots = x.sharing roots := by
    rw [Run.sharing, Run.sharing, hrows, hcounts]
  obtain ⟨-, -, hlocal, hsubs⟩ := l.plan_of_partitioned hflat catalog scope os
  obtain ⟨-, -, hlocal', hsubs'⟩ := Layout.plan_of_partitioned { l with projections := [] }
    (c := { c with projections := [], orderings := [] }) hflat catalog scope os'
  obtain ⟨z, rfl, hnear | ⟨e, he, hz⟩⟩ := hl.exists_placed hm ha
  · have hmem : (⟨l.projections.length + i, z.use.function, .ofColumn z.column⟩ : Aggregate) ∈
        aggregates l.projections.length l.near := mem_aggregates hnear
    have hmem' : (⟨0 + i, z.use.function, .ofColumn z.column⟩ : Aggregate) ∈ aggregates 0 l.near :=
      mem_aggregates hnear
    rw [Nat.zero_add] at hmem'
    refine ⟨.ofColumn z.column, countIn (.ofColumn z.column) (x.bindings roots), .main ?_, ?_⟩
    · exact hlocal ▸ hmem
    · rw [← hbindings]
      exact .main (hlocal' ▸ hmem')
  · have hsub : subExpression c.joinStyle l.fanned l.projections.length e.1 e.2 ∈
        x.plan.subExpressions := hsubs ▸ List.mem_map.2 ⟨e, he, rfl⟩
    have hsub' : subExpression c.joinStyle l.fanned 0 e.1 e.2 ∈ y.plan.subExpressions :=
      hsubs' ▸ List.mem_map.2 ⟨e, he, rfl⟩
    have hmem' : (⟨0 + i, z.use.function, .ofColumn z.column⟩ : Aggregate) ∈ aggregates 0 e.2 :=
      mem_aggregates hz
    rw [Nat.zero_add] at hmem'
    have hn : y.Counts roots ⟨i, z.use.function, .ofColumn z.column⟩ _ := .sub hsub' hmem'
    rw [hsharing] at hn
    exact ⟨.ofColumn z.column, _, .sub hsub (mem_aggregates hz), hn⟩

/-- The counts of a query whose projections are columns of its root add up over the tuples of its result:
their sum is the count that the query gives without projections. -/
theorem drill_down_conserves_counts {declarations : Catalog.Declarations} {root : EntityType}
    {sort sort' : Sorting.Criteria} {p p' : Plan} {ts ts' : List Tuple}
    (hbuild : Catalog.build declarations = .ok catalog) (ha : catalog.DistinctAliases)
    (hm : m.strategy = .partitioned) (hr : m.root = some root)
    (hroot : ∀ x ∈ m.projections, ∀ column, catalog.column? x.label = some column →
      column.entity = root)
    (hp : compile catalog m scope sort = .ok p) (hp' : compile catalog m.ungrouped scope sort' = .ok p')
    (he : evaluate tables specials p = .ok ts) (he' : evaluate tables specials p' = .ok ts') :
    ∃ t', ts' = [t'] ∧ ∀ (i : Nat) a, m.aggregations[i]? = some a → a.function = .count →
      ∃ counts : List Nat,
        List.Forall₂ (fun t count => t[m.projections.length + i]? = some (.ofNat count)) ts counts ∧
        t'[i]? = some (.ofNat counts.sum) := by
  have hc := Catalog.wellFormed_build hbuild
  have hfilled := filled_perm hp
  have hfilled' := filled_perm hp'
  obtain ⟨c, l, os, hcheck, hl, hs, -, rfl⟩ := exists_layout hc hp
  obtain ⟨c', l', os', hcheck', hl', -, -, rfl⟩ := exists_layout hc hp'
  obtain rfl := hcheck.ungrouped hcheck'
  obtain ⟨rfl, rfl⟩ := hl.ungrouped (hcheck.root.trans hr) hl'
  have hflat := hcheck.strategy.trans hm
  have hat := fun x hx => hl.projections_at_root hcheck hs hroot (x := x) hx
  let x : Run := ⟨tables, specials, l.plan catalog c scope os⟩
  let y : Run := ⟨tables, specials, { l with projections := [] }.plan catalog
    { c with projections := [], orderings := [] } scope os'⟩
  obtain ⟨-, -, hts⟩ := evaluate_eq_ok (x := x) he
  obtain ⟨-, -, hts'⟩ := evaluate_eq_ok (x := y) he'
  obtain ⟨t', ht'⟩ : ∃ t', y.result x.roots = [t'] := ⟨_, y.result_of_isGlobal x.roots rfl⟩
  have hperm : ts.Perm (x.result x.roots) := hts ▸ List.mergeSort_perm _ _
  have hperm' : ts'.Perm (y.result x.roots) := hts' ▸ List.mergeSort_perm _ _
  refine ⟨t', List.perm_singleton.1 (ht' ▸ hperm'), fun i a hia hcount => ?_⟩
  obtain ⟨column, n, hn, hn'⟩ : ∃ column n,
      x.Counts x.roots ⟨l.projections.length + i, a.function, column⟩ n ∧
        y.Counts x.roots ⟨i, a.function, column⟩ n :=
    exists_counts hflat hcheck hl (fun x hx => (hat x hx).2) hia x.roots
  -- a root row shares with the group of its own values only, or with the one group of all rows
  have hkey : ∀ root, ∀ b ∈ x.mainRows root,
      groupText x.plan b = groupText x.plan [(l.root.aliasName, root)] :=
    groupText_of_projections_at_root hc ha hs hflat fun x hx => (hat x hx).1
  obtain ⟨counts, hcells, hsum⟩ := hn.sum_eq hkey hfilled hcount
  have hkey' : ∀ root, ∀ b ∈ y.mainRows root, groupText y.plan b = Comparison.groupKey (.array []) :=
    fun root b hb => rfl
  obtain ⟨counts', hcells', hsum'⟩ := hn'.sum_eq hkey' hfilled' hcount
  have hlength : l.projections.length = m.projections.length :=
    hl.length_projections.trans (Outcome.mapM_eq_ok.1 hcheck.projections).length_eq.symm
  obtain ⟨sorted, hsorted, hcounts⟩ := List.perm_comp_forall₂ hperm hcells
  refine ⟨sorted, hlength ▸ hsorted, ?_⟩
  rw [hcounts.sum_nat, hsum, ← hsum']
  rw [ht'] at hcells'
  cases hcells' with
  | cons hcell hrest =>
    cases hrest
    simpa using hcell

/-- Two tickets of the red team and none of the blue one are two tickets, and their three notes are three. -/
theorem drill_down_conserves_counts_helpDesk :
    let m : Model := .perTeam "Team" ["TICKET_ID", "NOTE_ID"] []
    let ts : List Tuple := [[.string "red", .ofNat 2, .ofNat 3], [.string "blue", .ofNat 0, .ofNat 0]]
    ∃ catalog p p', Catalog.build Catalog.helpDesk = .ok catalog ∧
      compile catalog m .unrestricted [] = .ok p ∧
      compile catalog m.ungrouped .unrestricted [] = .ok p' ∧
      evaluate helpDesk .builtin p = .ok ts ∧
      evaluate helpDesk .builtin p' = .ok [[.ofNat 2, .ofNat 3]] ∧
      ∃ counts : List Nat, List.Forall₂ (fun t count => t[2]? = some (.ofNat count)) ts counts ∧
        some (Json.Value.ofNat 3) = some (.ofNat counts.sum) := by
  intro m ts
  obtain ⟨catalog, hbuild, h⟩ : ∃ catalog, Catalog.build Catalog.helpDesk = .ok catalog ∧
      (decide catalog.DistinctAliases && ((catalog.column? "TEAM_NAME").all fun c => c.entity = "Team") &&
        (compile catalog m .unrestricted []).toOption.any fun p =>
          Run.gives ⟨helpDesk, .builtin, p⟩ ts &&
            (compile catalog m.ungrouped .unrestricted []).toOption.any fun p' =>
              Run.gives ⟨helpDesk, .builtin, p'⟩ [[.ofNat 2, .ofNat 3]]) :=
    Outcome.exists_of_any (by decide +kernel)
  obtain ⟨h, hplans⟩ := Bool.and_eq_true_iff.1 h
  obtain ⟨ha, hteam⟩ := Bool.and_eq_true_iff.1 h
  obtain ⟨p, hp, h⟩ := Outcome.exists_of_any hplans
  obtain ⟨hgives, h'⟩ := Bool.and_eq_true_iff.1 h
  obtain ⟨p', hp', hgives'⟩ := Outcome.exists_of_any h'
  have he := evaluate_of_gives hgives
  have he' := evaluate_of_gives hgives'
  have hroot : ∀ x ∈ m.projections, ∀ column, catalog.column? x.label = some column →
      column.entity = "Team" := by
    intro x hx column hcolumn
    obtain rfl := List.mem_singleton.1 hx
    simpa [hcolumn] using hteam
  obtain ⟨t', ht', hcounts⟩ := drill_down_conserves_counts hbuild (of_decide_eq_true ha) rfl rfl hroot
    hp hp' he he'
  obtain rfl : [.ofNat 2, .ofNat 3] = t' := List.singleton_inj.1 ht'
  exact ⟨catalog, p, p', hbuild, hp, hp', he, he', hcounts 1 ⟨"NOTE_ID", .count⟩ rfl rfl⟩

end Evaluation

end Tabulation
