import Tabulation.Proofs.Evaluation.Filling
import Tabulation.Proofs.Plan.ActiveFilters
import Tabulation.Proofs.Scope.Resolution

/-! Widening a scope. A query that aggregates nothing tells which groups there are, so it loses nothing when
its scope lists more leaves. -/
namespace Tabulation

/-- What one scope lists, the other lists, too. -/
def Scope.IdsByType.Within (m n : Scope.IdsByType) : Prop := ∀ r, m.Lists r → n.Lists r

namespace Plan
open Query (Model)

/-- A plan whose result columns are its group keys, one by one. -/
structure GroupsOnly (p : Plan) : Prop where
  localAggregates : p.localAggregates = []
  subExpressions : p.subExpressions = []
  places : p.groupKeys.map (·.outputIndex) = List.range p.outputs.length
  grouped : p.isGlobal = false

variable {catalog : Catalog} {m : Model} {scope scope' : Scope.Resolved} {sort : Sorting.Criteria}
  {p p' : Plan}

/-- A scope bears on nothing in a plan but the branches. -/
lemma eq_of_compile_scopes (hp : compile catalog m scope sort = .ok p)
    (hp' : compile catalog m scope' sort = .ok p') :
    p.scope = scopeBranches catalog p.root scope ∧
      p' = { p with scope := scopeBranches catalog p.root scope' } := by
  obtain ⟨c, l, os, hc, hl, hos, rfl⟩ := layout_of_compile hp
  obtain ⟨c', l', os', hc', hl', hos', rfl⟩ := layout_of_compile hp'
  obtain rfl := Except.ok.inj (hc'.symm.trans hc)
  obtain rfl := hl.unique hl'
  obtain rfl := Except.ok.inj (hos'.symm.trans hos)
  exact ⟨rfl, rfl⟩

lemma projections_ne_nil_of_check {c : Checked} (h : check catalog m = .ok c)
    (hm : m.aggregations = []) : m.projections ≠ [] := by
  intro hnil
  unfold check at h
  rw [if_pos (by simp [hnil, hm])] at h
  cases h

/-- Where nothing is aggregated, there are no parts. -/
lemma Layout.Of.parts_of_no_aggregations {c : Checked} {l : Layout} (h : Layout.Of catalog c l)
    (hc : Checked.Of catalog m c) (hm : m.aggregations = []) :
    c.aggregations = [] ∧ l.parts = partsOf [] := by
  have hfound := hc.aggregations
  rw [hm] at hfound
  have haggregations : c.aggregations = [] := (Except.ok.inj hfound).symm
  obtain ⟨placed, hplaced, hparts, -⟩ := partition_eq_ok.1 h.parts
  rw [haggregations] at hplaced
  obtain rfl := Except.ok.inj hplaced
  exact ⟨haggregations, hparts⟩

theorem groupsOnly_of_compile (hm : m.aggregations = []) (hp : compile catalog m scope sort = .ok p) :
    p.GroupsOnly := by
  obtain ⟨c, l, os, hcheck, hl, -, rfl⟩ := layout_of_compile hp
  have hc := of_check hcheck
  obtain ⟨haggregations, hparts⟩ := hl.parts_of_no_aggregations hc hm
  have hnear : l.near = [] := by
    rw [Layout.near, hparts]
    rfl
  have hfar : l.far = [] := by
    rw [Layout.far, hparts]
    rfl
  have hlength : l.projections.length = m.projections.length :=
    hl.length_projections.trans (Outcome.mapM_eq_ok.1 hc.projections).length_eq.symm
  refine ⟨?_, ?_, ?_, ?_⟩
  · simp [Layout.plan, hnear, hfar, aggregates]
  · simp [Layout.plan, hfar]
  · simp [Layout.plan, Function.comp_def, List.zipIdx_map_snd, List.range_eq_range', Checked.outputs,
      haggregations, hl.length_projections]
  · have hne := List.length_pos_iff.2 (projections_ne_nil_of_check hcheck hm)
    rw [← hlength] at hne
    simpa [Layout.plan, Plan.isGlobal] using List.length_pos_iff.1 hne

end Plan

namespace Evaluation
open Comparison (groupKey)
open Plan (GroupsOnly scopeBranches)
open Scope (IdsByType)

section

variable {x y : Run} {roots : List Row}

lemma filled_of_groupsOnly {p : Plan} (h : p.GroupsOnly) : p.filled = List.range p.outputs.length := by
  simp [Plan.filled, h.localAggregates, h.subExpressions, h.places]

/-- Where nothing is aggregated, the tuples are the values of the groups. -/
theorem result_eq_groups (h : x.plan.GroupsOnly) : x.result roots = x.groups roots := by
  have hfilled : x.plan.filled.Perm (List.range x.plan.outputs.length) := .of_eq (filled_of_groupsOnly h)
  have hself : ∀ t ∈ x.result roots, (x.plan.groupKeys.map fun k => t[k.outputIndex]?.getD .null) = t := by
    intro t ht
    obtain ⟨b, text, rfl⟩ := Run.mem_result ht
    generalize hu : tuple x.plan (groupValues x.plan b) (x.totals roots text) = u
    have hlength : u.length = x.plan.outputs.length := hu ▸ length_tuple ..
    calc (x.plan.groupKeys.map fun k => u[k.outputIndex]?.getD .null)
        = (x.plan.groupKeys.map (·.outputIndex)).map fun i => u[i]?.getD .null := by
          rw [List.map_map, Function.comp_def]
      _ = (List.range u.length).map fun i => u[i]?.getD .null := by rw [h.places, hlength]
      _ = u := List.ext_getElem (by simp) fun i hi hi' => by simp [hi']
  rw [← x.map_result roots hfilled h.grouped, List.map_congr_left hself, List.map_id']

/-- Every group of a run is a group of a run that groups more rows by the same keys. -/
theorem exists_mem_result (hkeys : y.plan.groupKeys = x.plan.groupKeys) (hx : x.plan.GroupsOnly)
    (hy : y.plan.GroupsOnly) (hrows : x.bindings roots ⊆ y.bindings roots) {t : Tuple}
    (ht : t ∈ x.result roots) : ∃ t' ∈ y.result roots, groupKey (.array t') = groupKey (.array t) := by
  rw [result_eq_groups hx] at ht
  obtain ⟨b, hb, rfl⟩ := List.mem_map.1 ht
  have hb := hrows (firsts_subset _ _ hb)
  obtain ⟨b', hb', htext⟩ := exists_mem_firsts (groupText y.plan) hb
  have hvalues : groupValues y.plan b = groupValues x.plan b := by rw [groupValues, groupValues, hkeys]
  rw [groupText, groupText, hvalues] at htext
  refine ⟨groupValues y.plan b', ?_, htext⟩
  rw [result_eq_groups hy]
  exact List.mem_map_of_mem hb'

end

section

variable {catalog : Catalog} {leaves leaves' : IdsByType} {tables : Tables} {specials : Specials} {p : Plan}

/-- A root row that is admitted within a scope is admitted within a wider one. -/
lemma admits_of_within (h : leaves.Within leaves')
    (hp : p.scope = scopeBranches catalog p.root (.restricted leaves)) {root : Row}
    (hroot : Run.admits ⟨tables, specials, p⟩ root) :
    Run.admits ⟨tables, specials, { p with scope := scopeBranches catalog p.root (.restricted leaves') }⟩
      root := by
  simp only [Run.admits, hp, scopeBranches, List.any_filterMap, Bool.and_eq_true] at hroot ⊢
  refine ⟨?_, hroot.2⟩
  obtain ⟨e, he, hin⟩ := List.any_eq_true.1 hroot.1
  cases hpath : catalog.path? p.root e.1 with
  | none => simp [hpath] at hin
  | some path =>
    simp only [hpath, Option.map_some, Run.inBranch] at hin
    obtain ⟨b, hb, hlisted⟩ := List.any_eq_true.1 hin
    obtain ⟨id, hid, hmem⟩ := (Option.any_eq_true _ _).1 hlisted
    -- the same leaf is listed in the branch for the same entity type
    have hlists : leaves.Lists ⟨e.1, id⟩ :=
      ⟨e.2, OrderedMap.get?_eq_some_iff.2 he, by simpa [OrderedSet.contains] using hmem⟩
    obtain ⟨ids, hids, hid'⟩ := h _ hlists
    refine List.any_eq_true.2 ⟨(e.1, ids), OrderedMap.get?_eq_some_iff.1 hids, ?_⟩
    simp only [hpath, Option.map_some, Run.inBranch]
    refine List.any_eq_true.2 ⟨b, hb, (Option.any_eq_true _ _).2 ⟨id, hid, ?_⟩⟩
    simpa [OrderedSet.contains] using hid'

/-- So are the rows that are joined to it. -/
lemma bindings_subset_of_within (h : leaves.Within leaves')
    (hp : p.scope = scopeBranches catalog p.root (.restricted leaves)) (roots : List Row) :
    Run.bindings ⟨tables, specials, p⟩ roots ⊆
      Run.bindings ⟨tables, specials,
        { p with scope := scopeBranches catalog p.root (.restricted leaves') }⟩ roots := by
  intro b hb
  obtain ⟨root, hroot, hb⟩ := List.mem_flatMap.1 hb
  obtain ⟨hmem, hcounts⟩ := List.mem_filter.1 hroot
  obtain ⟨hadmits, hkeeps⟩ := Bool.and_eq_true_iff.1 hcounts
  refine List.mem_flatMap.2 ⟨root, List.mem_filter.2 ⟨hmem, ?_⟩, hb⟩
  exact Bool.and_eq_true_iff.2 ⟨admits_of_within h hp hadmits, hkeeps⟩

/-- A query that aggregates nothing gives the same tuples and perhaps more, up to the texts that they are
grouped under, within a wider scope. -/
theorem exists_mem_of_within {m : Query.Model} {sort : Sorting.Criteria} {p' : Plan} {ts ts' : List Tuple}
    (hm : m.aggregations = []) (h : leaves.Within leaves')
    (hp : Plan.compile catalog m (.restricted leaves) sort = .ok p)
    (hp' : Plan.compile catalog m (.restricted leaves') sort = .ok p')
    (he : evaluate tables specials p = .ok ts) (he' : evaluate tables specials p' = .ok ts') {t : Tuple}
    (ht : t ∈ ts) : ∃ t' ∈ ts', groupKey (.array t') = groupKey (.array t) := by
  have hgroups := Plan.groupsOnly_of_compile hm hp
  have hgroups' := Plan.groupsOnly_of_compile hm hp'
  obtain ⟨hscope, rfl⟩ := Plan.eq_of_compile_scopes hp hp'
  let x : Run := ⟨tables, specials, p⟩
  let y : Run := ⟨tables, specials, { p with scope := scopeBranches catalog p.root (.restricted leaves') }⟩
  obtain ⟨-, -, hts⟩ := evaluate_eq_ok (x := x) he
  obtain ⟨-, -, hts'⟩ := evaluate_eq_ok (x := y) he'
  rw [hts] at ht
  have ht : t ∈ x.result x.roots := (List.mergeSort_perm _ _).subset ht
  have hkeys : y.plan.groupKeys = x.plan.groupKeys := rfl
  have hrows : x.bindings x.roots ⊆ y.bindings x.roots := bindings_subset_of_within h hscope x.roots
  obtain ⟨t', ht', htext⟩ : ∃ t' ∈ y.result x.roots, groupKey (.array t') = groupKey (.array t) :=
    exists_mem_result hkeys hgroups hgroups' hrows ht
  refine ⟨t', ?_, htext⟩
  rw [hts']
  exact (List.mergeSort_perm _ _).mem_iff.2 ht'

end

end Evaluation

end Tabulation
