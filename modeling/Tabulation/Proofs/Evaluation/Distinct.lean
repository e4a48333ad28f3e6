import Tabulation.Proofs.Evaluation.RowOrder
import Tabulation.Proofs.Evaluation.Rows
import Tabulation.Proofs.Evaluation.Widening

/-! Listing the values of a column and counting them. Values are listed by grouping rows that inner joins
lead to, and they are counted in a set of texts over rows that left joins lead to. The rows with a value are
the same, and both tell the same values apart. -/
namespace Tabulation

namespace Query

/-- A query for the values of a column. -/
structure Model.Lists (m : Model) (root : EntityType) (label : String) : Prop where
  root : m.root = some root
  projections : m.projections = [⟨label, none⟩]
  aggregations : m.aggregations = []

/-- A query for the number of values of a column. -/
structure Model.CountsDistinct (m : Model) (root : EntityType) (label : String) : Prop where
  root : m.root = some root
  projections : m.projections = []
  aggregations : m.aggregations = [⟨label, .countDistinct⟩]

end Query

namespace Plan
open Catalog (Column FanOutKey Step)
open Outcome
open Query (Model)

/-- Layouts from one root and with the same filters, where a column is projected in the one and counted in
the other. -/
structure Layout.Twins (l l' : Layout) (label : String) (column : Column) (path : List Step) : Prop where
  root : l'.root = l.root
  filters : l'.filters = l.filters
  projections : l.projections = [⟨⟨label, none⟩, column, path⟩]
  parts : l.parts = partsOf []
  projections' : l'.projections = []
  parts' : l'.parts = partsOf [⟨⟨label, .countDistinct⟩, column, path⟩]
  direct : (FanOutKey.ofSteps path).isRoot

variable {catalog : Catalog} {m m' : Model} {c c' : Checked} {l l' : Layout} {root : EntityType}
  {label : String} {column : Column} {path : List Step}

lemma Layout.Of.lists (h : Layout.Of catalog c l) (hc : Checked.Of catalog m c) (hm : m.Lists root label) :
    l.root = root ∧ l.parts = partsOf [] ∧ ∃ column path, catalog.column? label = some column ∧
      catalog.path? root column.entity = some path ∧ (FanOutKey.ofSteps path).isRoot ∧
      l.projections = [⟨⟨label, none⟩, column, path⟩] := by
  obtain ⟨rfl, -, hplaced⟩ := (chooseRoot_named (hc.root.trans hm.root)).1 h.root
  have hprojections := hc.finds_projections
  rw [hm.projections] at hprojections
  obtain ⟨f, hf, huse, hcolumn⟩ := eq_singleton_of_forall₂ hprojections
  rw [hf] at hplaced
  obtain ⟨x, hx, hplace⟩ := eq_singleton_of_forall₂ (mapM_eq_ok.1 hplaced)
  obtain ⟨hxuse, hxcolumn, hpath, hroot⟩ := path?_of_placeProjection hplace
  refine ⟨rfl, (h.parts_of_no_aggregations hc hm.aggregations).2, x.column, x.path, hxcolumn ▸ hcolumn,
    hpath, hroot, ?_⟩
  rw [hx, ← huse, ← hxuse]

lemma Layout.Of.countsDistinct (h : Layout.Of catalog c l) (hc : Checked.Of catalog m c)
    (hm : m.CountsDistinct root label) :
    l.root = root ∧ l.projections = [] ∧ ∃ column path, catalog.column? label = some column ∧
      catalog.path? root column.entity = some path ∧
      l.parts = partsOf [⟨⟨label, .countDistinct⟩, column, path⟩] := by
  obtain ⟨rfl, -, hplaced⟩ := (chooseRoot_named (hc.root.trans hm.root)).1 h.root
  have hprojections := hc.finds_projections
  have haggregations := hc.finds_aggregations
  rw [hm.projections] at hprojections
  rw [hm.aggregations] at haggregations
  rw [List.forall₂_nil_left_iff.1 hprojections] at hplaced
  obtain ⟨f, hf, huse, hcolumn⟩ := eq_singleton_of_forall₂ haggregations
  obtain ⟨placed, hparts, hpartition, -⟩ := partition_eq_ok.1 h.parts
  rw [hf] at hparts
  obtain ⟨x, hx, hplace⟩ := eq_singleton_of_forall₂ (mapM_eq_ok.1 hparts)
  obtain ⟨hxuse, hxcolumn, hpath⟩ := path?_of_place hplace
  refine ⟨rfl, (Except.ok.inj hplaced).symm, x.column, x.path, hxcolumn ▸ hcolumn, hpath, ?_⟩
  rw [hpartition, hx, ← huse, ← hxuse]

lemma Layout.Of.filters_eq (h : Layout.Of catalog c l) (h' : Layout.Of catalog c' l')
    (hc : Checked.Of catalog m c) (hc' : Checked.Of catalog m' c') (hroot : l'.root = l.root)
    (hm : m'.filters = m.filters) : l'.filters = l.filters := by
  have hfilters : placeFilters catalog l.root c = .ok l.filters := h.filters
  have hfilters' : placeFilters catalog l'.root c' = .ok l'.filters := h'.filters
  have hfound := hc'.finds_filters
  rw [hm] at hfound
  rw [placeFilters, hroot, hfound.unique hc.finds_filters] at hfilters'
  exact Except.ok.inj (hfilters'.symm.trans hfilters)

/-- A column that is projected from a root is counted from there along the same path. -/
theorem exists_twins (hm : m.Lists root label) (hm' : m'.CountsDistinct root label)
    (hfilters : m'.filters = m.filters) (hc : Checked.Of catalog m c) (hc' : Checked.Of catalog m' c')
    (h : Layout.Of catalog c l) (h' : Layout.Of catalog c' l') :
    ∃ column path, l.Twins l' label column path := by
  obtain ⟨rfl, hparts, column, path, hcolumn, hpath, hdirect, hprojections⟩ := h.lists hc hm
  obtain ⟨hroot, hprojections', column', path', hcolumn', hpath', hparts'⟩ := h'.countsDistinct hc' hm'
  obtain rfl := Option.some.inj (hcolumn.symm.trans hcolumn')
  obtain rfl := Option.some.inj (hpath.symm.trans hpath')
  exact ⟨column, path, hroot, h.filters_eq h' hc hc' hroot hfilters, hprojections, hparts, hprojections',
    hparts', hdirect⟩

namespace Layout.Twins

variable (h : l.Twins l' label column path)
include h

lemma near : l.near = [] := by
  rw [Layout.near, h.parts]
  rfl

lemma far : l.far = [] := by
  rw [Layout.far, h.parts]
  rfl

lemma entries' : l'.parts.entries =
    [(.ofSteps path, [(0, ⟨⟨label, .countDistinct⟩, column, path⟩)])] := by
  rw [h.parts']
  rfl

lemma near' : l'.near = [(0, ⟨⟨label, .countDistinct⟩, column, path⟩)] := by
  simp [Layout.near, h.entries', h.direct]

lemma far' : l'.far = [] := by
  simp [Layout.far, h.entries', h.direct]

lemma direct_eq : l'.direct = l.direct := by
  rw [Layout.direct, h.filters, Layout.direct]

lemma fanned_eq : l'.fanned = l.fanned := by
  rw [Layout.fanned, h.filters, Layout.fanned]

lemma predicates_eq : l'.main.2 = l.main.2 := by
  simp only [Layout.main, h.direct_eq]

lemma mem_neededSteps {s : Step} : s ∈ l.neededSteps ↔ s ∈ path ∨ s ∈ l'.neededSteps := by
  simp [Layout.neededSteps, h.projections, h.projections', h.direct_eq]

/-- The main rows take the same steps, in another order. -/
lemma mem_mainSteps {s : Step} : s ∈ l'.mainSteps ↔ s ∈ l.mainSteps := by
  simp [Layout.mainSteps, mem_extendAll, h.projections, h.projections', h.direct_eq, h.near, h.near', or_comm]

end Layout.Twins

end Plan

namespace Evaluation
open Json (Value)

/-- There are as many values with texts of their own as there are texts. -/
lemma length_firsts (values : List Value) :
    (firsts Comparison.groupKey values).length = (textsOf values).size := by
  let texts : List String := (firsts Comparison.groupKey values).map Comparison.groupKey
  have hnodup : texts.Nodup := List.pairwise_map.2 (firsts_pairwise _ _)
  have hperm : texts.Perm (textsOf values).toList := by
    refine (List.perm_ext_iff_of_nodup hnodup (textsOf values).nodup).2 fun text => ?_
    rw [mem_textsOf, List.mem_map]
    constructor
    · rintro ⟨v, hv, rfl⟩
      exact ⟨v, firsts_subset _ _ hv, rfl⟩
    · rintro ⟨v, hv, rfl⟩
      exact exists_mem_firsts _ hv
  exact (List.length_map _).symm.trans hperm.length_eq

/-- Grouping values by themselves and counting the groups other than that of null is counting the texts of
the values other than null. -/
theorem countP_firsts (values : List Value) :
    (firsts (fun v => Comparison.groupKey (.array [v])) values).countP (· ≠ .null) =
      (textsOf (values.filter (· ≠ .null))).size := by
  have hnull : ∀ v w, Comparison.groupKey v = Comparison.groupKey w →
      decide (v ≠ .null) = decide (w ≠ .null) := fun v w h => by
    rw [decide_eq_decide, not_iff_not, ← Comparison.groupKey_eq_null_iff, h,
      Comparison.groupKey_eq_null_iff]
  rw [firsts_congr (fun v w => Comparison.groupKey_singleton_iff), List.countP_eq_length_filter,
    ← firsts_filter hnull, length_firsts]

section
open Catalog (Column Step)
open Plan
open Query (Model)

variable {catalog : Catalog} {m m' : Model} {c c' : Checked} {l l' : Layout} {root : EntityType}
  {label : String} {column : Column} {path : List Step} {scope : Scope.Resolved}
  {os os' : List (Nat × Sorting.SortOrder)} {tables : Tables} {specials : Specials} {v : Value}

lemma mainRows_of_far_nil (hc : catalog.WellFormed) (ha : catalog.DistinctAliases) (hs : l.Sound catalog)
    (hfar : l.far = []) (row : Row) :
    Run.mainRows ⟨tables, specials, l.plan catalog c scope os⟩ row =
      (tables.spread l.root.aliasName l.mainSteps row).filter (l.isMain specials) := by
  obtain ⟨hjoins, hpredicates, -, -⟩ := l.plan_of_far_nil hfar catalog c scope os
  simp only [Run.mainRows, Run.rowsAlong, hjoins, hpredicates]
  exact hs.mainRows_eq hc ha

lemma isSome_row?_of_value? {b : Binding} {column : ColumnRef} (h : b.value? column = some v) :
    (b.row? column.aliasName).isSome := by
  obtain ⟨row, hrow, -⟩ := Option.bind_eq_some_iff.1 h
  exact hrow ▸ rfl

/-- The main rows of both queries have the same values in the column. Where it is counted, rows may go
without it, but then they have no value; where it is listed, no other rows are dropped. -/
theorem exists_mainRow_iff (hc : catalog.WellFormed) (ha : catalog.DistinctAliases) (hs : l.Sound catalog)
    (hs' : l'.Sound catalog) (h : l.Twins l' label column path) (row : Row) :
    (∃ b ∈ Run.mainRows ⟨tables, specials, l.plan catalog c scope os⟩ row,
        b.value? (.ofColumn column) = some v) ↔
      ∃ b ∈ Run.mainRows ⟨tables, specials, l'.plan catalog c' scope os'⟩ row,
        b.value? (.ofColumn column) = some v := by
  rw [mainRows_of_far_nil hc ha hs h.far, mainRows_of_far_nil hc ha hs' h.far']
  have hplaced : (⟨⟨label, none⟩, column, path⟩ : Placed Query.Projection) ∈ l.projections :=
    h.projections ▸ List.mem_singleton_self _
  have hpath : catalog.path? l.root column.entity = some path := (hs.projection _ hplaced).1
  have hsteps : path ⊆ l.mainSteps := fun s hmem =>
    Layout.neededSteps_subset (h.mem_neededSteps.2 (.inl hmem))
  have hbound := mem_boundBy_of_path hc hpath hsteps
  have hbound' := mem_boundBy_of_path hc hpath fun s hmem => h.mem_mainSteps.2 (hsteps hmem)
  constructor
  · rintro ⟨b, hb, hv⟩
    obtain ⟨hb, hmain⟩ := List.mem_filter.1 hb
    obtain ⟨hneeded, hsat⟩ := Layout.isMain_iff.1 hmain
    obtain ⟨b', hb', hagree⟩ := hs.exists_mainRow hs' hc ha h.root (fun s => h.mem_mainSteps.1) hb
      (fun s hmem => hneeded s (h.mem_neededSteps.2 (.inr hmem))) (h.predicates_eq ▸ hsat)
    refine ⟨b', hb', (hagree.value?_eq ?_).trans hv⟩
    exact h.root ▸ hbound'
  · rintro ⟨b, hb, hv⟩
    obtain ⟨hb, hmain⟩ := List.mem_filter.1 hb
    obtain ⟨hneeded, hsat⟩ := Layout.isMain_iff.1 hmain
    -- a row with a value is bound to the entity type of the column, and so to all of the path
    have hfollows := (((hs'.main_joins hc ha).2.chained hc ha).of_mem_spread hb).2.2
    have hwhole := isSome_of_path hc hpath (fun s hmem => hfollows s (h.mem_mainSteps.2 (hsteps hmem)))
      (isSome_row?_of_value? hv)
    obtain ⟨b', hb', hagree⟩ := hs'.exists_mainRow hs hc ha h.root.symm (fun s => h.mem_mainSteps.2) hb
      (fun s hmem => (h.mem_neededSteps.1 hmem).elim (hwhole s) (hneeded s)) (h.predicates_eq ▸ hsat)
    exact ⟨b', hb', (hagree.value?_eq hbound).trans hv⟩

lemma counts_of_twins (h : l.Twins l' label column path) :
    Run.counts ⟨tables, specials, l'.plan catalog c' scope os'⟩ =
      Run.counts ⟨tables, specials, l.plan catalog c scope os⟩ := by
  obtain ⟨-, -, -, hsubs⟩ := l.plan_of_far_nil h.far catalog c scope os
  obtain ⟨-, -, -, hsubs'⟩ := l'.plan_of_far_nil h.far' catalog c' scope os'
  funext row
  rw [Run.counts_eq_admits (by simp [hsubs']), Run.counts_eq_admits (by simp [hsubs])]
  apply Run.admits_congr <;> simp only [Layout.plan, h.root, h.fanned_eq]

/-- The same texts are counted in the rows of both queries. -/
theorem textsOf_of_twins (hc : catalog.WellFormed) (ha : catalog.DistinctAliases) (hs : l.Sound catalog)
    (hs' : l'.Sound catalog) (h : l.Twins l' label column path) (roots : List Row) :
    let x : Run := ⟨tables, specials, l.plan catalog c scope os⟩
    let y : Run := ⟨tables, specials, l'.plan catalog c' scope os'⟩
    textsOf (present ((x.bindings roots).map (·.value? (.ofColumn column)))) =
      textsOf (present ((y.bindings roots).map (·.value? (.ofColumn column)))) := by
  intro x y
  have hcounts : y.counts = x.counts := counts_of_twins h
  have hvalues : ∀ v, some v ∈ (x.bindings roots).map (·.value? (.ofColumn column)) ↔
      some v ∈ (y.bindings roots).map (·.value? (.ofColumn column)) := fun v => by
    simp only [Run.bindings, hcounts, List.map_flatMap, List.mem_flatMap, List.mem_map]
    exact exists_congr fun row => and_congr_right fun _ => exists_mainRow_iff hc ha hs hs' h row
  refine OrderedSet.ext_of_mem fun text => ?_
  simp only [mem_textsOf, mem_present, hvalues]

/-- What is listed are the values of the main rows, each one with the first row of its text. -/
lemma result_of_lists (h : l.Twins l' label column path) (roots : List Row)
    (hgroups : GroupsOnly (l.plan catalog c scope os)) :
    let x : Run := ⟨tables, specials, l.plan catalog c scope os⟩
    x.result roots = (firsts (fun v => Comparison.groupKey (.array [v]))
      ((x.bindings roots).map fun b => (b.value? (.ofColumn column)).getD .null)).map fun v => [v] := by
  intro x
  have hvalue : ∀ v : Option Value, groupValue none v = .ok (v.getD .null) := fun v => by
    unfold groupValue
    rcases v with _ | _ | _ <;> rfl
  have hvalues : ∀ b, groupValues x.plan b = [(b.value? (.ofColumn column)).getD .null] := fun b => by
    have hkeys : x.plan.groupKeys = [⟨0, .ofColumn column, none⟩] := by
      simp [x, Layout.plan, h.projections]
    rw [groupValues, hkeys, List.map_singleton, hvalue]
    rfl
  have htext : groupText x.plan =
      fun b => Comparison.groupKey (.array [(b.value? (.ofColumn column)).getD .null]) :=
    funext fun b => by rw [groupText, hvalues]
  rw [result_eq_groups hgroups, Run.groups, List.map_congr_left fun b _ => hvalues b, htext,
    ← firsts_map (fun v => Comparison.groupKey (.array [v])), List.map_map]
  rfl

/-- What is counted are the texts of the values of the main rows. -/
lemma result_of_countsDistinct (h : l.Twins l' label column path) (hc : Checked.Of catalog m' c')
    (hm : m'.CountsDistinct root label) (roots : List Row) :
    let y : Run := ⟨tables, specials, l'.plan catalog c' scope os'⟩
    y.result roots =
      [[.ofNat (textsOf (present ((y.bindings roots).map (·.value? (.ofColumn column))))).size]] := by
  intro y
  obtain ⟨-, -, hlocals, hsubs⟩ := l'.plan_of_far_nil h.far' catalog c' scope os'
  have hkeys : y.plan.groupKeys = [] := by simp [y, Layout.plan, h.projections']
  have houtputs : y.plan.outputs.length = 1 := by
    simp [y, Layout.plan, hc.outputs_eq, hm.projections, hm.aggregations]
  have hglobal : y.plan.isGlobal = true := List.isEmpty_iff.2 hkeys
  let number : Value := .ofNat (textsOf (present ((y.bindings roots).map (·.value? (.ofColumn column))))).size
  have hcell : y.localCell roots (Comparison.groupKey (.array [])) ⟨0, .countDistinct, .ofColumn column⟩ =
      (0, number) := by
    have hall : (y.bindings roots).filter (fun b => groupText y.plan b = Comparison.groupKey (.array [])) =
        y.bindings roots := List.filter_eq_self.2 fun b _ => by
      rw [groupText, groupValues, hkeys, List.map_nil, decide_eq_true_eq]
    rw [Run.localCell, hall, tally_countDistinct]
    rfl
  have hcells := y.cells_totals roots (Comparison.groupKey (.array []))
  rw [show y.plan.localAggregates = _ from hlocals, show y.plan.subExpressions = _ from hsubs, h.near',
    h.projections', aggregates, List.map_singleton, List.map_singleton, List.flatMap_nil,
    List.append_nil] at hcells
  change _ = [y.localCell _ _ ⟨0, .countDistinct, .ofColumn column⟩] at hcells
  rw [y.result_of_isGlobal roots hglobal, tuple, hcells, hcell, houtputs, hkeys]
  rfl

/-- Listing the values of a column and counting its distinct values agree: there are as many listed values
other than null as are counted, whatever is filtered, joined or ordered by. That the column can be listed
means that it does not fan out. -/
theorem grouping_agrees_with_distinct_count {declarations : Catalog.Declarations}
    {sort sort' : Sorting.Criteria} {p p' : Plan} {ts ts' : List Tuple}
    (hbuild : Catalog.build declarations = .ok catalog) (ha : catalog.DistinctAliases)
    (hm : m.Lists root label) (hm' : m'.CountsDistinct root label) (hfilters : m'.filters = m.filters)
    (hp : compile catalog m scope sort = .ok p) (hp' : compile catalog m' scope sort' = .ok p')
    (he : evaluate tables specials p = .ok ts) (he' : evaluate tables specials p' = .ok ts') :
    ∃ values : List Value, ts = values.map (fun v => [v]) ∧
      ts' = [[.ofNat (values.countP (· ≠ .null))]] := by
  have hc := Catalog.wellFormed_build hbuild
  have hgroups := groupsOnly_of_compile hm.aggregations hp
  obtain ⟨c, l, os, hcheck, hl, hs, -, rfl⟩ := exists_layout hc hp
  obtain ⟨c', l', os', hcheck', hl', hs', -, rfl⟩ := exists_layout hc hp'
  obtain ⟨column, path, h⟩ := exists_twins hm hm' hfilters hcheck hcheck' hl hl'
  let x : Run := ⟨tables, specials, l.plan catalog c scope os⟩
  let y : Run := ⟨tables, specials, l'.plan catalog c' scope os'⟩
  obtain ⟨-, -, hts⟩ := evaluate_eq_ok (x := x) he
  obtain ⟨-, -, hts'⟩ := evaluate_eq_ok (x := y) he'
  have hperm : ts.Perm (x.result x.roots) := hts ▸ List.mergeSort_perm _ _
  have hperm' : ts'.Perm (y.result y.roots) := hts' ▸ List.mergeSort_perm _ _
  have hroots : y.roots = x.roots := by simp only [x, y, Run.roots, Layout.plan, h.root]
  -- one tuple for each text of a value in the rows where the column is listed
  have hlisted : x.result x.roots = _ := result_of_lists h x.roots hgroups
  have hcounted : y.result y.roots = _ := result_of_countsDistinct h hcheck' hm' y.roots
  rw [hcounted, List.perm_singleton, hroots] at hperm'
  have htexts : textsOf (present ((x.bindings x.roots).map (·.value? (.ofColumn column)))) =
      textsOf (present ((y.bindings x.roots).map (·.value? (.ofColumn column)))) :=
    textsOf_of_twins hc ha hs hs' h x.roots
  rw [hlisted] at hperm
  obtain ⟨values, rfl, hsame⟩ := exists_eq_map_of_perm hperm
  refine ⟨values, rfl, ?_⟩
  rw [hperm', ← htexts, hsame.countP_eq, countP_firsts, present_eq_filter, List.map_map]
  rfl

/-- Tickets of teams that are named by a number, by a text and not at all, and one ticket of no team. -/
def helpDeskNamed : Tables :=
  .ofList [
    ("Team", [[("id", .string "r"), ("name", .ofNat 1)], [("id", .string "b"), ("name", .string "1")],
      [("id", .string "n")]]),
    ("Ticket", [[("id", .string "1"), ("team", .string "r")], [("id", .string "2"), ("team", .string "b")],
      [("id", .string "3"), ("team", .string "b")], [("id", .string "4"), ("team", .string "n")],
      [("id", .string "5")]])]

/-- Of the three names that are listed two are counted, for one is null. -/
theorem grouping_agrees_with_distinct_count_helpDesk :
    let involved : Query.Involved := (Query.Involved.add {} .axis "Team").add .measure "Team"
    let m : Model := { root := some "Ticket", involved := involved, projections := [⟨"TEAM_NAME", none⟩] }
    let m' : Model :=
      { root := some "Ticket", involved := involved, aggregations := [⟨"TEAM_NAME", .countDistinct⟩] }
    let ts : List Tuple := [[.ofNat 1], [.string "1"], [.null]]
    ∃ catalog p p', Catalog.build Catalog.helpDesk = .ok catalog ∧
      compile catalog m .unrestricted [] = .ok p ∧ compile catalog m' .unrestricted [] = .ok p' ∧
      evaluate helpDeskNamed .builtin p = .ok ts ∧
      evaluate helpDeskNamed .builtin p' = .ok [[.ofNat 2]] ∧
      ∃ values : List Value, ts = values.map (fun v => [v]) ∧
        [[Value.ofNat 2]] = [[.ofNat (values.countP (· ≠ .null))]] := by
  intro involved m m' ts
  obtain ⟨catalog, hbuild, h⟩ : ∃ catalog, Catalog.build Catalog.helpDesk = .ok catalog ∧
      (decide catalog.DistinctAliases && (compile catalog m .unrestricted []).toOption.any fun p =>
        Run.gives ⟨helpDeskNamed, .builtin, p⟩ ts &&
          (compile catalog m' .unrestricted []).toOption.any fun p' =>
            Run.gives ⟨helpDeskNamed, .builtin, p'⟩ [[.ofNat 2]]) :=
    Outcome.exists_of_any (by decide +kernel)
  obtain ⟨ha, hplans⟩ := Bool.and_eq_true_iff.1 h
  obtain ⟨p, hp, h⟩ := Outcome.exists_of_any hplans
  obtain ⟨hgives, h'⟩ := Bool.and_eq_true_iff.1 h
  obtain ⟨p', hp', hgives'⟩ := Outcome.exists_of_any h'
  have he := evaluate_of_gives hgives
  have he' := evaluate_of_gives hgives'
  have hm : m.Lists "Ticket" "TEAM_NAME" := ⟨rfl, rfl, rfl⟩
  have hm' : m'.CountsDistinct "Ticket" "TEAM_NAME" := ⟨rfl, rfl, rfl⟩
  have hfilters : m'.filters = m.filters := rfl
  exact ⟨catalog, p, p', hbuild, hp, hp', he, he', grouping_agrees_with_distinct_count hbuild
    (of_decide_eq_true ha) hm hm' hfilters hp hp' he he'⟩

end

end Evaluation

end Tabulation
