import Tabulation.Proofs.Plan.Joins

/-! The filters of a plan on entity types to which the root fans out. They are the active filters of the
query, brought together by entity type: none is lost, and none ends up with another entity type. -/
namespace Tabulation.Plan
open Catalog (Column FanOutKey)
open Query (Model Filter)
open Outcome

/-- Filters stand in the order of their entity types. -/
def InOrder (fs : List (Placed Filter)) : Prop :=
  fs.Pairwise fun f g => (compare f.entity g.entity).isLE

/-- The groups of ordered filters are in the order of their entity types, with no entity type twice. -/
lemma pairwise_groupFilters {fs : List (Placed Filter)} (h : InOrder fs) :
    (groupFilters fs).Pairwise fun g g' => compare g.entity g'.entity = .lt := by
  induction fs with
  | nil => exact .nil
  | cons f fs ih =>
    obtain ⟨hfirst, hfs⟩ := List.pairwise_cons.1 h
    have hgroups := ih hfs
    unfold groupFilters
    split
    · exact List.pairwise_singleton _ _
    · rename_i g gs hgs
      rw [hgs] at hgroups
      obtain ⟨hg, hgs'⟩ := List.pairwise_cons.1 hgroups
      split_ifs with he
      · exact List.pairwise_cons.2 ⟨fun g' hg' => he ▸ hg g' hg', hgs'⟩
      · obtain ⟨⟨x, hx, hxe, -⟩, -, -⟩ := mem_groupFilters (hgs ▸ List.mem_cons_self : g ∈ groupFilters fs)
        have hlt : compare f.entity g.entity = .lt := by
          have hle := hfirst x hx
          rw [← hxe] at hle
          rcases hcmp : compare f.entity g.entity with _ | _ | _
          · rfl
          · exact absurd (Std.LawfulEqOrd.eq_of_compare hcmp).symm he
          · rw [hcmp] at hle
            cases hle
        refine List.pairwise_cons.2 ⟨fun g' hg' => ?_, hgroups⟩
        rcases List.mem_cons.1 hg' with rfl | hg'
        · exact hlt
        · exact Std.TransCmp.lt_trans hlt (hg g' hg')

/-- Every filter is in a group of its entity type. -/
lemma exists_mem_groupFilters {fs : List (Placed Filter)} {f : Placed Filter} (h : f ∈ fs) :
    ∃ g ∈ groupFilters fs, g.entity = f.entity ∧ .ofFilter f ∈ g.predicates := by
  induction fs with
  | nil => simp at h
  | cons first fs ih =>
    unfold groupFilters
    rcases List.mem_cons.1 h with rfl | h
    · split
      · exact ⟨_, List.mem_cons_self, rfl, List.mem_cons_self⟩
      · split_ifs
        · exact ⟨_, List.mem_cons_self, rfl, List.mem_cons_self⟩
        · exact ⟨_, List.mem_cons_self, rfl, List.mem_cons_self⟩
    · obtain ⟨g, hg, hge, hpredicate⟩ := ih h
      split
      · rename_i hnil
        simp [hnil] at hg
      · rename_i g' gs hgs
        rw [hgs] at hg
        split_ifs with he
        · rcases List.mem_cons.1 hg with rfl | hg
          · exact ⟨_, List.mem_cons_self, he.symm.trans hge, List.mem_cons_of_mem _ hpredicate⟩
          · exact ⟨g, List.mem_cons_of_mem _ hg, hge, hpredicate⟩
        · exact ⟨g, List.mem_cons_of_mem _ hg, hge, hpredicate⟩

/-- A group holds all filters on its entity type, and no others. -/
theorem mem_predicates_iff {fs : List (Placed Filter)} (h : InOrder fs) {g : FannedFilters}
    (hg : g ∈ groupFilters fs) {q : Predicate} :
    q ∈ g.predicates ↔ ∃ f ∈ fs, f.entity = g.entity ∧ q = .ofFilter f := by
  constructor
  · exact (mem_groupFilters hg).2.2 q
  · rintro ⟨f, hf, hfe, rfl⟩
    obtain ⟨g', hg', hge, hpredicate⟩ := exists_mem_groupFilters hf
    have hnodup : ((groupFilters fs).map (·.entity)).Nodup := by
      refine List.pairwise_map.2 ((pairwise_groupFilters h).imp fun hlt he => ?_)
      rw [he, Std.ReflOrd.compare_self] at hlt
      cases hlt
    have hsame : g' = g := List.inj_on_of_nodup_map hnodup hg' hg (hge.trans hfe)
    exact hsame ▸ hpredicate

variable {catalog : Catalog} {m : Model} {c : Checked} {l : Layout}

lemma Layout.Of.inOrder (h : Layout.Of catalog c l) : InOrder l.filters := by
  have hsorted : (c.filters.mergeSort fun f g => (compare f.entity g.entity).isLE).Pairwise
      fun f g => (compare f.entity g.entity).isLE :=
    pairwise_mergeSort (compareOn Found.entity) c.filters
  have hplaced : placeFilters catalog l.root c = .ok l.filters := h.filters
  have hentities : l.filters.map Placed.entity =
      (c.filters.mergeSort fun f g => (compare f.entity g.entity).isLE).map Found.entity := by
    have hforall := (mapM_eq_ok.1 hplaced).imp fun f x hx =>
      (congrArg Column.entity (path?_of_place hx).2.1 : x.entity = f.entity)
    symm
    rw [← List.forall₂_eq_eq_eq, List.forall₂_map_left_iff, List.forall₂_map_right_iff]
    exact hforall.imp fun _ _ => Eq.symm
  have hmapped : (l.filters.map Placed.entity).Pairwise fun a b => (compare a b).isLE := by
    rw [hentities]
    exact List.pairwise_map.2 hsorted
  exact List.pairwise_map.1 hmapped

/-- What is placed of the filters are those that are active, with the columns of their labels. -/
lemma Layout.Of.mem_filters (hm : Checked.Of catalog m c) (h : Layout.Of catalog c l) {f : Filter}
    {column : Column} : (∃ x ∈ l.filters, x.use = f ∧ x.column = column) ↔
      f ∈ m.filters ∧ f.isActive ∧ catalog.column? f.label = some column := by
  have hplaced : placeFilters catalog l.root c = .ok l.filters := h.filters
  obtain ⟨found, hfound, hactive⟩ := hm.filters
  constructor
  · rintro ⟨x, hx, rfl, rfl⟩
    obtain ⟨y, hy, hplace⟩ := exists_of_mem_mapM hplaced hx
    obtain ⟨huse, hcolumn, -⟩ := path?_of_place hplace
    rw [List.mem_mergeSort, hactive, List.mem_filter] at hy
    obtain ⟨f, hf, hcheck⟩ := exists_of_mem_mapM hfound hy.1
    obtain ⟨rfl, hlabel⟩ := column?_of_checkFilter hcheck
    rw [huse, hcolumn]
    exact ⟨hf, hy.2, hlabel⟩
  · rintro ⟨hf, hon, hlabel⟩
    obtain ⟨y, hy, hcheck⟩ := exists_mem_of_mapM hfound hf
    obtain ⟨rfl, hlabel'⟩ := column?_of_checkFilter hcheck
    have hsorted : y ∈ c.filters.mergeSort fun f g => (compare f.entity g.entity).isLE := by
      rw [List.mem_mergeSort, hactive]
      exact List.mem_filter.2 ⟨hy, hon⟩
    obtain ⟨x, hx, hplace⟩ := exists_mem_of_mapM hplaced hsorted
    obtain ⟨huse, hcolumn, -⟩ := path?_of_place hplace
    exact ⟨x, hx, huse, hcolumn.trans (Option.some.inj (hlabel'.symm.trans hlabel))⟩

/-- The predicate of a filter on a column. -/
def Predicate.on (f : Filter) (column : Column) : Predicate :=
  ⟨.ofColumn column, f.operation, f.values⟩

/-- The predicates of a group are all active filters on columns of its entity type. -/
theorem Layout.Sound.mem_predicates (hs : l.Sound catalog) (hm : Checked.Of catalog m c)
    (h : Layout.Of catalog c l) {g : FannedFilters} (hg : g ∈ l.fanned) {q : Predicate} :
    q ∈ g.predicates ↔ ∃ f ∈ m.filters, f.isActive ∧ ∃ column, catalog.column? f.label = some column ∧
      column.entity = g.entity ∧ q = .on f column := by
  have hfan := (hs.fanned_path hg)
  rw [mem_predicates_iff (h.inOrder.filter _) hg]
  constructor
  · rintro ⟨x, hx, hxe, rfl⟩
    obtain ⟨hf, hon, hlabel⟩ := (h.mem_filters hm).1 ⟨x, (List.mem_filter.1 hx).1, rfl, rfl⟩
    exact ⟨_, hf, hon, _, hlabel, hxe, rfl⟩
  · rintro ⟨f, hf, hon, column, hlabel, hentity, rfl⟩
    obtain ⟨x, hx, rfl, rfl⟩ := (h.mem_filters hm).2 ⟨hf, hon, hlabel⟩
    have hpath := hs.filter x hx
    have hxe : x.entity = g.entity := hentity
    rw [hxe, hfan.1, Option.some.injEq] at hpath
    refine ⟨x, List.mem_filter.2 ⟨hx, ?_⟩, hxe, rfl⟩
    simpa [Placed.key, ← hpath] using hfan.2

/-- There is a group for every entity type to which the root fans out and that is filtered. -/
theorem Layout.Sound.exists_fanned (hs : l.Sound catalog) (hm : Checked.Of catalog m c)
    (h : Layout.Of catalog c l) {f : Filter} (hf : f ∈ m.filters) (hon : f.isActive) {column : Column}
    (hlabel : catalog.column? f.label = some column) {path : List Catalog.Step}
    (hpath : catalog.path? l.root column.entity = some path)
    (hfan : ¬ (FanOutKey.ofSteps path).isRoot) :
    ∃ g ∈ l.fanned, g.entity = column.entity ∧ g.path = path := by
  obtain ⟨x, hx, rfl, rfl⟩ := (h.mem_filters hm).2 ⟨hf, hon, hlabel⟩
  have hxpath : x.path = path := Option.some.inj ((hs.filter x hx).symm.trans hpath)
  have hmem : x ∈ l.filters.filter fun f => ¬ f.key.isRoot :=
    List.mem_filter.2 ⟨hx, by simpa [Placed.key, hxpath] using hfan⟩
  obtain ⟨g, hg, hge, -⟩ := exists_mem_groupFilters hmem
  refine ⟨g, hg, hge, ?_⟩
  have hgpath := (hs.fanned_path hg).1
  rw [hge] at hgpath
  exact Option.some.inj (hgpath.symm.trans hpath)

end Tabulation.Plan
