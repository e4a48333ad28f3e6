import Tabulation.Proofs.Catalog.Graph

/-! Which declarations make a catalog, and what the catalog then knows. Entity types, relations and
columns are entered one by one; each of the three loops accepts what has to hold of its own part of the
declarations. -/
namespace Tabulation.Catalog
open Outcome

namespace Declarations

def Declares (d : Declarations) (e : EntityType) : Prop := e ∈ d.entities.map (·.name)

/-- What has to hold of declarations. -/
structure Consistent (d : Declarations) : Prop where
  entities : (d.entities.map (·.name)).Nodup
  ends : ∀ r ∈ d.relations, d.Declares r.source ∧ d.Declares r.target
  forest : IsForest d.relations
  owners : ∀ c ∈ d.columns, d.Declares c.entity
  labels : (d.columns.map (·.label)).Nodup

end Declarations

lemma addEntity_eq_ok {known known' : OrderedMap EntityType String} {e : Entity} :
    Forest.addEntity known e = .ok known' ↔ known.get? e.name = none ∧ known' = known.insert e.name e.primaryKey := by
  unfold Forest.addEntity
  split_ifs with h
  · simp [Option.isSome_iff_ne_none.1 h]
  · have hnone : known.get? e.name = none := by simpa using h
    simp [hnone, eq_comm]

/-- Entity types are accepted if no name is taken twice. -/
theorem foldlM_addEntity (entities : List Entity) :
    ((∃ known, entities.foldlM Forest.addEntity ∅ = .ok known) ↔ (entities.map (·.name)).Nodup) ∧
      ∀ known, entities.foldlM Forest.addEntity ∅ = .ok known →
        ∀ name, name ∈ known.keys ↔ name ∈ entities.map (·.name) := by
  refine foldlM_accepts (fun es => (es.map (·.name)).Nodup)
    (fun es known => ∀ name, name ∈ OrderedMap.keys known ↔ name ∈ es.map (·.name)) ?_ ?_ ?_ ?_ entities
  · exact ⟨List.nodup_nil, fun name => by
      simp [EmptyCollection.emptyCollection, OrderedMap.empty, OrderedMap.keys]⟩
  · intro es e h
    rw [List.map_append] at h
    exact h.of_append_left
  · rintro es e known hes hnames
    have hfresh : (∃ known', Forest.addEntity known e = .ok known') ↔ e.name ∉ es.map (·.name) := by
      simp only [addEntity_eq_ok, exists_and_left, exists_eq, and_true, ← hnames, OrderedMap.mem_keys_iff,
        Option.not_isSome_iff_eq_none]
    rw [hfresh, List.map_append, List.map_singleton, List.nodup_append]
    simp [hes]
  · rintro es e known known' hnames h name
    obtain ⟨-, rfl⟩ := addEntity_eq_ok.1 h
    rw [List.map_append, List.mem_append, ← hnames, OrderedMap.mem_keys_iff, OrderedMap.mem_keys_iff,
      OrderedMap.insert, OrderedMap.get?_alter]
    split_ifs with hname <;> simp [hname]

/-- Relations are accepted if their ends are declared and they are a forest. -/
theorem foldlM_addRelation {names : List EntityType} (hnames : names.Nodup) (relations : List Relation) :
    ((∃ g, relations.foldlM Growth.addRelation (.start names) = .ok g) ↔
        (∀ r ∈ relations, r.source ∈ names ∧ r.target ∈ names) ∧ IsForest relations) ∧
      ∀ g, relations.foldlM Growth.addRelation (.start names) = .ok g → g.relations = relations ∧ g.Sound := by
  refine foldlM_accepts
    (fun rs => (∀ r ∈ rs, r.source ∈ names ∧ r.target ∈ names) ∧ IsForest rs)
    (fun rs (g : Growth names) => g.relations = rs ∧ g.Sound) ?_ ?_ ?_ ?_ relations
  · refine ⟨⟨by simp, by simp, .nil, ?_⟩, rfl, Growth.sound_start names⟩
    rw [relationGraph_nil]
    exact SimpleGraph.isAcyclic_bot
  · rintro rs r ⟨hends, hforest⟩
    exact ⟨fun r' hr' => hends r' (List.mem_append_left _ hr'), (isForest_append_singleton.1 hforest).1⟩
  · rintro _ r g ⟨hends, hforest⟩ ⟨rfl, hsound⟩
    have hsame : relationGraph ((linksOf g.relations).map (·.relation)) = relationGraph g.relations :=
      relationGraph_congr fun r => by rw [map_relation_linksOf, List.mem_reverse]
    simp only [(Growth.addRelation_spec hnames hsound.named r).1, ne_eq, treeOf_eq_iff_reachable hsound.linked, hsame,
      isForest_append_singleton, List.forall_mem_append, List.forall_mem_singleton]
    tauto
  · rintro _ r g g' ⟨rfl, hsound⟩ h
    exact ⟨((Growth.addRelation_spec hnames hsound.named r).2 g' h).1, hsound.addRelation hnames h⟩

variable {catalog catalog' : Catalog}

lemma addColumn_eq_ok {c : Column} : catalog.addColumn c = .ok catalog' ↔
    catalog.forest.contains c.entity ∧ catalog.columns.get? c.label = none ∧ catalog' = { catalog with
      columns := catalog.columns.insert c.label c
      labels := catalog.labels.alter c.entity fun known => (known.getD ∅).insert c.label } := by
  unfold addColumn
  split_ifs with hentity hlabel
  · simp [Option.isSome_iff_ne_none.1 hlabel]
  · have hnone : catalog.columns.get? c.label = none := by simpa using hlabel
    simp [hentity, hnone, eq_comm]
  · simp [hentity]

/-- The labels of the columns of `entity`. -/
def labelsOf (catalog : Catalog) (entity : EntityType) : OrderedSet String := (catalog.labels.get? entity).getD ∅

/-- What a catalog knows of the columns that were entered. -/
structure Lists (catalog : Catalog) (f : Forest) (entered : List Column) : Prop where
  forest : catalog.forest = f
  columns : ∀ label c, catalog.columns.get? label = some c ↔ c ∈ entered ∧ c.label = label
  known : ∀ entity, (catalog.labels.get? entity).isSome ↔ ∃ c ∈ entered, c.entity = entity
  labels : ∀ entity label, label ∈ (catalog.labelsOf entity).toList ↔ ∃ c ∈ entered, c.entity = entity ∧ c.label = label

lemma Lists.addColumn {f : Forest} {cs : List Column} {c : Column} (hc : catalog.Lists f cs)
    (h : catalog.addColumn c = .ok catalog') : catalog'.Lists f (cs ++ [c]) := by
  obtain ⟨-, hfresh, rfl⟩ := addColumn_eq_ok.1 h
  refine ⟨hc.forest, fun label c' => ?_, fun entity => ?_, fun entity label => ?_⟩
  · rw [OrderedMap.insert, OrderedMap.get?_alter, List.mem_append, List.mem_singleton]
    split_ifs with hlabel
    · subst hlabel
      have hnot : ¬ (c' ∈ cs ∧ c'.label = c.label) := by
        rw [← hc.columns, hfresh]
        simp
      simp
      tauto
    · rw [hc.columns]
      constructor
      · exact fun h => ⟨.inl h.1, h.2⟩
      · rintro ⟨h | rfl, hl⟩
        · exact ⟨h, hl⟩
        · exact absurd hl.symm hlabel
  · rw [OrderedMap.get?_alter]
    split_ifs with hentity
    · simp [hentity]
    · rw [hc.known]
      simp only [List.mem_append, List.mem_singleton, or_and_right, exists_or, exists_eq_left, Ne.symm hentity,
        or_false]
  · have hlabels := hc.labels entity label
    unfold labelsOf at hlabels ⊢
    rw [OrderedMap.get?_alter]
    split_ifs with hentity
    · subst hentity
      rw [Option.getD_some, OrderedSet.mem_insert, hlabels]
      simp only [List.mem_append, List.mem_singleton, or_and_right, exists_or, exists_eq_left, true_and,
        eq_comm (a := label), or_comm]
    · rw [hlabels]
      simp only [List.mem_append, List.mem_singleton, or_and_right, exists_or, exists_eq_left, Ne.symm hentity,
        false_and, or_false]

/-- Columns are accepted if their entity types are declared and no label is taken twice. -/
theorem foldlM_addColumn (f : Forest) (columns : List Column) :
    ((∃ catalog, columns.foldlM addColumn ⟨f, ∅, ∅⟩ = .ok catalog) ↔
        (∀ c ∈ columns, f.contains c.entity) ∧ (columns.map (·.label)).Nodup) ∧
      ∀ catalog, columns.foldlM addColumn ⟨f, ∅, ∅⟩ = .ok catalog → catalog.Lists f columns := by
  refine foldlM_accepts (fun cs => (∀ c ∈ cs, f.contains c.entity) ∧ (cs.map (·.label)).Nodup)
    (fun cs catalog => Lists catalog f cs) ?_ ?_ ?_ ?_ columns
  · have hempty : ∀ (κ α : Type) [Ord κ] [BEq κ] (k : κ), (∅ : OrderedMap κ α).get? k = none := fun _ _ _ _ _ => rfl
    have hnone : (∅ : OrderedSet String).toList = [] := rfl
    exact ⟨by simp, rfl, by simp [hempty], by simp [hempty], by simp [labelsOf, hempty, hnone]⟩
  · rintro cs c ⟨howners, hlabels⟩
    rw [List.map_append] at hlabels
    exact ⟨fun c' hc' => howners c' (List.mem_append_left _ hc'), hlabels.of_append_left⟩
  · rintro cs c catalog ⟨howners, hlabels⟩ ⟨rfl, hfound, -, -⟩
    have hfresh : catalog.columns.get? c.label = none ↔ c.label ∉ cs.map (·.label) := by
      rw [Option.eq_none_iff_forall_ne_some]
      simp [hfound]
    simp only [addColumn_eq_ok, exists_and_left, exists_eq, and_true, hfresh, List.forall_mem_append,
      List.forall_mem_singleton, List.map_append, List.map_singleton, List.nodup_append]
    simp [hlabels]
    tauto
  · exact fun cs c catalog catalog' hc h => hc.addColumn h

variable {d : Declarations}

lemma build_eq_ok : build d = .ok catalog ↔ ∃ f, Forest.build d.entities d.relations = .ok f ∧
    d.columns.foldlM addColumn ⟨f, ∅, ∅⟩ = .ok catalog := by
  rw [build, bind_eq_ok]

/-- What is known of a forest that was built. -/
structure Forest.Of (entities : List Entity) (relations : List Relation) (f : Forest) : Prop where
  declared : ∀ name, f.contains name ↔ name ∈ entities.map (·.name)
  relations : f.relations = relations
  wellFormed : f.WellFormed

/-- A forest is built of entity types with different names, if the relations are between them and are a forest. -/
theorem forestBuild_spec (entities : List Entity) (relations : List Relation) :
    ((∃ f, Forest.build entities relations = .ok f) ↔ (entities.map (·.name)).Nodup ∧
        (∀ r ∈ relations, r.source ∈ entities.map (·.name) ∧ r.target ∈ entities.map (·.name)) ∧
          IsForest relations) ∧
      ∀ f, Forest.build entities relations = .ok f → f.Of entities relations := by
  obtain ⟨haccepts, hknown⟩ := foldlM_addEntity entities
  have hkeys : ∀ known : OrderedMap EntityType String, known.keys.Nodup := OrderedMap.keys_nodup
  have hrelations := fun known => foldlM_addRelation (hkeys known) relations
  constructor
  · constructor
    · rintro ⟨f, hf⟩
      obtain ⟨hentities, g, hg, -⟩ := Forest.build_eq_ok.1 hf
      have hends := (hrelations f.entities).1.1 ⟨g, hg⟩
      simp only [hknown _ hentities] at hends
      exact ⟨haccepts.1 ⟨_, hentities⟩, hends⟩
    · rintro ⟨hnodup, hends⟩
      obtain ⟨known, hentities⟩ := haccepts.2 hnodup
      simp only [← hknown _ hentities] at hends
      obtain ⟨g, hg⟩ := (hrelations known).1.2 hends
      exact ⟨⟨known, g.relations, g.adjacency, g.adjacent⟩, Forest.build_eq_ok.2 ⟨hentities, g, hg, rfl⟩⟩
  · intro f hf
    obtain ⟨hentities, g, hg, hsame⟩ := Forest.build_eq_ok.1 hf
    refine ⟨fun name => ?_, hsame ▸ ((hrelations f.entities).2 g hg).1, wellFormed_of_build hf⟩
    rw [f.contains_iff_mem_keys, hknown _ hentities]

/-- Building succeeds on consistent declarations only, and on all of them. -/
theorem exists_build_iff : (∃ catalog, build d = .ok catalog) ↔ d.Consistent := by
  obtain ⟨haccepts, hforest⟩ := forestBuild_spec d.entities d.relations
  simp only [build_eq_ok]
  constructor
  · rintro ⟨catalog, f, hf, hcolumns⟩
    obtain ⟨hnames, hends, hrelations⟩ := haccepts.1 ⟨f, hf⟩
    obtain ⟨howners, hlabels⟩ := (foldlM_addColumn f d.columns).1.1 ⟨catalog, hcolumns⟩
    exact ⟨hnames, hends, hrelations, fun c hc => ((hforest f hf).declared _).1 (howners c hc), hlabels⟩
  · rintro ⟨hnames, hends, hrelations, howners, hlabels⟩
    obtain ⟨f, hf⟩ := haccepts.2 ⟨hnames, hends, hrelations⟩
    obtain ⟨catalog, hcolumns⟩ := (foldlM_addColumn f d.columns).1.2
      ⟨fun c hc => ((hforest f hf).declared _).2 (howners c hc), hlabels⟩
    exact ⟨catalog, f, hf, hcolumns⟩

lemma lists_of_build (h : build d = .ok catalog) : catalog.Lists catalog.forest d.columns := by
  obtain ⟨f, -, hcolumns⟩ := build_eq_ok.1 h
  have hlists := (foldlM_addColumn f d.columns).2 catalog hcolumns
  rwa [hlists.forest]

lemma column?_of_build (h : build d = .ok catalog) (label : String) (c : Column) :
    catalog.column? label = some c ↔ c ∈ d.columns ∧ c.label = label :=
  (lists_of_build h).columns label c

lemma find_of_build (h : build d = .ok catalog) (label : String) :
    (∀ c, catalog.find label = .ok c ↔ c ∈ d.columns ∧ c.label = label) ∧
      (catalog.find label = .error (.columnNotFound label) ↔ ∀ c ∈ d.columns, c.label ≠ label) := by
  have hcolumn := column?_of_build h label
  unfold find
  cases hfound : catalog.column? label with
  | none =>
    simp only [hfound, reduceCtorEq, false_iff, not_and] at hcolumn
    simpa using hcolumn
  | some c =>
    have hc := (hcolumn c).1 hfound
    refine ⟨fun c' => ?_, ?_⟩
    · rw [← hcolumn, hfound]
      simp
    · simpa using ⟨c, hc⟩

/-- The columns of an entity type are those that were declared of it, by label. -/
theorem columnsOf_of_build (h : build d = .ok catalog) (e : EntityType) :
    (catalog.columnsOf e).Perm (d.columns.filter fun c => c.entity = e) ∧
      (catalog.columnsOf e).Pairwise fun c c' => compare c.label c'.label = .lt := by
  have hcolumn := column?_of_build h
  have hlabels := (lists_of_build h).labels e
  have hsorted : (catalog.columnsOf e).Pairwise fun c c' => compare c.label c'.label = .lt := by
    refine List.pairwise_filterMap.2 ((catalog.labelsOf e).ascending.imp fun {label label'} hlt c hc c' hc' => ?_)
    rwa [((hcolumn label c).1 hc).2, ((hcolumn label' c').1 hc').2]
  have hnodup := (exists_build_iff.1 ⟨catalog, h⟩).labels
  refine ⟨(List.perm_ext_iff_of_nodup (hsorted.imp ?_) (.filter _ (.of_map _ hnodup))).2 fun c => ?_, hsorted⟩
  · rintro c c' hcc rfl
    simp [Std.ReflCmp.compare_self] at hcc
  · have hmem : c ∈ catalog.columnsOf e ↔
        ∃ label ∈ (catalog.labelsOf e).toList, catalog.column? label = some c := List.mem_filterMap
    simp only [hmem, hlabels, hcolumn, List.mem_filter, decide_eq_true_eq]
    constructor
    · rintro ⟨_, ⟨c', hc', rfl, rfl⟩, hc, hlabel⟩
      obtain rfl := List.inj_on_of_nodup_map hnodup hc hc' hlabel
      exact ⟨hc, rfl⟩
    · rintro ⟨hc, rfl⟩
      exact ⟨c.label, ⟨c, hc, rfl, rfl⟩, hc, rfl⟩

/-- Declarations make a catalog if and only if the names of entity types and the labels of columns are
distinct, what relations and columns name is declared, and the relations are a forest. In the catalog
the columns are found by label and by entity type as they were declared, and nothing else is. -/
theorem builds_iff_consistent (d : Declarations) :
    ((∃ catalog, build d = .ok catalog) ↔ d.Consistent) ∧
      ∀ catalog, build d = .ok catalog →
        (∀ e, (catalog.columnsOf e).Perm (d.columns.filter fun c => c.entity = e) ∧
          (catalog.columnsOf e).Pairwise fun c c' => compare c.label c'.label = .lt) ∧
        ∀ label, (∀ c, catalog.find label = .ok c ↔ c ∈ d.columns ∧ c.label = label) ∧
          (catalog.find label = .error (.columnNotFound label) ↔
            ∀ c ∈ d.columns, c.label ≠ label) :=
  ⟨exists_build_iff, fun _ h => ⟨columnsOf_of_build h, find_of_build h⟩⟩

/-- The help desk is consistent. Tickets have the two columns that were declared, and none for hours. -/
theorem builds_iff_consistent_helpDesk : helpDesk.Consistent ∧
    ∃ catalog, build helpDesk = .ok catalog ∧
      (catalog.columnsOf "Ticket").Perm (helpDesk.columns.filter fun c => c.entity = "Ticket") ∧
      catalog.find "TICKET_HOURS" = .error (.columnNotFound "TICKET_HOURS") := by
  obtain ⟨hiff, hfound⟩ := builds_iff_consistent helpDesk
  obtain ⟨catalog, hbuild, -⟩ : ∃ catalog, build helpDesk = .ok catalog ∧ true :=
    exists_of_any (by decide +kernel)
  obtain ⟨hcolumns, hlabels⟩ := hfound catalog hbuild
  exact ⟨hiff.1 ⟨catalog, hbuild⟩, catalog, hbuild, (hcolumns "Ticket").1,
    (hlabels "TICKET_HOURS").2.2 (by decide)⟩

end Tabulation.Catalog
