import Tabulation.Plan.Compiler
import Tabulation.Proofs.Catalog.Acceptance
import Tabulation.Proofs.Catalog.Documents

/-! Saving a catalog and loading it again. What is saved lists entity types and columns by name, so the catalog
must not depend on the sequence in which these were declared. -/
namespace Tabulation.Catalog
open Outcome

/-- The same declarations but for the sequence of entity types and of columns. -/
structure Declarations.Alike (d d' : Declarations) : Prop where
  entities : d.entities.Perm d'.entities
  relations : d.relations = d'.relations
  columns : d.columns.Perm d'.columns

lemma Declarations.Alike.declares {d d' : Declarations} (h : d.Alike d') {e : EntityType} (he : d.Declares e) :
    d'.Declares e :=
  (h.entities.map _).subset he

lemma Declarations.Alike.consistent {d d' : Declarations} (h : d.Alike d') (hd : d.Consistent) :
    d'.Consistent where
  entities := (h.entities.map _).nodup_iff.1 hd.entities
  ends r hr := (hd.ends r (h.relations ▸ hr)).imp h.declares h.declares
  forest := h.relations ▸ hd.forest
  owners c hc := h.declares (hd.owners c (h.columns.mem_iff.2 hc))
  labels := (h.columns.map _).nodup_iff.1 hd.labels

lemma eq_foldlM_addEntity {entities : List Entity} {known : OrderedMap EntityType String}
    (h : entities.foldlM Forest.addEntity ∅ = .ok known) :
    known = .ofList (entities.map fun e => (e.name, e.primaryKey)) := by
  induction entities using List.reverseRecOn generalizing known with
  | nil =>
    cases h
    rfl
  | append_singleton entities e ih =>
    obtain ⟨before, hbefore, he⟩ := foldlM_append_singleton_eq_ok.1 h
    obtain ⟨-, rfl⟩ := addEntity_eq_ok.1 he
    simp only [ih hbefore, OrderedMap.ofList, List.map_append, List.foldl_append, List.map_singleton, List.foldl_cons,
      List.foldl_nil]

lemma columns_foldlM_addColumn {f : Forest} {columns : List Column} {catalog : Catalog}
    (h : columns.foldlM addColumn ⟨f, ∅, ∅⟩ = .ok catalog) :
    catalog.columns = .ofList (columns.map fun c => (c.label, c)) := by
  induction columns using List.reverseRecOn generalizing catalog with
  | nil =>
    cases h
    rfl
  | append_singleton columns c ih =>
    obtain ⟨before, hbefore, hc⟩ := foldlM_append_singleton_eq_ok.1 h
    obtain ⟨-, -, rfl⟩ := addColumn_eq_ok.1 hc
    simp only [ih hbefore, OrderedMap.ofList, List.map_append, List.foldl_append, List.map_singleton,
      List.foldl_cons, List.foldl_nil]

/-- What a catalog holds of its declarations. -/
structure Holds (catalog : Catalog) (d : Declarations) : Prop where
  entities : catalog.forest.entities = .ofList (d.entities.map fun e => (e.name, e.primaryKey))
  relations : catalog.forest.relations = d.relations
  columns : catalog.columns = .ofList (d.columns.map fun c => (c.label, c))
  lists : catalog.Lists catalog.forest d.columns

variable {d d' : Declarations} {catalog catalog' : Catalog}

lemma holds_of_build (h : build d = .ok catalog) : catalog.Holds d := by
  have hlists := lists_of_build h
  obtain ⟨f, hf, hcolumns⟩ := build_eq_ok.1 h
  obtain rfl := ((foldlM_addColumn f d.columns).2 catalog hcolumns).forest
  exact ⟨eq_foldlM_addEntity (Forest.build_eq_ok.1 hf).1, ((forestBuild_spec _ _).2 _ hf).relations,
    columns_foldlM_addColumn hcolumns, hlists⟩

/-- The labels of an entity type do not depend on the sequence of the columns. -/
lemma Lists.labels_eq {f f' : Forest} {cs cs' : List Column} (h : catalog.Lists f cs) (h' : catalog'.Lists f' cs')
    (hcolumns : cs.Perm cs') : catalog.labels = catalog'.labels := by
  refine OrderedMap.ext_of_get? fun e => ?_
  have hknown := h.known e
  simp only [hcolumns.mem_iff, ← h'.known e] at hknown
  have hlabels : catalog.labelsOf e = catalog'.labelsOf e := OrderedSet.ext_of_mem fun label => by
    simp only [h.labels, h'.labels, hcolumns.mem_iff]
  unfold labelsOf at hlabels
  cases hl : catalog.labels.get? e <;> cases hl' : catalog'.labels.get? e <;> simp_all

lemma Declarations.Consistent.names_nodup (h : d.Consistent) :
    ((d.entities.map fun e => (e.name, e.primaryKey)).map (·.1)).Nodup := by
  rw [List.map_map]
  exact h.entities

lemma Declarations.Consistent.labels_nodup (h : d.Consistent) :
    ((d.columns.map fun c => (c.label, c)).map (·.1)).Nodup := by
  rw [List.map_map]
  exact h.labels

lemma Holds.eq_of_alike (h : catalog.Holds d) (h' : catalog'.Holds d') (hd : d.Consistent) (halike : d.Alike d') :
    catalog = catalog' := by
  have hentities : catalog.forest.entities = catalog'.forest.entities := by
    rw [h.entities, h'.entities]
    exact OrderedMap.ofList_eq_of_perm (halike.entities.map _) hd.names_nodup
  have hforest : catalog.forest = catalog'.forest :=
    Forest.ext_of_relations hentities (h.relations.trans (halike.relations.trans h'.relations.symm))
  have hcolumns : catalog.columns = catalog'.columns := by
    rw [h.columns, h'.columns]
    exact OrderedMap.ofList_eq_of_perm (halike.columns.map _) hd.labels_nodup
  have hlabels := h.lists.labels_eq h'.lists halike.columns
  obtain ⟨_, _, _⟩ := catalog
  obtain ⟨_, _, _⟩ := catalog'
  simp_all

/-- The sequence in which entity types and columns are declared leaves no trace in the catalog. -/
theorem build_of_alike (h : build d = .ok catalog) (halike : d.Alike d') : build d' = .ok catalog := by
  have hd := exists_build_iff.1 ⟨catalog, h⟩
  obtain ⟨catalog', h'⟩ := exists_build_iff.2 (halike.consistent hd)
  rw [h', (holds_of_build h).eq_of_alike (holds_of_build h') hd halike]

/-- A catalog declares what it was built from. -/
lemma alike_declarations (h : build d = .ok catalog) : d.Alike catalog.declarations := by
  have hd := exists_build_iff.1 ⟨catalog, h⟩
  have hholds := holds_of_build h
  refine ⟨?_, hholds.relations.symm, ?_⟩
  · have hentries := (OrderedMap.entries_ofList_perm hd.names_nodup).map fun e => (⟨e.1, e.2⟩ : Entity)
    rw [← hholds.entities, List.map_map] at hentries
    simpa [declarations, Forest.entityList, Function.comp_def] using hentries.symm
  · have hentries := (OrderedMap.entries_ofList_perm hd.labels_nodup).map (·.2)
    rw [← hholds.columns, List.map_map] at hentries
    simpa [declarations, OrderedMap.values, Function.comp_def] using hentries.symm

/-- A catalog can be saved and loaded again. The catalog that is loaded gives every answer that the one gave
which was saved, about columns, entity types, paths and queries, and it is saved in the same way. -/
theorem reloaded_answers_alike (h : build d = .ok catalog) (source : String) :
    ∃ loaded, ofDocument source catalog.toJson.document = .ok loaded ∧
      (∀ text, Json.parse text = some catalog.toJson.document → ofText source text = .ok loaded) ∧
      (∀ label, loaded.find label = catalog.find label) ∧
      (∀ e, loaded.columnsOf e = catalog.columnsOf e) ∧
      (∀ e, loaded.forest.entity? e = catalog.forest.entity? e) ∧
      (∀ a b, loaded.path? a b = catalog.path? a b) ∧
      (∀ a b, loaded.fanOutKey? a b = catalog.fanOutKey? a b) ∧
      (∀ m scope sort, Plan.compile loaded m scope sort = Plan.compile catalog m scope sort) ∧
      loaded.toJson = catalog.toJson := by
  have hbuild : build catalog.declarations = .ok catalog := build_of_alike h (alike_declarations h)
  have hread : Declarations.reader catalog.toJson.document = some catalog.declarations :=
    Declarations.reader_document (f := id) catalog.declarations
  have hload : ofDocument source catalog.toJson.document = .ok catalog := by
    rw [ofDocument, hread]
    exact hbuild
  refine ⟨catalog, hload, fun text htext => ?_, fun _ => rfl, fun _ => rfl, fun _ => rfl, fun _ _ => rfl,
    fun _ _ => rfl, fun _ _ _ => rfl, rfl⟩
  rw [ofText, htext]
  exact hload

/-- The help desk, declared in another sequence than its names have. -/
theorem reloaded_answers_alike_helpDesk : ∃ catalog loaded, build helpDesk = .ok catalog ∧
    catalog.declarations.entities.map (·.name) = ["Note", "Team", "Ticket"] ∧
    ofDocument "helpdesk.json" catalog.toJson.document = .ok loaded ∧
    loaded.path? "Note" "Team" = catalog.path? "Note" "Team" ∧ loaded.toJson = catalog.toJson := by
  obtain ⟨catalog, hbuild, hnames⟩ : ∃ catalog, build helpDesk = .ok catalog ∧
      decide (catalog.declarations.entities.map (·.name) = ["Note", "Team", "Ticket"]) :=
    exists_of_any (by decide +kernel)
  obtain ⟨loaded, hload, -, -, -, -, hpath, -, -, hjson⟩ := reloaded_answers_alike hbuild "helpdesk.json"
  exact ⟨catalog, loaded, hbuild, of_decide_eq_true hnames, hload, hpath "Note" "Team", hjson⟩

end Tabulation.Catalog
