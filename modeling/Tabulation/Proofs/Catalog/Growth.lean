import Tabulation.Catalog.Forest
import Tabulation.Proofs.Catalog.Links
import Tabulation.Proofs.Catalog.UnionFind
import Tabulation.Proofs.Ordered

/-! A forest as it grows. The roots above the positions of entity types are the positions of the names that the links
give to trees, so a relation is taken in if and only if its ends bear different ones. -/
namespace Tabulation.Catalog
open UnionFind Outcome

variable {names : List EntityType} {g g' : Growth names} {r : Relation}

/-- The root above an entity type is the one after which the links name its tree. -/
def Growth.Named (g : Growth names) : Prop :=
  ∀ i, names.get (g.trees.root i) = treeOf (linksOf g.relations) (names.get i)

lemma Growth.named_start (names : List EntityType) : (Growth.start names).Named := fun _ => rfl

lemma Growth.Named.root_eq_iff (hnames : names.Nodup) (hg : g.Named) {i j : Fin names.length} :
    g.trees.root i = g.trees.root j ↔
      treeOf (linksOf g.relations) (names.get i) = treeOf (linksOf g.relations) (names.get j) := by
  rw [← hg, ← hg]
  exact (hnames.injective_get.eq_iff).symm

lemma Growth.root_enter (g : Growth names) (r : Relation)
    (trees : Parents names.length (g.relations.length + 1)) (i : Fin names.length) :
    (g.enter r trees).trees.root i = trees.root i := by
  simp only [Parents.root, Growth.enter, List.length_append, List.length_singleton]

lemma Growth.Named.enter (hnames : names.Nodup) (hg : g.Named) {i j : Fin names.length}
    {trees : Parents names.length (g.relations.length + 1)} (hi : names.get i = r.source)
    (hj : names.get j = r.target) (h : g.trees.union? i j = some trees) : (g.enter r trees).Named := by
  intro m
  have hroot := (g.trees.union?_spec i j).2 trees h m
  have hlinks : linksOf (g.enter r trees).relations =
      ⟨r, treeOf (linksOf g.relations) r.source, treeOf (linksOf g.relations) r.target⟩ :: linksOf g.relations :=
    linksOf_append_singleton g.relations r
  rw [Growth.root_enter, hroot, hlinks, treeOf, apply_ite names.get]
  simp only [hg.root_eq_iff hnames, hg m, hg j, hi, hj]

/-- A relation is taken in if its ends are declared and in different trees. -/
theorem Growth.addRelation_spec (hnames : names.Nodup) (hg : g.Named) (r : Relation) :
    ((∃ g', g.addRelation r = .ok g') ↔ (r.source ∈ names ∧ r.target ∈ names) ∧
        treeOf (linksOf g.relations) r.source ≠ treeOf (linksOf g.relations) r.target) ∧
      ∀ g', g.addRelation r = .ok g' → g'.relations = g.relations ++ [r] ∧ g'.Named := by
  unfold Growth.addRelation
  cases hsource : names.finIdxOf? r.source with
  | none => simp [List.finIdxOf?_eq_none_iff.1 hsource]
  | some i =>
    have hi : names.get i = r.source := (List.finIdxOf?_eq_some_iff.1 hsource).1
    cases htarget : names.finIdxOf? r.target with
    | none => simp [List.finIdxOf?_eq_none_iff.1 htarget]
    | some j =>
      have hj : names.get j = r.target := (List.finIdxOf?_eq_some_iff.1 htarget).1
      have hmem : r.source ∈ names ∧ r.target ∈ names := ⟨hi ▸ names.get_mem i, hj ▸ names.get_mem j⟩
      have hunion := (g.trees.union?_spec i j).1
      rw [ne_eq, hg.root_eq_iff hnames, hi, hj] at hunion
      dsimp only
      cases htrees : g.trees.union? i j with
      | none => simpa [htrees, hmem] using hunion
      | some trees =>
        refine ⟨⟨fun _ => ⟨hmem, hunion.1 ⟨trees, htrees⟩⟩, fun _ => ⟨_, rfl⟩⟩, fun g' hg' => ?_⟩
        cases hg'
        exact ⟨rfl, hg.enter hnames hi hj htrees⟩

/-- What is known of the relations that are taken in. -/
structure Growth.Sound (g : Growth names) : Prop where
  named : g.Named
  linked : Linked (linksOf g.relations)
  declared : ∀ r ∈ g.relations, r.source ∈ names ∧ r.target ∈ names

lemma Growth.sound_start (names : List EntityType) : (Growth.start names).Sound :=
  ⟨named_start names, trivial, by simp [start]⟩

lemma Growth.Sound.addRelation (hnames : names.Nodup) (hg : g.Sound) (h : g.addRelation r = .ok g') : g'.Sound := by
  obtain ⟨haccepts, hkeeps⟩ := addRelation_spec hnames hg.named r
  obtain ⟨hends, htrees⟩ := haccepts.1 ⟨g', h⟩
  obtain ⟨hrelations, hnamed⟩ := hkeeps g' h
  refine ⟨hnamed, ?_, fun r' hr' => ?_⟩
  · rw [hrelations, linksOf_append_singleton]
    exact ⟨rfl, rfl, htrees, hg.linked⟩
  · rw [hrelations, List.mem_append, List.mem_singleton] at hr'
    rcases hr' with hr' | rfl
    · exact hg.declared r' hr'
    · exact hends

/-- The links of the trees that the relations join. -/
def Forest.links (f : Forest) : List Link := linksOf f.relations

/-- What building guarantees of a forest. -/
structure Forest.WellFormed (f : Forest) : Prop where
  linked : Linked f.links
  declared : ∀ r ∈ f.relations, f.contains r.source ∧ f.contains r.target

lemma Forest.contains_iff_mem_keys (f : Forest) (e : EntityType) : f.contains e ↔ e ∈ f.entities.keys :=
  OrderedMap.mem_keys_iff.symm

/-- The relations decide where they are entered. -/
lemma Forest.ext_of_relations {f f' : Forest} (hentities : f.entities = f'.entities)
    (hrelations : f.relations = f'.relations) : f = f' := by
  obtain ⟨_, _, _, rfl⟩ := f
  obtain ⟨_, _, _, rfl⟩ := f'
  subst hentities
  subst hrelations
  rfl

lemma Forest.build_eq_ok {entities : List Entity} {relations : List Relation} {f : Forest} :
    Forest.build entities relations = .ok f ↔ entities.foldlM Forest.addEntity ∅ = .ok f.entities ∧
      ∃ g, relations.foldlM Growth.addRelation (.start f.entities.keys) = .ok g ∧ g.relations = f.relations := by
  simp only [Forest.build, bind_eq_ok]
  constructor
  · rintro ⟨_, hentities, g, hg, h⟩
    cases h
    exact ⟨hentities, g, hg, rfl⟩
  · rintro ⟨hentities, g, hg, hrelations⟩
    exact ⟨_, hentities, g, hg, congrArg _ (Forest.ext_of_relations rfl hrelations)⟩

theorem wellFormed_of_build {entities : List Entity} {relations : List Relation} {f : Forest}
    (h : Forest.build entities relations = .ok f) : f.WellFormed := by
  obtain ⟨-, g, hg, hrelations⟩ := Forest.build_eq_ok.1 h
  have hsound : g.Sound := foldlM_keeps _ (fun g r g' hr hg => hg.addRelation f.entities.keys_nodup hr) hg
    (Growth.sound_start _)
  refine ⟨?_, fun r hr => ?_⟩
  · rw [Forest.links, ← hrelations]
    exact hsound.linked
  · rw [f.contains_iff_mem_keys, f.contains_iff_mem_keys]
    exact hsound.declared r (hrelations ▸ hr)

end Tabulation.Catalog
