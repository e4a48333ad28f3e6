import Mathlib.Combinatorics.SimpleGraph.Acyclic
import Tabulation.Proofs.Catalog.Path

/-! Relations as an undirected graph. The trees that relations are joined to as they are declared are the
connected components of this graph, and so are those below one root. -/
namespace Tabulation.Catalog
open SimpleGraph (edge)

/-- Entity types are neighbours if a relation connects them, whichever way it was declared. -/
def relationGraph (relations : List Relation) : SimpleGraph EntityType :=
  .fromEdgeSet {e | ∃ r ∈ relations, e = s(r.source, r.target)}

/-- Relations without a way round in a circle, whatever its length. -/
structure IsForest (relations : List Relation) : Prop where
  /-- None relates an entity type to itself. -/
  irreflexive : ∀ r ∈ relations, r.source ≠ r.target
  /-- No two of them are between the same entity types. -/
  simple : relations.Pairwise fun r r' => s(r.source, r.target) ≠ s(r'.source, r'.target)
  acyclic : (relationGraph relations).IsAcyclic

variable {relations : List Relation} {r : Relation} {a b : EntityType}

lemma relationGraph_adj : (relationGraph relations).Adj a b ↔
    (∃ r ∈ relations, s(a, b) = s(r.source, r.target)) ∧ a ≠ b := by
  simp [relationGraph]

lemma relationGraph_nil : relationGraph [] = ⊥ := by
  simp [relationGraph]

lemma relationGraph_cons :
    relationGraph (r :: relations) = relationGraph relations ⊔ edge r.source r.target := by
  ext a b
  rw [SimpleGraph.sup_adj, relationGraph_adj, relationGraph_adj, SimpleGraph.edge_adj]
  simp only [List.mem_cons, exists_eq_or_imp, Sym2.eq_iff]
  rw [← or_and_right, or_comm]

lemma relationGraph_congr {relations' : List Relation} (h : ∀ r, r ∈ relations ↔ r ∈ relations') :
    relationGraph relations = relationGraph relations' := by
  simp only [relationGraph, h]

lemma relationGraph_append_singleton :
    relationGraph (relations ++ [r]) = relationGraph relations ⊔ edge r.source r.target := by
  rw [← relationGraph_cons]
  exact relationGraph_congr fun r' => by simp [or_comm]

/-- A way in a graph with one edge more takes this edge once at most. -/
lemma reachable_sup_edge {G : SimpleGraph EntityType} {u v : EntityType} :
    (G ⊔ edge u v).Reachable a b ↔ G.Reachable a b ∨ (G.Reachable a u ∧ G.Reachable v b) ∨
      (G.Reachable a v ∧ G.Reachable u b) := by
  constructor
  · intro h
    rw [SimpleGraph.reachable_iff_reflTransGen] at h
    induction h with
    | refl => exact .inl .rfl
    | @tail x y _ hxy ih =>
      rcases SimpleGraph.sup_adj .. |>.1 hxy with hxy | hxy
      · exact ih.imp (·.trans hxy.reachable)
          (.imp (.imp_right (·.trans hxy.reachable)) (.imp_right (·.trans hxy.reachable)))
      · -- the way so far ends at one end of the new edge
        rcases (SimpleGraph.edge_adj .. |>.1 hxy).1 with ⟨rfl, rfl⟩ | ⟨rfl, rfl⟩
        · rcases ih with h | ⟨h, -⟩ | ⟨h, -⟩
          · exact .inr (.inl ⟨h, .rfl⟩)
          · exact .inr (.inl ⟨h, .rfl⟩)
          · exact .inl h
        · rcases ih with h | ⟨h, -⟩ | ⟨h, -⟩
          · exact .inr (.inr ⟨h, .rfl⟩)
          · exact .inl h
          · exact .inr (.inr ⟨h, .rfl⟩)
  · have hold : ∀ {x y}, G.Reachable x y → (G ⊔ edge u v).Reachable x y := fun h => h.mono le_sup_left
    have hnew : (G ⊔ edge u v).Reachable u v := by
      by_cases huv : u = v
      · rw [huv]
      · exact SimpleGraph.Adj.reachable (.inr (by simp [SimpleGraph.edge_adj, huv]))
    rintro (h | ⟨hau, hvb⟩ | ⟨hav, hub⟩)
    · exact hold h
    · exact ((hold hau).trans hnew).trans (hold hvb)
    · exact ((hold hav).trans hnew.symm).trans (hold hub)

/-- A relation more keeps a forest if it connects what was not connected. -/
theorem isForest_append_singleton : IsForest (relations ++ [r]) ↔
    IsForest relations ∧ ¬ (relationGraph relations).Reachable r.source r.target := by
  have hacyclic : (relationGraph (relations ++ [r])).IsAcyclic ↔ (relationGraph relations).IsAcyclic ∧
      ((relationGraph relations).Reachable r.source r.target →
        r.source = r.target ∨ (relationGraph relations).Adj r.source r.target) := by
    rw [relationGraph_append_singleton, SimpleGraph.isAcyclic_sup_fromEdgeSet_iff]
  constructor
  · rintro ⟨hirreflexive, hsimple, hgraph⟩
    rw [hacyclic] at hgraph
    rw [List.pairwise_append] at hsimple
    simp only [List.forall_mem_append, List.forall_mem_singleton] at hirreflexive hsimple
    refine ⟨⟨hirreflexive.1, hsimple.1, hgraph.1⟩, fun hreach => ?_⟩
    rcases hgraph.2 hreach with hsame | hadj
    · exact hirreflexive.2 hsame
    · obtain ⟨⟨r', hr', he⟩, -⟩ := relationGraph_adj.1 hadj
      exact hsimple.2.2 r' hr' he.symm
  · rintro ⟨⟨hirreflexive, hsimple, hgraph⟩, hreach⟩
    have hne : r.source ≠ r.target := fun he => hreach (he ▸ .rfl)
    refine ⟨?_, ?_, hacyclic.2 ⟨hgraph, fun h => absurd h hreach⟩⟩
    · simp only [List.forall_mem_append, List.forall_mem_singleton]
      exact ⟨hirreflexive, hne⟩
    · rw [List.pairwise_append]
      simp only [List.forall_mem_singleton]
      refine ⟨hsimple, List.pairwise_singleton _ _, fun r' hr' he => hreach ?_⟩
      exact (relationGraph_adj.2 ⟨⟨r', hr', he.symm⟩, hne⟩).reachable

/-- Entity types bear the name of the same tree if the relations of the links connect them. -/
theorem treeOf_eq_iff_reachable {ls : List Link} (h : Linked ls) :
    treeOf ls a = treeOf ls b ↔ (relationGraph (ls.map (·.relation))).Reachable a b := by
  induction ls generalizing a b with
  | nil => rw [List.map_nil, relationGraph_nil, SimpleGraph.reachable_bot, treeOf, treeOf]
  | cons l ls ih =>
    obtain ⟨hsource, htarget, hne, hls⟩ := h
    rw [List.map_cons, relationGraph_cons, reachable_sup_edge, ← ih hls, ← ih hls, ← ih hls, ← ih hls,
      ← ih hls, ← hsource, ← htarget]
    simp only [treeOf]
    split_ifs with ha hb hb
    · simp [ha, hb]
    · simp [ha, hne, Ne.symm hb]
    · simp [hb, ha, eq_comm]
    · simp [ha, Ne.symm hb]

/-- Entity types are below the same root if the relations that were taken in connect them. -/
theorem Growth.Sound.root_eq_iff_reachable {names : List EntityType} (hnames : names.Nodup) {g : Growth names}
    (hg : g.Sound) {i j : Fin names.length} : g.trees.root i = g.trees.root j ↔
      (relationGraph g.relations).Reachable (names.get i) (names.get j) := by
  have hsame : relationGraph ((linksOf g.relations).map (·.relation)) = relationGraph g.relations :=
    relationGraph_congr fun r => by rw [map_relation_linksOf, List.mem_reverse]
  rw [hg.named.root_eq_iff hnames, treeOf_eq_iff_reachable hg.linked, hsame]

end Tabulation.Catalog
