import Tabulation.Proofs.Plan.Binding

/-! What aliases stand for. An alias is joined once, for the first step that leads to an entity type of that
alias, so the aliases of a join list tell entity types apart if and only if the entity types on the ways to
its columns have different aliases. -/
namespace Tabulation.Plan

/-- The entity types on the ways from the root to columns, and the root. -/
def entitiesTo (catalog : Catalog) (root : EntityType) (columns : List ColumnRef) : List EntityType :=
  root :: (stepsTo catalog root columns).map (·.target)

/-- An alias stands for the root, or for the target of a join. -/
def StandsFor (root : EntityType) (joins : List Join) (aliasName : String) (e : EntityType) : Prop :=
  (aliasName = root.aliasName ∧ e = root) ∨ ∃ j ∈ joins, j.aliasName = aliasName ∧ j.step.target = e

/-- Every alias stands for one entity type: no join takes the alias of the root, and no step on the way to a
column is left out because its alias is taken. -/
structure Unambiguous (catalog : Catalog) (root : EntityType) (joins : List Join)
    (columns : List ColumnRef) : Prop where
  unique : ∀ aliasName e e', StandsFor root joins aliasName e → StandsFor root joins aliasName e' → e = e'
  rootAlias : ∀ j ∈ joins, j.aliasName ≠ root.aliasName
  complete : ∀ s ∈ stepsTo catalog root columns, ∃ j ∈ joins, j.step = s

variable {catalog : Catalog} {root : EntityType} {joins : List Join} {columns : List ColumnRef}

lemma mem_entitiesTo {e : EntityType} : e ∈ entitiesTo catalog root columns ↔
    e = root ∨ ∃ s ∈ stepsTo catalog root columns, s.target = e := by
  rw [entitiesTo, List.mem_cons, List.mem_map]

/-- What an alias stands for lies on a way, and goes by the alias. -/
lemma LeadsTo.mem_of_standsFor (h : LeadsTo catalog root joins columns) {aliasName : String}
    {e : EntityType} (he : StandsFor root joins aliasName e) :
    e ∈ entitiesTo catalog root columns ∧ aliasName = e.aliasName := by
  rw [mem_entitiesTo]
  rcases he with ⟨rfl, rfl⟩ | ⟨j, hj, rfl, rfl⟩
  · exact ⟨.inl rfl, rfl⟩
  · exact ⟨.inr ⟨_, h.covers.mem j hj, rfl⟩, h.covers.named j hj⟩

/-- Whatever lies on a way is stood for by its alias, unless its join has been left out. -/
lemma Unambiguous.standsFor (hu : Unambiguous catalog root joins columns)
    (h : LeadsTo catalog root joins columns) {e : EntityType} (he : e ∈ entitiesTo catalog root columns) :
    StandsFor root joins e.aliasName e := by
  rcases mem_entitiesTo.1 he with rfl | ⟨s, hs, rfl⟩
  · exact .inl ⟨rfl, rfl⟩
  · obtain ⟨j, hj, rfl⟩ := hu.complete s hs
    exact .inr ⟨j, hj, h.covers.named j hj, rfl⟩

/-- The aliases of a join list are unambiguous where those of the entity types on its ways are distinct. -/
theorem LeadsTo.unambiguous_iff (h : LeadsTo catalog root joins columns) (hc : catalog.WellFormed) :
    Unambiguous catalog root joins columns ↔ ∀ e ∈ entitiesTo catalog root columns,
      ∀ e' ∈ entitiesTo catalog root columns, e.aliasName = e'.aliasName → e = e' := by
  constructor
  · intro hu e he e' he' halias
    exact hu.unique _ e e' (hu.standsFor h he) (halias ▸ hu.standsFor h he')
  · intro hdistinct
    have htarget : ∀ s ∈ stepsTo catalog root columns, s.target ∈ entitiesTo catalog root columns :=
      fun s hs => mem_entitiesTo.2 (.inr ⟨s, hs, rfl⟩)
    refine ⟨fun aliasName e e' he he' => ?_, fun j hj halias => ?_, fun s hs => ?_⟩
    · obtain ⟨hmem, rfl⟩ := h.mem_of_standsFor he
      obtain ⟨hmem', halias⟩ := h.mem_of_standsFor he'
      exact hdistinct e hmem e' hmem' halias
    · have hmem := h.covers.mem j hj
      rw [h.covers.named j hj] at halias
      have hback := hdistinct _ (htarget _ hmem) root (mem_entitiesTo.2 (.inl rfl)) halias
      obtain ⟨x, -, path, hpath, hstep⟩ := mem_stepsTo.1 hmem
      exact Catalog.path?_target_ne hc hpath hstep hback
    · -- a join that has taken the alias of a step leads to the same entity type, so it is for that step
      obtain ⟨j, hj, halias⟩ := List.mem_map.1 (h.covers.taken s hs)
      have hmem := h.covers.mem j hj
      rw [h.covers.named j hj] at halias
      have hsame := hdistinct _ (htarget _ hmem) _ (htarget s hs) halias
      obtain ⟨x, -, path, hpath, hstep⟩ := mem_stepsTo.1 hmem
      obtain ⟨y, -, path', hpath', hstep'⟩ := mem_stepsTo.1 hs
      exact ⟨j, hj, Catalog.step_unique hc hpath hpath' hstep hstep' hsame⟩

end Tabulation.Plan
