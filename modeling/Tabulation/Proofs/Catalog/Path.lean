import Mathlib.Data.List.Induction
import Mathlib.Tactic.Lemma
import Tabulation.Catalog.Registry
import Tabulation.Proofs.Catalog.Search

/-! Paths in a catalog. Every beginning of a path is the path to the entity type where it ends, and
every rest the path from there. So a path visits no entity type twice. -/
namespace Tabulation.Catalog
open Outcome

/-- What building guarantees of a catalog: paths behave, and columns belong to declared entity
types. -/
structure WellFormed (catalog : Catalog) : Prop where
  forest : catalog.forest.WellFormed
  column : ∀ e ∈ catalog.columns.entries, catalog.forest.contains e.2.entity

lemma wellFormed_addColumn {catalog catalog' : Catalog} {c : Column} (h : catalog.addColumn c = .ok catalog')
    (hc : catalog.WellFormed) : catalog'.WellFormed := by
  unfold addColumn at h
  split_ifs at h with hf
  cases h
  refine ⟨hc.forest, fun e he => ?_⟩
  rcases OrderedMap.mem_insert he with rfl | he
  · simpa using hf
  · exact hc.column e he

theorem wellFormed_build {declarations : Declarations} {catalog : Catalog}
    (h : build declarations = .ok catalog) : catalog.WellFormed := by
  obtain ⟨forest, hforest, h⟩ := bind_eq_ok.1 h
  exact foldlM_keeps WellFormed (fun _ _ _ h hc => wellFormed_addColumn h hc) h
    ⟨wellFormed_of_build hforest, by simp [EmptyCollection.emptyCollection, OrderedMap.empty]⟩

variable {catalog : Catalog} {a b : EntityType} {path p q : List Step} {s t : Step}

lemma contains_of_path? (h : catalog.path? a b = some path) :
    catalog.forest.contains a ∧ catalog.forest.contains b := by
  unfold path? Forest.path? at h
  split_ifs at h with hab
  all_goals exact hab

lemma path?_eq_linkedPath (hc : catalog.WellFormed) (ha : catalog.forest.contains a)
    (hb : catalog.forest.contains b) : catalog.path? a b = linkedPath catalog.forest.links a b :=
  Forest.path?_eq_linkedPath hc.forest ha hb

lemma linkedPath_of_path? (hc : catalog.WellFormed) (h : catalog.path? a b = some path) :
    linkedPath catalog.forest.links a b = some path :=
  (path?_eq_linkedPath hc (contains_of_path? h).1 (contains_of_path? h).2).symm.trans h

lemma path?_self (ha : catalog.forest.contains a) : catalog.path? a a = some [] := by
  simp [path?, Forest.path?, ha]

lemma contains_of_mem_path? (hc : catalog.WellFormed) (h : catalog.path? a b = some path)
    (hs : s ∈ path) : catalog.forest.contains s.source ∧ catalog.forest.contains s.target := by
  obtain ⟨l, hl, hw⟩ := walks_of_mem_linkedPath hc.forest.linked (linkedPath_of_path? hc h) hs
  have hends := hc.forest.declared l.relation (mem_iff_exists_link.2 ⟨l, hl, rfl⟩)
  rcases hw with rfl | rfl
  · exact hends
  · exact hends.symm

theorem path?_split (hc : catalog.WellFormed) (h : catalog.path? a b = some (p ++ s :: q)) :
    catalog.path? a s.source = some p ∧ catalog.path? a s.target = some (p ++ [s]) ∧
      catalog.path? s.target b = some q := by
  obtain ⟨ha, hb⟩ := contains_of_path? h
  obtain ⟨hs, ht⟩ := contains_of_mem_path? hc h (List.mem_append_right p List.mem_cons_self)
  rw [path?_eq_linkedPath hc ha hs, path?_eq_linkedPath hc ha ht, path?_eq_linkedPath hc ht hb]
  exact linkedPath_split hc.forest.linked (linkedPath_of_path? hc h)

lemma path?_target (hc : catalog.WellFormed) (h : catalog.path? a b = some (p ++ [s])) :
    s.target = b := by
  simpa using target_of_linkedPath hc.forest.linked (linkedPath_of_path? hc h)

lemma path?_nil (hc : catalog.WellFormed) (h : catalog.path? a b = some []) : a = b := by
  simpa using target_of_linkedPath hc.forest.linked (linkedPath_of_path? hc h)

/-- No path comes back to where it starts. -/
theorem path?_target_ne (hc : catalog.WellFormed) (h : catalog.path? a b = some path)
    (hs : s ∈ path) : s.target ≠ a := by
  obtain ⟨p, q, rfl⟩ := List.append_of_mem hs
  intro hsa
  have hp := (path?_split hc h).2.1
  rw [hsa, path?_self (contains_of_path? h).1] at hp
  simp at hp

/-- No path takes a step twice. -/
theorem path?_nodup (hc : catalog.WellFormed) (h : catalog.path? a b = some path) :
    path.Nodup := by
  induction path using List.reverseRecOn generalizing b with
  | nil => simp
  | append_singleton path s ih =>
    obtain ⟨hsource, htarget, -⟩ := path?_split hc h
    rw [List.nodup_append]
    refine ⟨ih hsource, by simp, fun t ht t' ht' => ?_⟩
    obtain rfl := List.mem_singleton.1 ht'
    rintro rfl
    obtain ⟨p, q, rfl⟩ := List.append_of_mem ht
    have := (path?_split hc hsource).2.1
    rw [this] at htarget
    simp at htarget

/-- Steps on paths from one entity type that lead to one entity type are the same. -/
theorem step_unique (hc : catalog.WellFormed) {c : EntityType} {path' : List Step}
    (h : catalog.path? a b = some path) (h' : catalog.path? a c = some path') (hs : s ∈ path)
    (ht : t ∈ path') (hst : s.target = t.target) : s = t := by
  obtain ⟨p, q, rfl⟩ := List.append_of_mem hs
  obtain ⟨p', q', rfl⟩ := List.append_of_mem ht
  have hp := (path?_split hc h).2.1
  have hp' := (path?_split hc h').2.1
  rw [hst, hp'] at hp
  simpa using (List.append_inj' (Option.some.inj hp) rfl).2.symm

/-- Different entity types go by different alias names. -/
def DistinctAliases (catalog : Catalog) : Prop :=
  ∀ a b, catalog.forest.contains a → catalog.forest.contains b → a.aliasName = b.aliasName → a = b

instance (catalog : Catalog) : Decidable catalog.DistinctAliases :=
  decidable_of_iff
    (∀ a ∈ catalog.forest.entities.keys, ∀ b ∈ catalog.forest.entities.keys,
      a.aliasName = b.aliasName → a = b)
    (by
      simp only [DistinctAliases, Forest.contains_iff_mem_keys]
      exact ⟨fun h a b ha hb => h a ha b hb, fun h a ha b hb => h a b ha hb⟩)

/-- Teams with their tickets, and tickets with their notes. -/
def helpDesk : Declarations where
  entities := [⟨"Team", "id"⟩, ⟨"Ticket", "id"⟩, ⟨"Note", "id"⟩]
  relations := [⟨"Team", "id", "Ticket", "team", .oneToMany⟩,
    ⟨"Ticket", "id", "Note", "ticket", .oneToMany⟩]
  columns := [{ label := "TEAM_NAME", entity := "Team", field := "name", kind := .text },
    { label := "TICKET_ID", entity := "Ticket", field := "id", kind := .id },
    { label := "TICKET_STATE", entity := "Ticket", field := "state", kind := .text },
    { label := "NOTE_ID", entity := "Note", field := "id", kind := .id },
    { label := "NOTE_KIND", entity := "Note", field := "kind", kind := .text }]

end Tabulation.Catalog
