import Tabulation.Proofs.Plan.Layout

/-! The join lists of a plan by their steps: which steps there are, which of them fan out, and which
joins are inner. -/
namespace Tabulation
open Catalog (Step FanOutKey)
open Query (JoinStyle)

namespace Catalog.FanOutKey

lemma isRoot_ofSteps {steps : List Step} : (ofSteps steps).isRoot ↔ ∀ s ∈ steps, s.fansOut = false := by
  simp [isRoot, ofSteps, List.filter_eq_nil_iff]

lemma ofSteps_append_of_direct {xs ys : List Step} (h : ∀ s ∈ ys, s.fansOut = false) :
    ofSteps (xs ++ ys) = ofSteps xs := by
  have hys : ys.filter (·.fansOut) = [] := by
    rw [List.filter_eq_nil_iff]
    intro s hs
    simp [h s hs]
  simp [ofSteps, hys]

end Catalog.FanOutKey

namespace Plan

variable {catalog : Catalog} {root : EntityType} {steps path : List Step}

lemma extendAll_eq_append (steps : List Step) (paths : List (List Step)) :
    ∃ rest, extendAll steps paths = steps ++ rest ∧
      ∀ s ∈ rest, s ∉ steps ∧ ∃ path ∈ paths, s ∈ path := by
  induction paths generalizing steps with
  | nil => exact ⟨[], by simp [extendAll], by simp⟩
  | cons path paths ih =>
    obtain ⟨rest, hrest, hall⟩ := ih (extend steps path)
    refine ⟨path.filter (fun s => s ∉ steps) ++ rest, ?_, fun s hs => ?_⟩
    · rw [← List.append_assoc]
      exact hrest
    · rcases List.mem_append.1 hs with hs | hs
      · have := List.mem_filter.1 hs
        exact ⟨by simpa using this.2, path, List.mem_cons_self, this.1⟩
      · obtain ⟨hnot, q, hq, hsq⟩ := hall s hs
        exact ⟨fun h => hnot (mem_extend.2 (.inl h)), q, List.mem_cons_of_mem _ hq, hsq⟩

lemma extend_nil (path : List Step) : extend [] path = path := by
  simp [extend]

/-- Paths with one fan-out key take the same steps that fan out. -/
lemma mem_of_key (hc : catalog.WellFormed) {e e' : EntityType} {path' : List Step} {s : Step}
    (hp : catalog.path? root e = some path) (hp' : catalog.path? root e' = some path')
    (hk : FanOutKey.ofSteps path = FanOutKey.ofSteps path') (hs : s ∈ path) (hf : s.fansOut = true) :
    s ∈ path' := by
  have hhop : (⟨s.source, s.target⟩ : Catalog.Hop) ∈ (FanOutKey.ofSteps path).hops :=
    List.mem_map.2 ⟨s, List.mem_filter.2 ⟨hs, hf⟩, rfl⟩
  rw [hk] at hhop
  obtain ⟨t, ht, hts⟩ := List.mem_map.1 hhop
  have htp := (List.mem_filter.1 ht).1
  have hst : t = s := Catalog.step_unique hc hp' hp htp hs (congrArg Catalog.Hop.target hts)
  exact hst ▸ htp

/-- On paths with one fan-out key, the steps that fan out are those of the first path. -/
theorem extendAll_of_key (hc : catalog.WellFormed) {key : FanOutKey} {paths : List (List Step)}
    (hp : ∀ path ∈ paths, ∃ e, catalog.path? root e = some path)
    (hk : ∀ path ∈ paths, FanOutKey.ofSteps path = key) {first : List Step}
    {others : List (List Step)} (hpaths : paths = first :: others) :
    ∃ rest, extendAll [] paths = first ++ rest ∧ ∀ s ∈ rest, s.fansOut = false := by
  subst hpaths
  obtain ⟨rest, hrest, hall⟩ := extendAll_eq_append first others
  refine ⟨rest, ?_, fun s hs => ?_⟩
  · simpa only [extendAll, List.foldl_cons, extend_nil] using hrest
  · obtain ⟨hnot, path, hpath, hsp⟩ := hall s hs
    by_contra hfan
    rw [Bool.not_eq_false] at hfan
    obtain ⟨e, he⟩ := hp path (List.mem_cons_of_mem _ hpath)
    obtain ⟨e', he'⟩ := hp first List.mem_cons_self
    have hkey := (hk path (List.mem_cons_of_mem _ hpath)).trans (hk first List.mem_cons_self).symm
    exact hnot (mem_of_key hc he he' hkey hsp hfan)

/-- A path that fans out is a path to the target of its last hop, and on from there. -/
lemma split_at_last_hop {path : List Step} (h : ¬ (FanOutKey.ofSteps path).isRoot) :
    ∃ before s after, path = before ++ s :: after ∧ s.fansOut = true ∧
      (∀ t ∈ after, t.fansOut = false) ∧
      (FanOutKey.ofSteps path).hops.getLast? = some ⟨s.source, s.target⟩ := by
  induction path using List.reverseRecOn with
  | nil => simp [FanOutKey.ofSteps, FanOutKey.isRoot] at h
  | append_singleton path t ih =>
    by_cases ht : t.fansOut = true
    · refine ⟨path, t, [], by simp, ht, by simp, ?_⟩
      simp [FanOutKey.ofSteps, ht]
    · have hdirect : ∀ s ∈ [t], s.fansOut = false := by simpa using ht
      rw [FanOutKey.ofSteps_append_of_direct hdirect] at h ⊢
      obtain ⟨before, s, after, rfl, hs, hafter, hlast⟩ := ih h
      refine ⟨before, s, after ++ [t], by simp, hs, ?_, hlast⟩
      intro u hu
      rcases List.mem_append.1 hu with hu | hu
      · exact hafter u hu
      · exact hdirect u hu

namespace Layout

variable {l : Layout}

/-- The steps of the main rows. -/
def mainSteps (l : Layout) : List Step :=
  extendAll [] (l.projections.map (·.path) ++ l.direct.map (·.path) ++ l.near.map (·.2.path))

/-- The steps that the main rows need to have partners on. -/
def neededSteps (l : Layout) : List Step :=
  (l.projections.map (·.path) ++ l.direct.map (·.path)).flatten

lemma extendAll_append (steps : List Step) (xs ys : List (List Step)) :
    extendAll steps (xs ++ ys) = extendAll (extendAll steps xs) ys := by
  simp [extendAll, List.foldl_append]

/-- The filters on fanned-out entity types that some steps reach. -/
def fannedOn (l : Layout) (steps : List Step) : List FannedFilters :=
  l.fanned.filter fun f => reaches steps f.entity

lemma Sound.direct_path (h : l.Sound catalog) {f : Placed Query.Filter} (hf : f ∈ l.direct) :
    catalog.path? l.root f.entity = some f.path ∧ f.key.isRoot := by
  obtain ⟨hmem, hroot⟩ := List.mem_filter.1 hf
  exact ⟨h.filter f hmem, hroot⟩

lemma Sound.near_path (h : l.Sound catalog) {a : Nat × Placed Query.Aggregation} (ha : a ∈ l.near) :
    catalog.path? l.root a.2.entity = some a.2.path ∧ a.2.key.isRoot := by
  obtain ⟨e, he, hae⟩ := List.mem_flatMap.1 ha
  obtain ⟨hmem, hroot⟩ := List.mem_filter.1 he
  obtain ⟨hpath, hkey⟩ := (h.part e hmem).2 a hae
  exact ⟨hpath, hkey ▸ hroot⟩

lemma Sound.fanned_path (h : l.Sound catalog) {f : FannedFilters} (hf : f ∈ l.fanned) :
    catalog.path? l.root f.entity = some f.path ∧ ¬ (FanOutKey.ofSteps f.path).isRoot := by
  obtain ⟨⟨g, hg, hentity, hpath⟩, -, -⟩ := mem_groupFilters hf
  obtain ⟨hmem, hroot⟩ := List.mem_filter.1 hg
  rw [hentity, hpath]
  exact ⟨h.filter g hmem, by simpa [Placed.key] using hroot⟩

lemma Sound.main_path (h : l.Sound catalog) {path : List Step}
    (hp : path ∈ l.projections.map (·.path) ++ l.direct.map (·.path) ++ l.near.map (·.2.path)) :
    (∃ e, catalog.path? l.root e = some path) ∧ (FanOutKey.ofSteps path).isRoot := by
  simp only [List.mem_append, List.mem_map] at hp
  rcases hp with (⟨x, hx, rfl⟩ | ⟨f, hf, rfl⟩) | ⟨a, ha, rfl⟩
  · exact ⟨⟨_, (h.projection x hx).1⟩, (h.projection x hx).2⟩
  · exact ⟨⟨_, (h.direct_path hf).1⟩, (h.direct_path hf).2⟩
  · exact ⟨⟨_, (h.near_path ha).1⟩, (h.near_path ha).2⟩

theorem Sound.mainSteps_direct (h : l.Sound catalog) {s : Step} (hs : s ∈ l.mainSteps) :
    s.fansOut = false := by
  rcases mem_extendAll.1 hs with hs | ⟨path, hpath, hs⟩
  · simp at hs
  · exact FanOutKey.isRoot_ofSteps.1 (h.main_path hpath).2 s hs

theorem Sound.main_joins (h : l.Sound catalog) (hc : catalog.WellFormed)
    (ha : catalog.DistinctAliases) :
    l.main.1 = joinsOf (fun s => s ∈ l.neededSteps) l.mainSteps ∧
      Rooted catalog l.root l.mainSteps := by
  have hmain := fun (path : List Step) (hp : path ∈ _) => (h.main_path hp).1
  have hneeded := fun path hp => hmain path (List.mem_append_left _ hp)
  have hnear := fun path hp => hmain path (List.mem_append_right _ hp)
  obtain ⟨hjoins, hrooted⟩ := addPaths_joinsOf .nil hc ha hneeded (fun _ => false) fun _ => .inner
  obtain ⟨hjoins', hrooted'⟩ := addPaths_joinsOf hrooted hc ha hnear
    (fun s => s ∈ l.neededSteps) fun _ => .left
  rw [mainSteps, extendAll_append]
  refine ⟨?_, hrooted'⟩
  calc l.main.1
      = (l.near.map (·.2.path)).foldl (addPath fun _ => .left)
          ((l.projections.map (·.path) ++ l.direct.map (·.path)).foldl (addPath fun _ => .inner) []) := by
        simp [main, addInner, addLeft, List.foldl_append, List.foldl_map]
    _ = (l.near.map (·.2.path)).foldl (addPath fun _ => .left) (joinsOf (fun s => s ∈ l.neededSteps)
          (extendAll [] (l.projections.map (·.path) ++ l.direct.map (·.path)))) := by
        rw [show ([] : List Join) = joinsOf (fun _ => false) [] from rfl, hjoins]
        congr 1
        apply joinsOf_congr
        intro s _
        rw [Bool.eq_iff_iff]
        simp [neededSteps]
    _ = _ := by
        rw [hjoins']
        apply joinsOf_congr
        intro s _
        by_cases hs : s ∈ l.neededSteps
        · have : s ∈ extendAll [] (l.projections.map (·.path) ++ l.direct.map (·.path)) := by
            obtain ⟨path, hpath, hsp⟩ := List.mem_flatten.1 hs
            exact mem_extendAll.2 (.inr ⟨path, hpath, hsp⟩)
          simp [hs, this]
        · simp [hs]

/-- The steps of the aggregations in a part. -/
def partSteps (part : Partition) : List Step := extendAll [] (part.map (·.2.path))

lemma Sound.part_path (h : l.Sound catalog) {e : FanOutKey × Partition}
    (he : e ∈ l.parts.entries) {path : List Step} (hp : path ∈ e.2.map (·.2.path)) :
    (∃ e, catalog.path? l.root e = some path) ∧ FanOutKey.ofSteps path = e.1 := by
  obtain ⟨a, ha, rfl⟩ := List.mem_map.1 hp
  obtain ⟨hpath, hkey⟩ := (h.part e he).2 a ha
  exact ⟨⟨_, hpath⟩, hkey⟩

/-- In a sub-expression inner joins are those that fan out and those on the way to filters. -/
theorem Sound.subExpression_joins (h : l.Sound catalog) (hc : catalog.WellFormed)
    (ha : catalog.DistinctAliases) {e : FanOutKey × Partition} (he : e ∈ l.parts.entries)
    (style : JoinStyle) (offset : Nat) :
    let sub := subExpression style l.fanned offset e.1 e.2
    let filters := l.fannedOn (partSteps e.2)
    e.2.foldl (fun joins a => addPath measureKind joins a.2.path) [] =
        joinsOf (·.fansOut) (partSteps e.2) ∧
      sub.joins = joinsOf (fun s => s.fansOut || filters.any fun f => s ∈ f.path) (partSteps e.2) ∧
      sub.predicates = filters.flatMap (·.predicates) ∧
      Rooted catalog l.root (partSteps e.2) := by
  have hpath := fun (path : List Step) (hp : path ∈ _) => (h.part_path he hp).1
  obtain ⟨hjoins, hrooted⟩ := addPaths_joinsOf .nil hc ha hpath (fun _ => false) measureKind
  have hmeasure : e.2.foldl (fun joins a => addPath measureKind joins a.2.path) [] =
      joinsOf (·.fansOut) (partSteps e.2) := by
    rw [List.foldl_map] at hjoins
    rw [show ([] : List Join) = joinsOf (fun _ => false) [] from rfl, hjoins]
    apply joinsOf_congr
    intro s hs
    rcases mem_extendAll.1 hs with hs | hs
    · simp at hs
    · have hany : ((e.2.map (·.2.path)).any fun path => decide (s ∈ path)) = true := by
        simpa [List.any_eq_true] using hs
      cases hf : s.fansOut <;> simp [measureKind, hf, hany]
  have hrestrict := restrictAll_joinsOf hrooted hc ha (fun f hf => (h.fanned_path hf).1)
    (·.fansOut) []
  refine ⟨hmeasure, ?_, ?_, hrooted⟩
  · simp only [subExpression, hmeasure]
    rw [partSteps, hrestrict]
    rfl
  · simp only [subExpression, hmeasure]
    rw [partSteps, hrestrict]
    simp [fannedOn]

end Layout

end Plan

end Tabulation
