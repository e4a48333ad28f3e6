import Tabulation.Proofs.Catalog.Acceptance

/-! Routes: ways along relations that visit no entity type twice. In a forest the path between two
entity types is the only route, so that it can be cut at any entity type on it, and reversed. -/
namespace Tabulation.Catalog
open Outcome

/-- Steps along relations, in either direction, that come by no entity type twice. -/
structure IsRoute (relations : List Relation) (a c : EntityType) (steps : List Step) : Prop where
  connects : Connects a steps c
  walks : ∀ s ∈ steps, ∃ r ∈ relations, s.Walks r
  nodup : (a :: steps.map (·.target)).Nodup

/-- The steps walk one relation in its two directions. -/
def Opposite (relations : List Relation) (s t : Step) : Prop :=
  ∃ r ∈ relations, (s = r.forward ∧ t = r.backward) ∨ (s = r.backward ∧ t = r.forward)

variable {ls : List Link} {l : Link} {relations : List Relation} {a b c : EntityType}
  {path steps p q : List Step} {s t : Step}

lemma exists_opposite {r : Relation} (hr : r ∈ relations) (hs : s.Walks r) :
    ∃ t : Step, t.Walks r ∧ t.source = s.target ∧ t.target = s.source ∧ Opposite relations s t := by
  rcases hs with rfl | rfl
  · exact ⟨r.backward, .inr rfl, rfl, rfl, r, hr, .inl ⟨rfl, rfl⟩⟩
  · exact ⟨r.forward, .inl rfl, rfl, rfl, r, hr, .inr ⟨rfl, rfl⟩⟩

/-- The way back takes the relations of a path in the opposite order and directions. -/
theorem linkedPath_back (h : Linked ls) (hp : linkedPath ls a c = some path) :
    ∃ back, linkedPath ls c a = some back ∧
      List.Forall₂ (Opposite (ls.map (·.relation))) path.reverse back := by
  induction ls generalizing a c path with
  | nil =>
    simp only [linkedPath] at hp ⊢
    split_ifs at hp with hac
    cases hp
    exact ⟨[], if_pos hac.symm, .nil⟩
  | cons l ls ih =>
    have hls := h.2.2.2
    have hmono : ∀ s t, Opposite (ls.map (·.relation)) s t →
        Opposite ((l :: ls).map (·.relation)) s t := by
      rintro s t ⟨r, hr, hst⟩
      exact ⟨r, List.mem_cons_of_mem _ hr, hst⟩
    rcases linkedPath_cons_cases h hp with ⟨hac, hp⟩ | ⟨s, before, after, hs, ha, hc, hb, hr, rfl⟩
    · obtain ⟨back, hback, hall⟩ := ih hls hp
      exact ⟨back, (linkedPath_cons_of_same hac.symm).trans hback, hall.imp hmono⟩
    · obtain ⟨backBefore, hbackBefore, hallBefore⟩ := ih hls hb
      obtain ⟨backAfter, hbackAfter, hallAfter⟩ := ih hls hr
      have hl : l.relation ∈ (l :: ls).map (·.relation) := List.mem_cons_self
      obtain ⟨t, ht, hsource, htarget, hst⟩ := exists_opposite hl hs
      rw [← hsource] at hc hbackAfter
      rw [← htarget] at ha hbackBefore
      refine ⟨_, linkedPath_cons_of_walks h ht hc ha hbackAfter hbackBefore, ?_⟩
      rw [List.reverse_append, List.reverse_cons, List.append_assoc, List.singleton_append]
      exact List.rel_append (hallAfter.imp hmono) (.cons hst (hallBefore.imp hmono))

variable {catalog : Catalog}

lemma isRoute_of_path? (hc : catalog.WellFormed) (hp : catalog.path? a c = some path) :
    IsRoute catalog.forest.relations a c path := by
  have hlinked := linkedPath_of_path? hc hp
  refine ⟨connects_of_linkedPath hc.forest.linked hlinked, fun s hs => ?_, List.nodup_cons.2 ⟨?_, ?_⟩⟩
  · obtain ⟨l, hl, hw⟩ := walks_of_mem_linkedPath hc.forest.linked hlinked hs
    exact ⟨l.relation, mem_iff_exists_link.2 ⟨l, hl, rfl⟩, hw⟩
  · rw [List.mem_map]
    rintro ⟨s, hs, hsa⟩
    exact path?_target_ne hc hp hs hsa
  · exact (path?_nodup hc hp).map_on fun s hs t ht hst => step_unique hc hp hp hs ht hst

/-- The way back takes the relations of the way there in their other directions. -/
lemma path?_back (hc : catalog.WellFormed) (hp : catalog.path? a c = some path) :
    ∃ back, catalog.path? c a = some back ∧
      List.Forall₂ (Opposite catalog.forest.relations) path.reverse back := by
  obtain ⟨ha, hcontains⟩ := contains_of_path? hp
  obtain ⟨back, hback, hall⟩ := linkedPath_back hc.forest.linked (linkedPath_of_path? hc hp)
  refine ⟨back, (path?_eq_linkedPath hc hcontains ha).trans hback, hall.imp ?_⟩
  rintro s t ⟨r, hr, hst⟩
  exact ⟨r, by rwa [Forest.links, map_relation_linksOf, List.mem_reverse] at hr, hst⟩

/-- There is no route but the path. -/
theorem path?_of_isRoute (hc : catalog.WellFormed) (ha : catalog.forest.contains a)
    (h : IsRoute catalog.forest.relations a c steps) : catalog.path? a c = some steps := by
  induction steps using List.reverseRecOn generalizing c with
  | nil =>
    obtain rfl : a = c := h.connects
    exact path?_self ha
  | append_singleton steps s ih =>
    obtain ⟨hconnects, rfl⟩ := connects_append_singleton.1 h.connects
    have hnodup := h.nodup
    rw [List.map_append, ← List.cons_append] at hnodup
    have hp := ih ⟨hconnects, fun t ht => h.walks t (by simp [ht]), hnodup.of_append_left⟩
    obtain ⟨r, hr, hw⟩ := h.walks s (by simp)
    have hcontains : catalog.forest.contains s.target := by
      rcases hw with rfl | rfl
      · exact (hc.forest.declared r hr).2
      · exact (hc.forest.declared r hr).1
    obtain ⟨l, hl, rfl⟩ := mem_iff_exists_link.1 hr
    rw [path?_eq_linkedPath hc ha hcontains]
    rcases linkedPath_step hc.forest.linked hl hw (linkedPath_of_path? hc hp) with hlonger | ⟨q, t, rfl, hshorter⟩
    · exact hlonger
    · -- the route would come by the target of its last step before
      have hmem := mem_of_connects (connects_of_linkedPath hc.forest.linked hshorter)
      refine absurd rfl ((List.nodup_append.1 hnodup).2.2 s.target ?_ s.target (by simp))
      rw [List.map_append, ← List.cons_append]
      exact List.mem_append_left _ hmem

/-- A path goes by every entity type on it as the path to there and the path from there. -/
theorem path?_cut (hc : catalog.WellFormed) (hp : catalog.path? a c = some path)
    (hb : b ∈ a :: path.map (·.target)) :
    ∃ before after, path = before ++ after ∧ catalog.path? a b = some before ∧
      catalog.path? b c = some after := by
  rcases List.mem_cons.1 hb with rfl | hb
  · exact ⟨[], path, rfl, path?_self (contains_of_path? hp).1, hp⟩
  · obtain ⟨s, hs, rfl⟩ := List.mem_map.1 hb
    obtain ⟨p, q, rfl⟩ := List.append_of_mem hs
    obtain ⟨-, hto, hfrom⟩ := path?_split hc hp
    exact ⟨p ++ [s], q, by simp, hto, hfrom⟩

lemma fanOutKey?_cut (hp : catalog.path? a c = some (p ++ q)) (hto : catalog.path? a b = some p)
    (hfrom : catalog.path? b c = some q) : ∃ key key', catalog.fanOutKey? a b = some key ∧
      catalog.fanOutKey? b c = some key' ∧ catalog.fanOutKey? a c = some ⟨key.hops ++ key'.hops⟩ := by
  refine ⟨.ofSteps p, .ofSteps q, by simp [fanOutKey?, hto], by simp [fanOutKey?, hfrom], ?_⟩
  simp [fanOutKey?, hp, FanOutKey.ofSteps]

lemma exists_path?_iff {f : Forest} (hf : f.WellFormed) : (∃ path, f.path? a c = some path) ↔
    (f.contains a ∧ f.contains c) ∧ (relationGraph f.relations).Reachable a c := by
  have hgraph : relationGraph (f.links.map (·.relation)) = relationGraph f.relations :=
    relationGraph_congr fun r => by rw [Forest.links, map_relation_linksOf, List.mem_reverse]
  rw [← hgraph, ← treeOf_eq_iff_reachable hf.linked]
  constructor
  · rintro ⟨path, hp⟩
    have hcontains : f.contains a ∧ f.contains c := by
      unfold Forest.path? at hp
      split_ifs at hp with hcontains
      all_goals exact hcontains
    rw [Forest.path?_eq_linkedPath hf hcontains.1 hcontains.2] at hp
    exact ⟨hcontains, treeOf_eq_of_linkedPath hf.linked hp⟩
  · rintro ⟨hcontains, htree⟩
    rw [Forest.path?_eq_linkedPath hf hcontains.1 hcontains.2]
    exact exists_linkedPath hf.linked htree

/-- In a forest that was built there is a path between two entity types if and only if both are declared
and relations connect them. Then it is the only route between them; the path back is its reverse; and
at every entity type that it comes by it falls into the path to there and the path from there, and its
fan-out key into theirs. -/
theorem path_only_route {entities : List Entity} {relations : List Relation} {f : Forest}
    (hbuild : Forest.build entities relations = .ok f) (a c : EntityType) :
    ((∃ path, f.path? a c = some path) ↔
        (a ∈ entities.map (·.name) ∧ c ∈ entities.map (·.name)) ∧
          (relationGraph relations).Reachable a c) ∧
      ∀ path, f.path? a c = some path →
        (∀ steps, IsRoute relations a c steps ↔ steps = path) ∧
        (∃ back, f.path? c a = some back ∧
          List.Forall₂ (Opposite relations) path.reverse back) ∧
        ∀ b ∈ a :: path.map (·.target), ∃ before after, path = before ++ after ∧
          f.path? a b = some before ∧ f.path? b c = some after ∧
          ∀ catalog : Catalog, catalog.forest = f → ∃ key key', catalog.fanOutKey? a b = some key ∧
            catalog.fanOutKey? b c = some key' ∧
            catalog.fanOutKey? a c = some ⟨key.hops ++ key'.hops⟩ := by
  obtain ⟨hdeclared, rfl, hf⟩ := (forestBuild_spec entities relations).2 f hbuild
  rw [← hdeclared, ← hdeclared]
  refine ⟨exists_path?_iff hf, fun path hp => ?_⟩
  let catalog : Catalog := ⟨f, ∅, ∅⟩
  have hc : catalog.WellFormed := ⟨hf, fun e he => absurd he (by
    simp [catalog, EmptyCollection.emptyCollection, OrderedMap.empty])⟩
  have hp' : catalog.path? a c = some path := hp
  refine ⟨fun steps => ⟨fun h => ?_, ?_⟩, path?_back hc hp', fun b hb => ?_⟩
  · have ha := (contains_of_path? hp').1
    exact Option.some.inj ((path?_of_isRoute hc ha h).symm.trans hp')
  · rintro rfl
    exact isRoute_of_path? hc hp'
  · obtain ⟨before, after, rfl, hto, hfrom⟩ := path?_cut hc hp' hb
    refine ⟨before, after, rfl, hto, hfrom, ?_⟩
    rintro ⟨_, columns, labels⟩ rfl
    exact fanOutKey?_cut hp' hto hfrom

/-- The way from a note to its team leads over its ticket; on the way back both steps fan out. -/
theorem path_only_route_helpDesk :
    ∃ f, Forest.build helpDesk.entities helpDesk.relations = .ok f ∧
      (relationGraph helpDesk.relations).Reachable "Note" "Team" ∧
      ∃ path, f.path? "Note" "Team" = some path ∧ path.map (·.target) = ["Ticket", "Team"] ∧
        (∀ steps, IsRoute helpDesk.relations "Note" "Team" steps → steps = path) ∧
        (∃ back, f.path? "Team" "Note" = some back ∧ back.map (·.fansOut) = [true, true]) ∧
        ∃ before after, path = before ++ after ∧ f.path? "Note" "Ticket" = some before ∧
          f.path? "Ticket" "Team" = some after := by
  obtain ⟨f, hbuild, h⟩ : ∃ f, Forest.build helpDesk.entities helpDesk.relations = .ok f ∧
      ((f.path? "Note" "Team").any (fun path => path.map (·.target) = ["Ticket", "Team"]) &&
        (f.path? "Team" "Note").any fun back => back.map (·.fansOut) = [true, true]) :=
    exists_of_any (by decide +kernel)
  simp only [Bool.and_eq_true, Option.any_eq_true, decide_eq_true_eq] at h
  obtain ⟨⟨path, hp, htargets⟩, back, hback, hfans⟩ := h
  obtain ⟨hiff, hlaws⟩ := path_only_route hbuild "Note" "Team"
  obtain ⟨hroute, -, hcut⟩ := hlaws path hp
  obtain ⟨before, after, hpath, hto, hfrom, -⟩ := hcut "Ticket" (by simp [htargets])
  exact ⟨f, hbuild, (hiff.1 ⟨path, hp⟩).2, path, hp, htargets, fun steps h => (hroute steps).1 h,
    ⟨back, hback, hfans⟩, before, after, hpath, hto, hfrom⟩

end Tabulation.Catalog
