import Tabulation.Catalog.Search
import Tabulation.Proofs.Catalog.Growth

/-! A search in a forest finds the path along the links. Every step that it finds is the last one of the path to its
target, since whoever would come to that target by another way had come by it before; and it stops at the target or
when every step leads to what was seen. -/
namespace Tabulation.Catalog

lemma Adjacency.mem_indexes_enter {adjacency : Adjacency} {r : Relation} {i j : Nat} {e : EntityType}
    (h : j ∈ adjacency.indexes e ∨ (j = i ∧ (r.source = e ∨ r.target = e))) :
    j ∈ (adjacency.enter r i).indexes e := by
  unfold indexes enter at *
  rw [OrderedMap.get?_alter, OrderedMap.get?_alter, OrderedMap.get?_alter]
  by_cases htarget : e = r.target <;> by_cases hsource : e = r.source <;>
    by_cases hends : r.target = r.source <;> simp_all [eq_comm]

/-- A relation is entered at both of its ends. -/
lemma Adjacency.mem_indexes_ofRelations {relations : List Relation} {r : Relation} {i : Nat} {e : EntityType}
    (hr : relations[i]? = some r) (he : r.source = e ∨ r.target = e) : i ∈ (ofRelations relations).indexes e := by
  induction relations using List.reverseRecOn with
  | nil => simp at hr
  | append_singleton relations r' ih =>
    rw [ofRelations_append_singleton]
    apply mem_indexes_enter
    rw [List.getElem?_append] at hr
    split_ifs at hr with hi
    · exact .inl (ih hr)
    · obtain ⟨hzero, rfl⟩ := by simpa [List.getElem?_singleton] using hr
      exact .inr ⟨by omega, he⟩

variable {f : Forest} {a c e : EntityType} {s : Step} {path : List Step}

lemma Forest.WellFormed.source_ne_target (hf : f.WellFormed) {l : Link} (hl : l ∈ f.links) :
    l.relation.source ≠ l.relation.target := by
  have hlinked := hf.linked
  generalize f.links = ls at hl hlinked
  induction ls with
  | nil => simp at hl
  | cons l' ls ih =>
    obtain ⟨hsource, htarget, hne, hls⟩ := hlinked
    rcases List.mem_cons.1 hl with rfl | hl
    · intro he
      exact hne (hsource.trans (he ▸ htarget.symm))
    · exact ih hl hls

lemma Forest.mem_stepsFrom_iff (hf : f.WellFormed) :
    s ∈ f.stepsFrom e ↔ s.source = e ∧ ∃ r ∈ f.relations, s.Walks r := by
  constructor
  · intro hs
    obtain ⟨r, hr, hrs⟩ := Search.mem_of_mem_stepsFrom hs
    refine ⟨Search.source_of_mem_stepsFrom hs, r, hr, ?_⟩
    rw [hrs, Relation.stepFrom]
    split_ifs
    · exact .inl rfl
    · exact .inr rfl
  · rintro ⟨rfl, r, hr, hs⟩
    obtain ⟨i, hi, hri⟩ := List.getElem_of_mem hr
    have hri' : f.relations[i]? = some r := by rw [List.getElem?_eq_getElem hi, hri]
    obtain ⟨l, hl, rfl⟩ := mem_iff_exists_link.1 hr
    have hne := hf.source_ne_target hl
    refine List.mem_filterMap.2 ⟨i, ?_, ?_⟩
    · rw [f.adjacent]
      refine Adjacency.mem_indexes_ofRelations hri' ?_
      rcases hs with rfl | rfl
      · exact .inl rfl
      · exact .inr rfl
    · rw [hri', Option.map_some, Relation.stepFrom]
      rcases hs with rfl | rfl
      · exact congrArg some (if_pos rfl)
      · exact congrArg some (if_neg hne)

namespace Search

variable {start : EntityType} {found : List Step} {state : State}

lemma stepTo?_isSome (h : seen start found e) (he : e ≠ start) : ∃ s, stepTo? found e = some s := by
  rw [seen, Bool.or_eq_true, decide_eq_true_eq, Option.isSome_iff_exists] at h
  exact h.resolve_left he

lemma mem_of_stepTo? (h : stepTo? found e = some s) : s ∈ found ∧ s.target = e :=
  ⟨List.mem_of_find?_eq_some h, by simpa using List.find?_some h⟩

/-- Every step is the last one of the path to where it leads. -/
def OnPaths (ls : List Link) (start : EntityType) (found : List Step) : Prop :=
  ∀ s ∈ found, ∃ p, linkedPath ls start s.source = some p ∧ linkedPath ls start s.target = some (p ++ [s])

/-- The way back to the start is the path, once it was found. -/
lemma wayBack_eq {ls : List Link} (grown : Grown start found) (h : OnPaths ls start found) (rest : List Step)
    (he : seen start found e) :
    ∃ path, linkedPath ls start e = some path ∧ wayBack start found grown e rest = some (path ++ rest) := by
  fun_induction wayBack start found grown e rest with
  | case1 rest => exact ⟨[], linkedPath_self ls start, rfl⟩
  | case2 e rest hstart hnone =>
    obtain ⟨s, hs⟩ := stepTo?_isSome he hstart
    rw [hs] at hnone
    cases hnone
  | case3 e rest hstart s hs ih =>
    obtain ⟨hmem, rfl⟩ := mem_of_stepTo? hs
    obtain ⟨p, hp, htarget⟩ := h s hmem
    obtain ⟨p', hp', hback⟩ := ih (seen_source_of_stepTo? grown hs)
    obtain rfl := Option.some.inj (hp.symm.trans hp')
    exact ⟨p ++ [s], htarget, by simpa using hback⟩

lemma wayBack_eq_none (grown : Grown start found) (rest : List Step) (he : ¬ seen start found e) :
    wayBack start found grown e rest = none := by
  simp only [seen, Bool.or_eq_true, decide_eq_true_eq, not_or, Option.not_isSome_iff_eq_none] at he
  rw [wayBack, if_neg he.1]
  split
  · rfl
  · rename_i hs
    rw [he.2] at hs
    cases hs

/-- A step to something new extends the path. A shorter path would lead to where the search came from. -/
lemma OnPaths.discover (hf : f.WellFormed) (grown : Grown start state.found) (h : OnPaths f.links start state.found)
    (hs : s ∈ f.stepsFrom e) (he : seen start state.found e) :
    OnPaths f.links start (state.discover start s).found := by
  unfold State.discover
  split_ifs with hseen
  · exact h
  obtain ⟨rfl, r, hr, hwalks⟩ := (Forest.mem_stepsFrom_iff hf).1 hs
  obtain ⟨l, hl, rfl⟩ := mem_iff_exists_link.1 hr
  obtain ⟨p, hp, -⟩ := wayBack_eq grown h [] he
  refine List.forall_mem_cons.2 ⟨⟨p, hp, ?_⟩, h⟩
  rcases linkedPath_step hf.linked hl hwalks hp with hlonger | ⟨q, t, rfl, hshorter⟩
  · exact hlonger
  · have hne : s.source ≠ start := by
      intro hstart
      rw [hstart, linkedPath_self] at hp
      simp at hp
    obtain ⟨u, hu⟩ := stepTo?_isSome he hne
    obtain ⟨hmem, htarget⟩ := mem_of_stepTo? hu
    obtain ⟨q', hq', hu'⟩ := h u hmem
    rw [htarget, hp, Option.some.injEq] at hu'
    obtain ⟨rfl, -⟩ := List.append_inj' hu' rfl
    have hsame : u.source = s.target :=
      (target_of_linkedPath hf.linked hq').symm.trans (target_of_linkedPath hf.linked hshorter)
    exact absurd (hsame ▸ seen_source_of_stepTo? grown hu) hseen

lemma seen_foldl_discover (steps : List Step) (h : seen start state.found e) :
    seen start (steps.foldl (State.discover start) state).found e := by
  induction steps generalizing state with
  | nil => exact h
  | cons s steps ih => exact ih (seen_discover s h)

lemma seen_target_discover (state : State) (s : Step) : seen start (state.discover start s).found s.target := by
  unfold State.discover
  split_ifs with hseen
  · exact hseen
  · simp [seen_cons]

lemma seen_target_foldl_discover {steps : List Step} (hs : s ∈ steps) :
    seen start (steps.foldl (State.discover start) state).found s.target := by
  induction steps generalizing state with
  | nil => cases hs
  | cons t steps ih =>
    rcases List.mem_cons.1 hs with rfl | hs
    · exact seen_foldl_discover steps (seen_target_discover state s)
    · exact ih hs

lemma OnPaths.foldl_discover (hf : f.WellFormed) (state : State) {steps : List Step}
    (hsteps : ∀ s ∈ steps, s ∈ f.stepsFrom e)
    (grown : Grown start state.found) (he : seen start state.found e) (h : OnPaths f.links start state.found) :
    OnPaths f.links start (steps.foldl (State.discover start) state).found := by
  induction steps generalizing state with
  | nil => exact h
  | cons s steps ih =>
    obtain ⟨hs, hsteps⟩ := List.forall_mem_cons.1 hsteps
    refine ih _ hsteps (.discover ?_ grown) (seen_discover s he) (h.discover hf grown hs he)
    rwa [source_of_mem_stepsFrom hs]

/-- What is seen is in the queue or left out, or all of its steps lead to what is seen. -/
def Closed (f : Forest) (start : EntityType) (left : EntityType → Prop) (state : State) : Prop :=
  ∀ e, seen start state.found e → left e ∨ e ∈ state.queue ∨ ∀ s ∈ f.stepsFrom e, seen start state.found s.target

lemma Closed.discover {left : EntityType → Prop} (h : Closed f start left state) (s : Step) :
    Closed f start left (state.discover start s) := by
  intro e he
  by_cases hseen : seen start state.found s.target
  · rw [State.discover, if_pos hseen] at he ⊢
    exact h e he
  · rw [State.discover, if_neg hseen] at he ⊢
    rw [seen_cons, Bool.or_eq_true, decide_eq_true_eq] at he
    rcases he with rfl | he
    · exact .inr (.inl (by simp))
    · refine (h e he).imp_right (.imp (List.mem_append_left _) fun hall t ht => ?_)
      rw [seen_cons, hall t ht, Bool.or_true]

lemma Closed.foldl_discover {left : EntityType → Prop} (steps : List Step) (h : Closed f start left state) :
    Closed f start left (steps.foldl (State.discover start) state) := by
  induction steps generalizing state with
  | nil => exact h
  | cons s steps ih => exact ih (h.discover s)

/-- Once all of its steps are taken nothing is left out. -/
lemma Closed.expand {current : EntityType} {queue : List EntityType}
    (h : Closed f start (fun _ => False) ⟨current :: queue, found⟩) :
    Closed f start (fun _ => False) ((f.stepsFrom current).foldl (State.discover start) ⟨queue, found⟩) := by
  have hbut : Closed f start (· = current) ⟨queue, found⟩ := fun e he => by
    rcases h e he with hfalse | hqueue | hall
    · exact hfalse.elim
    · exact (List.mem_cons.1 hqueue).imp_right .inl
    · exact .inr (.inr hall)
  intro e he
  rcases hbut.foldl_discover (f.stepsFrom current) e he with rfl | hrest
  · exact .inr (.inr fun s hs => seen_target_foldl_discover hs)
  · exact .inr hrest

/-- A search finds steps on paths only. It comes to the target, or to everything where its steps lead. -/
lemma explore_spec (hf : f.WellFormed) (target : EntityType) {queue : List EntityType}
    (hqueue : State.Seen start ⟨queue, found⟩)
    (grown : Grown start found) (hpaths : OnPaths f.links start found)
    (hclosed : Closed f start (fun _ => False) ⟨queue, found⟩) :
    OnPaths f.links start (explore f start target queue found) ∧
      (seen start (explore f start target queue found) target ∨
        ∀ e, seen start (explore f start target queue found) e → ∀ s ∈ f.stepsFrom e,
          seen start (explore f start target queue found) s.target) := by
  fun_induction explore f start target queue found with
  | case1 found =>
    exact ⟨hpaths, .inr fun e he => ((hclosed e he).resolve_left id).resolve_left List.not_mem_nil⟩
  | case2 found queue => exact ⟨hpaths, .inl (hqueue target List.mem_cons_self)⟩
  | case3 found current queue _ next ih =>
    obtain ⟨hcurrent, hrest⟩ := List.forall_mem_cons.1 hqueue
    obtain ⟨hseen, hgrown⟩ := grown_foldl_discover ⟨queue, found⟩
      (fun s hs => source_of_mem_stepsFrom (f := f) hs) hcurrent hrest grown
    exact ih hseen hgrown (.foldl_discover hf ⟨queue, found⟩ (fun _ hs => hs) grown hcurrent hpaths)
      hclosed.expand

/-- What is closed under steps and holds the start holds whatever paths from the start lead to. -/
lemma seen_of_linkedPath (hf : f.WellFormed)
    (hclosed : ∀ e, seen start found e → ∀ s ∈ f.stepsFrom e, seen start found s.target)
    (hp : linkedPath f.links start c = some path) : seen start found c := by
  have hwalk : ∀ (steps : List Step) (a : EntityType), seen start found a → Connects a steps c →
      (∀ s ∈ steps, ∃ r ∈ f.relations, s.Walks r) → seen start found c := by
    intro steps
    induction steps with
    | nil =>
      rintro a ha rfl -
      exact ha
    | cons s steps ih =>
      rintro a ha ⟨rfl, hrest⟩ hwalks
      obtain ⟨hs, hwalks⟩ := List.forall_mem_cons.1 hwalks
      exact ih s.target (hclosed _ ha s ((Forest.mem_stepsFrom_iff hf).2 ⟨rfl, hs⟩)) hrest hwalks
  refine hwalk path start (by simp [seen]) (connects_of_linkedPath hf.linked hp) fun s hs => ?_
  obtain ⟨l, hl, hw⟩ := walks_of_mem_linkedPath hf.linked hp hs
  exact ⟨l.relation, mem_iff_exists_link.2 ⟨l, hl, rfl⟩, hw⟩

end Search

/-- The search finds the path along the links. -/
theorem Forest.path?_eq_linkedPath (hf : f.WellFormed) (ha : f.contains a) (hc : f.contains c) :
    f.path? a c = linkedPath f.links a c := by
  rw [Forest.path?, if_pos ⟨ha, hc⟩]
  split_ifs with hac
  · rw [hac, linkedPath_self]
  · have hstart : Search.State.Seen a ⟨[a], []⟩ := by simp [Search.State.Seen, Search.seen]
    have hclosed : Search.Closed f a (fun _ => False) ⟨[a], []⟩ := fun e he =>
      .inr (.inl (by simpa [Search.seen, Search.stepTo?] using he))
    obtain ⟨hpaths, hcomes⟩ := Search.explore_spec hf c hstart trivial (by simp [Search.OnPaths]) hclosed
    have grown := Search.grown_explore (f := f) c hstart trivial
    by_cases hseen : Search.seen a (Search.explore f a c [a] []) c
    · obtain ⟨path, hp, hback⟩ := Search.wayBack_eq grown hpaths [] hseen
      rw [hback, hp, List.append_nil]
    · rw [Search.wayBack_eq_none grown [] hseen, eq_comm, Option.eq_none_iff_forall_ne_some]
      exact fun path hp => hseen (Search.seen_of_linkedPath hf (hcomes.resolve_left hseen) hp)

end Tabulation.Catalog
