import Tabulation.Catalog.Basic
import Tabulation.Proofs.Outcome
import Mathlib.Tactic.Lemma
import Mathlib.Tactic.SplitIfs

/-! Relations one after the other as links between trees. A path is found from link to link: between trees that were
joined last it goes to one end of that relation, over it, and on from its other end. Every beginning of such a path is
the path to the entity type where it ends, and every rest the path from there. -/
namespace Tabulation.Catalog

/-- A relation that joined two trees. At first every entity type is a tree of its own that bears
its name; a tree that is joined to another one takes over the name of that one. -/
structure Link where
  relation : Relation
  /-- The name of the source's tree before. -/
  sourceTree : EntityType
  /-- The name of the target's tree, from now on that of both. -/
  targetTree : EntityType

/-- The name of the tree of `entity` after all links, the latest of which comes first. -/
def treeOf : List Link → EntityType → EntityType
  | [], entity => entity
  | l :: ls, entity =>
    let tree := treeOf ls entity
    if tree = l.sourceTree then l.targetTree else tree

/-- The links that the relations make, the latest of which comes first. -/
def linksOf (relations : List Relation) : List Link :=
  relations.foldl (fun ls r => ⟨r, treeOf ls r.source, treeOf ls r.target⟩ :: ls) []

lemma linksOf_append_singleton (relations : List Relation) (r : Relation) :
    linksOf (relations ++ [r]) =
      ⟨r, treeOf (linksOf relations) r.source, treeOf (linksOf relations) r.target⟩ :: linksOf relations := by
  simp only [linksOf, List.foldl_append, List.foldl_cons, List.foldl_nil]

lemma map_relation_linksOf (relations : List Relation) :
    (linksOf relations).map (·.relation) = relations.reverse := by
  induction relations using List.reverseRecOn with
  | nil => rfl
  | append_singleton relations r ih => rw [linksOf_append_singleton, List.map_cons, ih, List.reverse_append,
      List.reverse_singleton, List.singleton_append]

lemma mem_iff_exists_link {relations : List Relation} {r : Relation} :
    r ∈ relations ↔ ∃ l ∈ linksOf relations, l.relation = r := by
  rw [← List.mem_reverse, ← map_relation_linksOf, List.mem_map]

/-- The steps from `a` to `c`. -/
def linkedPath : List Link → (a c : EntityType) → Option (List Step)
  | [], a, c => if a = c then some [] else none
  | l :: ls, a, c =>
    if treeOf ls a = treeOf ls c then linkedPath ls a c
    else if treeOf ls a = l.sourceTree ∧ treeOf ls c = l.targetTree then do
      let before ← linkedPath ls a l.relation.source
      let after ← linkedPath ls l.relation.target c
      return before ++ l.relation.forward :: after
    else if treeOf ls a = l.targetTree ∧ treeOf ls c = l.sourceTree then do
      let before ← linkedPath ls a l.relation.target
      let after ← linkedPath ls l.relation.source c
      return before ++ l.relation.backward :: after
    else none

/-- Each link joined two trees that were apart and bears their names. -/
def Linked : List Link → Prop
  | [] => True
  | l :: ls =>
    l.sourceTree = treeOf ls l.relation.source ∧ l.targetTree = treeOf ls l.relation.target ∧
      l.sourceTree ≠ l.targetTree ∧ Linked ls

/-- The step walks the relation in one of its two directions. -/
def Step.Walks (s : Step) (r : Relation) : Prop := s = r.forward ∨ s = r.backward

lemma linkedPath_cons_of_same {l : Link} {ls : List Link} {a c : EntityType}
    (h : treeOf ls a = treeOf ls c) : linkedPath (l :: ls) a c = linkedPath ls a c := by
  simp [linkedPath, h]

/-- A path between the trees that the latest link joined leads over that link. -/
lemma linkedPath_cons_of_walks {l : Link} {ls : List Link} {a c : EntityType} {s : Step}
    {before after : List Step} (h : Linked (l :: ls)) (hs : s.Walks l.relation)
    (ha : treeOf ls a = treeOf ls s.source) (hc : treeOf ls c = treeOf ls s.target)
    (hbefore : linkedPath ls a s.source = some before)
    (hafter : linkedPath ls s.target c = some after) :
    linkedPath (l :: ls) a c = some (before ++ s :: after) := by
  obtain ⟨h₁, h₂, hne, -⟩ := h
  have hst : treeOf ls l.relation.source ≠ treeOf ls l.relation.target :=
    fun e => hne (h₁.trans (e.trans h₂.symm))
  rcases hs with rfl | rfl
  · simp only [Relation.forward] at ha hc hbefore hafter
    simp [linkedPath, h₁, h₂, ha, hc, hbefore, hafter, hst]
  · simp only [Relation.backward] at ha hc hbefore hafter
    simp [linkedPath, h₁, h₂, ha, hc, hbefore, hafter, hst.symm]

/-- A path stays in one of the trees that the latest link joined, or it leads over that link. -/
lemma linkedPath_cons_cases {l : Link} {ls : List Link} {a c : EntityType} {path : List Step}
    (h : Linked (l :: ls)) (hp : linkedPath (l :: ls) a c = some path) :
    (treeOf ls a = treeOf ls c ∧ linkedPath ls a c = some path) ∨
      ∃ s before after, s.Walks l.relation ∧ treeOf ls a = treeOf ls s.source ∧
        treeOf ls c = treeOf ls s.target ∧ linkedPath ls a s.source = some before ∧
        linkedPath ls s.target c = some after ∧ path = before ++ s :: after := by
  obtain ⟨h₁, h₂, -, -⟩ := h
  unfold linkedPath at hp
  split_ifs at hp with hac hfw hbw
  · exact .inl ⟨hac, hp⟩
  · simp only [Option.bind_eq_bind, Option.bind_eq_some_iff, Option.pure_def, Option.some.injEq]
      at hp
    obtain ⟨before, hb, after, hr, rfl⟩ := hp
    exact .inr ⟨l.relation.forward, before, after, .inl rfl, hfw.1.trans h₁, hfw.2.trans h₂, hb, hr,
      rfl⟩
  · simp only [Option.bind_eq_bind, Option.bind_eq_some_iff, Option.pure_def, Option.some.injEq]
      at hp
    obtain ⟨before, hb, after, hr, rfl⟩ := hp
    exact .inr ⟨l.relation.backward, before, after, .inr rfl, hbw.1.trans h₂, hbw.2.trans h₁, hb, hr,
      rfl⟩

lemma linkedPath_self (ls : List Link) (a : EntityType) : linkedPath ls a a = some [] := by
  induction ls with
  | nil => simp [linkedPath]
  | cons l ls ih => rw [linkedPath_cons_of_same rfl, ih]

lemma treeOf_cons_congr {l : Link} {ls : List Link} {a c : EntityType}
    (h : treeOf ls a = treeOf ls c) : treeOf (l :: ls) a = treeOf (l :: ls) c := by
  simp [treeOf, h]

lemma treeOf_cons_of_walks {l : Link} {ls : List Link} {s : Step} (h : Linked (l :: ls))
    (hs : s.Walks l.relation) : treeOf (l :: ls) s.source = treeOf (l :: ls) s.target := by
  obtain ⟨h₁, h₂, -, -⟩ := h
  rcases hs with rfl | rfl <;> simp [treeOf, Relation.forward, Relation.backward, ← h₁, ← h₂]

/-- A path leads nowhere else than within a tree. -/
theorem treeOf_eq_of_linkedPath {ls : List Link} {a c : EntityType} {path : List Step}
    (h : Linked ls) (hp : linkedPath ls a c = some path) : treeOf ls a = treeOf ls c := by
  cases ls with
  | nil =>
    simp only [linkedPath] at hp
    split_ifs at hp with hac
    rw [hac]
  | cons l ls =>
    rcases linkedPath_cons_cases h hp with ⟨hac, -⟩ | ⟨s, -, -, hs, ha, hc, -, -, -⟩
    · exact treeOf_cons_congr hac
    · exact (treeOf_cons_congr ha).trans ((treeOf_cons_of_walks h hs).trans (treeOf_cons_congr hc.symm))

/-- A path without steps leads to where it starts, any other one to the target of its last step. -/
theorem target_of_linkedPath {ls : List Link} {a c : EntityType} {path : List Step}
    (h : Linked ls) (hp : linkedPath ls a c = some path) :
    (path.getLast?.map (·.target)).getD a = c := by
  induction ls generalizing a c path with
  | nil =>
    simp only [linkedPath] at hp
    split_ifs at hp with hac
    cases hp
    simpa using hac
  | cons l ls ih =>
    rcases linkedPath_cons_cases h hp with ⟨-, hp⟩ | ⟨s, before, after, -, -, -, -, hr, rfl⟩
    · exact ih h.2.2.2 hp
    · have hc := ih h.2.2.2 hr
      cases hl : after.getLast? with
      | none =>
        have : after = [] := List.getLast?_eq_none_iff.1 hl
        subst this
        simpa using hc
      | some t =>
        rw [hl] at hc
        rw [List.getLast?_append, List.getLast?_cons, hl]
        simpa using hc

/-- Two cuts of one list: one lies before the other, or they are the same. -/
lemma cut_cases {α : Type} {p q before after : List α} {s t : α}
    (h : p ++ s :: q = before ++ t :: after) :
    (∃ u, before = p ++ s :: u ∧ q = u ++ t :: after) ∨ (before = p ∧ t = s ∧ after = q) ∨
      ∃ u, p = before ++ t :: u ∧ after = u ++ s :: q := by
  rcases List.append_eq_append_iff.1 h with ⟨u, rfl, hu⟩ | ⟨u, rfl, hu⟩
  · cases u with
    | nil => exact .inr (.inl (by simp_all))
    | cons s' u =>
      obtain ⟨rfl, rfl⟩ := List.cons.inj hu
      exact .inl ⟨u, rfl, rfl⟩
  · cases u with
    | nil => exact .inr (.inl (by simp_all))
    | cons t' u =>
      obtain ⟨rfl, rfl⟩ := List.cons.inj hu
      exact .inr (.inr ⟨u, rfl, rfl⟩)

/-- A path may be cut before any of its steps, and after it. -/
theorem linkedPath_split {ls : List Link} {a c : EntityType} {p q : List Step} {s : Step}
    (h : Linked ls) (hp : linkedPath ls a c = some (p ++ s :: q)) :
    linkedPath ls a s.source = some p ∧ linkedPath ls a s.target = some (p ++ [s]) ∧
      linkedPath ls s.target c = some q := by
  induction ls generalizing a c p q s with
  | nil =>
    simp only [linkedPath] at hp
    split_ifs at hp
    simp at hp
  | cons l ls ih =>
    have hls := h.2.2.2
    rcases linkedPath_cons_cases h hp with ⟨hac, hp⟩ | ⟨t, before, after, ht, ha, hc, hb, hr, he⟩
    · obtain ⟨hsource, htarget, hrest⟩ := ih hls hp
      have hs := treeOf_eq_of_linkedPath hls hsource
      have hat := treeOf_eq_of_linkedPath hls htarget
      exact ⟨(linkedPath_cons_of_same hs).trans hsource, (linkedPath_cons_of_same hat).trans htarget,
        (linkedPath_cons_of_same (hat.symm.trans hac)).trans hrest⟩
    · rcases cut_cases he with ⟨u, rfl, rfl⟩ | ⟨rfl, rfl, rfl⟩ | ⟨u, rfl, rfl⟩
      · -- the cut lies before the link
        obtain ⟨hsource, htarget, hrest⟩ := ih hls hb
        have hs := treeOf_eq_of_linkedPath hls hsource
        have hat := treeOf_eq_of_linkedPath hls htarget
        exact ⟨(linkedPath_cons_of_same hs).trans hsource,
          (linkedPath_cons_of_same hat).trans htarget,
          linkedPath_cons_of_walks h ht (hat.symm.trans ha) hc hrest hr⟩
      · exact ⟨(linkedPath_cons_of_same ha).trans hb,
          linkedPath_cons_of_walks h ht ha rfl hb (linkedPath_self ls _),
          (linkedPath_cons_of_same hc.symm).trans hr⟩
      · obtain ⟨hsource, htarget, hrest⟩ := ih hls hr
        have hs := treeOf_eq_of_linkedPath hls hsource
        have hat := treeOf_eq_of_linkedPath hls htarget
        refine ⟨linkedPath_cons_of_walks h ht ha hs.symm hb hsource, ?_, ?_⟩
        · simpa using linkedPath_cons_of_walks h ht ha hat.symm hb htarget
        · exact (linkedPath_cons_of_same (hat.symm.trans hc.symm)).trans hrest

lemma walks_of_mem_linkedPath {ls : List Link} {a c : EntityType} {path : List Step} {s : Step}
    (h : Linked ls) (hp : linkedPath ls a c = some path) (hs : s ∈ path) :
    ∃ l ∈ ls, s.Walks l.relation := by
  induction ls generalizing a c path with
  | nil =>
    simp only [linkedPath] at hp
    split_ifs at hp
    cases hp
    simp at hs
  | cons l ls ih =>
    have hls := h.2.2.2
    rcases linkedPath_cons_cases h hp with ⟨-, hp⟩ | ⟨t, before, after, ht, -, -, hb, hr, rfl⟩
    · obtain ⟨l', hl', hw⟩ := ih hls hp hs
      exact ⟨l', List.mem_cons_of_mem _ hl', hw⟩
    · rcases List.mem_append.1 hs with hs | hs
      · obtain ⟨l', hl', hw⟩ := ih hls hb hs
        exact ⟨l', List.mem_cons_of_mem _ hl', hw⟩
      · rcases List.mem_cons.1 hs with rfl | hs
        · exact ⟨l, List.mem_cons_self, ht⟩
        · obtain ⟨l', hl', hw⟩ := ih hls hr hs
          exact ⟨l', List.mem_cons_of_mem _ hl', hw⟩

/-- The steps lead from one entity type to another, each from where the one before it ends. -/
def Connects : EntityType → List Step → EntityType → Prop
  | a, [], c => a = c
  | a, s :: steps, c => s.source = a ∧ Connects s.target steps c

variable {ls : List Link} {l : Link} {a c : EntityType} {path steps p q : List Step} {s t : Step}

lemma connects_append : Connects a (p ++ q) c ↔ ∃ b, Connects a p b ∧ Connects b q c := by
  induction p generalizing a with
  | nil => simp [Connects]
  | cons s p ih => simp [Connects, ih, and_assoc]

lemma connects_append_singleton :
    Connects a (p ++ [s]) c ↔ Connects a p s.source ∧ s.target = c := by
  rw [connects_append]
  simp only [Connects]
  constructor
  · rintro ⟨_, hp, rfl, hc⟩
    exact ⟨hp, hc⟩
  · rintro ⟨hp, hc⟩
    exact ⟨_, hp, rfl, hc⟩

lemma mem_of_connects (h : Connects a steps c) : c ∈ a :: steps.map (·.target) := by
  induction steps generalizing a with
  | nil => simpa using h.symm
  | cons s steps ih =>
    rw [List.map_cons]
    exact List.mem_cons_of_mem _ (ih h.2)

lemma connects_of_linkedPath (h : Linked ls) (hp : linkedPath ls a c = some path) :
    Connects a path c := by
  induction ls generalizing a c path with
  | nil =>
    simp only [linkedPath] at hp
    split_ifs at hp with hac
    cases hp
    exact hac
  | cons l ls ih =>
    rcases linkedPath_cons_cases h hp with ⟨-, hp⟩ | ⟨s, before, after, -, -, -, hb, hr, rfl⟩
    · exact ih h.2.2.2 hp
    · exact connects_append.2 ⟨s.source, ih h.2.2.2 hb, rfl, ih h.2.2.2 hr⟩

/-- Within a tree there is a path from anywhere to anywhere. -/
theorem exists_linkedPath (h : Linked ls) (hac : treeOf ls a = treeOf ls c) :
    ∃ path, linkedPath ls a c = some path := by
  induction ls generalizing a c with
  | nil => exact ⟨[], if_pos hac⟩
  | cons l ls ih =>
    have ⟨hsource, htarget, _, hls⟩ := h
    -- a step over the latest link, where the two are in the trees that it joined
    have hover : ∀ s : Step, s.Walks l.relation → treeOf ls a = treeOf ls s.source →
        treeOf ls s.target = treeOf ls c → ∃ path, linkedPath (l :: ls) a c = some path := by
      intro s hs ha hc
      obtain ⟨before, hb⟩ := ih hls ha
      obtain ⟨after, hr⟩ := ih hls hc
      exact ⟨_, linkedPath_cons_of_walks h hs ha hc.symm hb hr⟩
    by_cases hsame : treeOf ls a = treeOf ls c
    · obtain ⟨path, hp⟩ := ih hls hsame
      exact ⟨path, (linkedPath_cons_of_same hsame).trans hp⟩
    · simp only [treeOf] at hac
      split_ifs at hac with ha hc hc
      · exact absurd (ha.trans hc.symm) hsame
      · exact hover l.relation.forward (.inl rfl) (ha.trans hsource) (htarget.symm.trans hac)
      · exact hover l.relation.backward (.inr rfl) (hac.trans htarget) (hsource.symm.trans hc.symm)
      · exact absurd hac hsame

lemma treeOf_eq_of_walks (h : Linked ls) (hl : l ∈ ls) (hs : s.Walks l.relation) :
    treeOf ls s.source = treeOf ls s.target := by
  induction ls with
  | nil => simp at hl
  | cons l' ls ih =>
    rcases List.mem_cons.1 hl with rfl | hl
    · exact treeOf_cons_of_walks h hs
    · exact treeOf_cons_congr (ih h.2.2.2 hl)

lemma eq_or_opposite_of_walks {r : Relation} (hs : s.Walks r) (ht : t.Walks r) :
    t = s ∨ (t.source = s.target ∧ t.target = s.source) := by
  rcases hs with rfl | rfl <;> rcases ht with rfl | rfl
  · exact .inl rfl
  · exact .inr ⟨rfl, rfl⟩
  · exact .inr ⟨rfl, rfl⟩
  · exact .inl rfl

/-- One step further along a relation the path is longer by this step, or it has lost its last one,
which came from there. -/
theorem linkedPath_step (h : Linked ls) (hl : l ∈ ls) (hs : s.Walks l.relation)
    (hp : linkedPath ls a s.source = some p) :
    linkedPath ls a s.target = some (p ++ [s]) ∨
      ∃ q t, p = q ++ [t] ∧ linkedPath ls a s.target = some q := by
  induction ls generalizing a p with
  | nil => simp at hl
  | cons l' ls ih =>
    have hls := h.2.2.2
    rcases List.mem_cons.1 hl with rfl | hl
    · rcases linkedPath_cons_cases h hp with ⟨ha, hp⟩ | ⟨t, before, after, ht, ha, hc, hb, hr, rfl⟩
      · exact .inl (linkedPath_cons_of_walks h hs ha rfl hp (linkedPath_self ls _))
      · rcases eq_or_opposite_of_walks hs ht with rfl | ⟨hsource, htarget⟩
        · -- the step cannot end where it started
          have ⟨h₁, h₂, hne, _⟩ := h
          rcases hs with rfl | rfl
          · exact absurd (h₁.trans (hc.trans h₂.symm)) hne
          · exact absurd (h₁.trans (hc.symm.trans h₂.symm)) hne
        · rw [htarget, linkedPath_self, Option.some.injEq] at hr
          rw [hsource] at ha hb
          exact .inr ⟨before, t, by rw [← hr], (linkedPath_cons_of_same ha).trans hb⟩
    · have htree := treeOf_eq_of_walks hls hl hs
      rcases linkedPath_cons_cases h hp with ⟨ha, hp⟩ | ⟨t, before, after, ht, ha, hc, hb, hr, rfl⟩
      · rw [linkedPath_cons_of_same (ha.trans htree)]
        exact ih hls hl hp
      · rw [htree] at hc
        rcases ih hls hl hr with hlonger | ⟨q, u, rfl, hshorter⟩
        · exact .inl (by simpa using linkedPath_cons_of_walks h ht ha hc hb hlonger)
        · exact .inr ⟨before ++ t :: q, u, by simp, linkedPath_cons_of_walks h ht ha hc hb hshorter⟩

end Tabulation.Catalog
