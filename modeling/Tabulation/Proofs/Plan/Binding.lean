import Tabulation.Proofs.Plan.Joins

/-! Which rows the columns of a plan are read from. The joins of every list each give an alias of its own
to partners of a row that the list has already, and the columns that are read along a list are of the
root row or of a row that it joins, whatever the aliases of entity types are. -/
namespace Tabulation.Plan
open Catalog (FanOutKey Step)

/-- The alias is that of the root row or of a join. -/
def Bound (rootAlias : String) (joins : List Join) (aliasName : String) : Prop :=
  aliasName = rootAlias ∨ aliasName ∈ joins.map (·.aliasName)

/-- No two joins share an alias, and each joins the root row or the row of a join before it. -/
structure Nested (rootAlias : String) (joins : List Join) : Prop where
  distinct : (joins.map (·.aliasName)).Nodup
  parent : ∀ before j after, joins = before ++ j :: after → Bound rootAlias before j.parentAlias

/-- Nested joins for steps. A step is left out only if its alias is taken. -/
structure Covers (rootAlias : String) (joins : List Join) (steps : List Step) : Prop where
  nested : Nested rootAlias joins
  named : ∀ j ∈ joins, j.aliasName = j.step.target.aliasName
  mem : ∀ j ∈ joins, j.step ∈ steps
  taken : ∀ s ∈ steps, s.target.aliasName ∈ joins.map (·.aliasName)

section

variable {rootAlias : String} {joins : List Join} {steps steps' : List Step} {s : Step}

lemma nested_nil : Nested rootAlias [] := ⟨List.nodup_nil, fun before j after h => by simp at h⟩

lemma Nested.append_singleton (h : Nested rootAlias joins) {j : Join}
    (hparent : Bound rootAlias joins j.parentAlias) (hfresh : j.aliasName ∉ joins.map (·.aliasName)) :
    Nested rootAlias (joins ++ [j]) := by
  refine ⟨?_, fun before k after hcut => ?_⟩
  · rw [List.map_append, List.map_singleton, List.nodup_append]
    refine ⟨h.distinct, by simp, fun a ha b hb hab => hfresh ?_⟩
    rw [List.mem_singleton.1 hb] at hab
    exact hab ▸ ha
  · rcases Catalog.cut_cases hcut with ⟨u, -, hnil⟩ | ⟨rfl, rfl, -⟩ | ⟨u, hcut, -⟩
    · simp at hnil
    · exact hparent
    · exact h.parent before k u hcut

/-- Changes of joins that leave aliases and parents alone do no harm. -/
lemma Nested.map (h : Nested rootAlias joins) {f : Join → Join}
    (hf : ∀ j, (f j).aliasName = j.aliasName ∧ (f j).parentAlias = j.parentAlias) :
    Nested rootAlias (joins.map f) := by
  have haliases : ∀ js : List Join, (js.map f).map (·.aliasName) = js.map (·.aliasName) := fun js => by
    simp [Function.comp_def, hf]
  refine ⟨(haliases joins).symm ▸ h.distinct, fun before k after hcut => ?_⟩
  obtain ⟨before, rest, rfl, rfl, hrest⟩ := List.map_eq_append_iff.1 hcut
  obtain ⟨j, after, rfl, rfl, -⟩ := List.map_eq_cons_iff.1 hrest
  rw [Bound, haliases, (hf j).2]
  exact h.parent before j after rfl

lemma covers_nil : Covers rootAlias [] [] := ⟨nested_nil, by simp, by simp, by simp⟩

lemma Covers.congr (h : Covers rootAlias joins steps) (hs : ∀ s, s ∈ steps ↔ s ∈ steps') :
    Covers rootAlias joins steps' where
  nested := h.nested
  named := h.named
  mem j hj := (hs _).1 (h.mem j hj)
  taken s hmem := h.taken s ((hs s).2 hmem)

lemma Covers.addStep (h : Covers rootAlias joins steps) (hs : Bound rootAlias joins s.source.aliasName)
    (kind : JoinKind) : Covers rootAlias (addStep joins kind s) (steps ++ [s]) := by
  unfold Plan.addStep
  simp only
  split_ifs with hany
  · let inner (j : Join) : Join :=
      if j.aliasName = s.target.aliasName ∧ kind = .inner then { j with kind := .inner } else j
    have hsame : ∀ j, ((inner j).aliasName = j.aliasName ∧ (inner j).parentAlias = j.parentAlias) ∧
        (inner j).step = j.step := fun j => by
      simp only [inner]
      split_ifs <;> exact ⟨⟨rfl, rfl⟩, rfl⟩
    have haliases : (joins.map inner).map (·.aliasName) = joins.map (·.aliasName) := by
      simp [Function.comp_def, hsame]
    refine ⟨h.nested.map fun j => (hsame j).1, fun j hj => ?_, fun j hj => ?_, fun t ht => ?_⟩
    · obtain ⟨k, hk, rfl⟩ := List.mem_map.1 hj
      rw [(hsame k).1.1, (hsame k).2]
      exact h.named k hk
    · obtain ⟨k, hk, rfl⟩ := List.mem_map.1 hj
      rw [(hsame k).2]
      exact List.mem_append_left _ (h.mem k hk)
    · rw [haliases]
      rcases List.mem_append.1 ht with ht | ht
      · exact h.taken t ht
      · rw [List.mem_singleton.1 ht]
        simpa using hany
  · have hfresh : s.target.aliasName ∉ joins.map (·.aliasName) := by simpa using hany
    refine ⟨h.nested.append_singleton hs hfresh, fun j hj => ?_, fun j hj => ?_, fun t ht => ?_⟩
    · rcases List.mem_append.1 hj with hj | hj
      · exact h.named j hj
      · rw [List.mem_singleton.1 hj]
    · rcases List.mem_append.1 hj with hj | hj
      · exact List.mem_append_left _ (h.mem j hj)
      · rw [List.mem_singleton.1 hj]
        simp
    · rw [List.map_append]
      rcases List.mem_append.1 ht with ht | ht
      · exact List.mem_append_left _ (h.taken t ht)
      · simp [List.mem_singleton.1 ht]

end

/-- The join lists of a plan, each with the columns that are read along it. -/
def joinLists (p : Plan) : List (List Join × List ColumnRef) :=
  (p.joins, p.rootKey :: (p.groupKeys.map (·.column) ++ p.localAggregates.map (·.column) ++
      p.predicates.map (·.column))) ::
    (p.subExpressions.map (fun s =>
        (s.joins, s.aggregates.map (·.column) ++ s.predicates.map (·.column))) ++
      p.semiJoins.map (fun s => (s.joins, s.predicates.map (·.column))) ++
      (p.scope.getD []).map fun b => (b.joins, [b.key]))

/-- The steps on the ways from the root to columns. -/
def stepsTo (catalog : Catalog) (root : EntityType) (columns : List ColumnRef) : List Step :=
  columns.flatMap fun c => (catalog.path? root c.entity).getD []

/-- Joins for the ways to columns, which go by the aliases of their entity types. -/
structure LeadsTo (catalog : Catalog) (root : EntityType) (joins : List Join) (columns : List ColumnRef) :
    Prop where
  covers : Covers root.aliasName joins (stepsTo catalog root columns)
  column : ∀ c ∈ columns, c.aliasName = c.entity.aliasName ∧
    ∃ path, catalog.path? root c.entity = some path

section

variable {catalog : Catalog} {root e : EntityType} {joins : List Join} {columns columns' : List ColumnRef}
  {steps path : List Step} {s : Step}

/-- The end of a path is bound where its steps are covered. -/
lemma Covers.bound (h : Covers root.aliasName joins steps) (hc : catalog.WellFormed)
    (hp : catalog.path? root e = some path) (hsub : path ⊆ steps) :
    Bound root.aliasName joins e.aliasName := by
  rcases List.eq_nil_or_concat' path with rfl | ⟨before, s, rfl⟩
  · exact .inl (congrArg _ (Catalog.path?_nil hc hp).symm)
  · rw [← Catalog.path?_target hc hp]
    exact .inr (h.taken s (hsub (by simp)))

/-- Adding a path from the root joins its steps one by one. -/
theorem Covers.addPath (h : Covers root.aliasName joins steps) (hc : catalog.WellFormed)
    (hp : catalog.path? root e = some path) (kindOf : Step → JoinKind) :
    Covers root.aliasName (addPath kindOf joins path) (steps ++ path) := by
  induction path using List.reverseRecOn generalizing e with
  | nil => simpa [Plan.addPath] using h
  | append_singleton path s ih =>
    have hsource := (Catalog.path?_split hc hp).1
    have hpath := ih hsource
    rw [Plan.addPath, List.foldl_append, ← List.append_assoc]
    exact hpath.addStep (hpath.bound hc hsource (List.subset_append_right _ _)) (kindOf s)

lemma mem_stepsTo : s ∈ stepsTo catalog root columns ↔
    ∃ c ∈ columns, ∃ path, catalog.path? root c.entity = some path ∧ s ∈ path := by
  unfold stepsTo
  rw [List.mem_flatMap]
  refine exists_congr fun c => and_congr_right fun _ => ?_
  cases catalog.path? root c.entity <;> simp

lemma leadsTo_nil : LeadsTo catalog root [] [] := ⟨covers_nil, by simp⟩

lemma LeadsTo.congr (h : LeadsTo catalog root joins columns) (hs : ∀ c, c ∈ columns ↔ c ∈ columns') :
    LeadsTo catalog root joins columns' := by
  refine ⟨h.covers.congr fun s => ?_, fun c hc => h.column c ((hs c).2 hc)⟩
  rw [mem_stepsTo, mem_stepsTo]
  exact exists_congr fun c => and_congr_left' (hs c)

lemma LeadsTo.bound (h : LeadsTo catalog root joins columns) (hc : catalog.WellFormed) {c : ColumnRef}
    (hcolumn : c ∈ columns) : Bound root.aliasName joins c.aliasName := by
  obtain ⟨halias, path, hp⟩ := h.column c hcolumn
  rw [halias]
  exact h.covers.bound hc hp fun s hs => mem_stepsTo.2 ⟨c, hcolumn, path, hp, hs⟩

/-- A path is added for all columns to whose entity type it leads. -/
lemma LeadsTo.addPath (h : LeadsTo catalog root joins columns) (hc : catalog.WellFormed)
    (hp : catalog.path? root e = some path) {cs : List ColumnRef} (hne : cs ≠ [])
    (hcs : ∀ c ∈ cs, c.aliasName = c.entity.aliasName ∧ c.entity = e) (kindOf : Step → JoinKind) :
    LeadsTo catalog root (addPath kindOf joins path) (columns ++ cs) := by
  have hpaths : ∀ c ∈ cs, catalog.path? root c.entity = some path := fun c hc => (hcs c hc).2 ▸ hp
  refine ⟨(h.covers.addPath hc hp kindOf).congr fun s => ?_, fun c hmem => ?_⟩
  · have hsteps : s ∈ stepsTo catalog root cs ↔ s ∈ path := by
      rw [mem_stepsTo]
      constructor
      · rintro ⟨c, hmem, p, hp', hs⟩
        rw [hpaths c hmem] at hp'
        exact Option.some.inj hp' ▸ hs
      · intro hs
        obtain ⟨c, hmem⟩ := List.exists_mem_of_ne_nil cs hne
        exact ⟨c, hmem, path, hpaths c hmem, hs⟩
    rw [List.mem_append, ← hsteps]
    simp [stepsTo]
  · rcases List.mem_append.1 hmem with hmem | hmem
    · exact h.column c hmem
    · exact ⟨(hcs c hmem).1, path, hpaths c hmem⟩

lemma LeadsTo.addPaths (h : LeadsTo catalog root joins columns) (hc : catalog.WellFormed) {α : Type}
    {column : α → ColumnRef} {path : α → List Step} {xs : List α}
    (hxs : ∀ x ∈ xs, (column x).aliasName = (column x).entity.aliasName ∧
      catalog.path? root (column x).entity = some (path x)) (kindOf : Step → JoinKind) :
    LeadsTo catalog root (xs.foldl (fun joins x => Plan.addPath kindOf joins (path x)) joins)
      (columns ++ xs.map column) := by
  induction xs generalizing joins columns with
  | nil => simpa using h
  | cons x xs ih =>
    obtain ⟨⟨halias, hpath⟩, hrest⟩ := List.forall_mem_cons.1 hxs
    have hstep : LeadsTo catalog root (Plan.addPath kindOf joins (path x)) (columns ++ [column x]) :=
      h.addPath hc hpath (by simp) (by simpa using halias) kindOf
    rw [List.map_cons, List.append_cons, List.foldl_cons]
    exact ih hstep hrest

/-- Joins with predicates lead to the columns of these and to others. -/
def Restricted.LeadsTo (catalog : Catalog) (root : EntityType) (r : Restricted)
    (columns : List ColumnRef) : Prop :=
  Plan.LeadsTo catalog root r.1 (columns ++ r.2.map (·.column))

lemma leadsTo_restrictBy {r : Restricted} (h : r.LeadsTo catalog root columns) (hc : catalog.WellFormed)
    {f : FannedFilters} (hf : catalog.path? root f.entity = some f.path) (hne : f.predicates ≠ [])
    (hall : ∀ q ∈ f.predicates, q.column.aliasName = q.column.entity.aliasName ∧
      q.column.entity = f.entity) : (restrictBy r f).LeadsTo catalog root columns := by
  unfold restrictBy
  split_ifs
  · have hcolumns : ∀ c ∈ f.predicates.map (·.column), c.aliasName = c.entity.aliasName ∧
        c.entity = f.entity := by
      intro c hmem
      obtain ⟨q, hq, rfl⟩ := List.mem_map.1 hmem
      exact hall q hq
    rw [Restricted.LeadsTo, List.map_append, ← List.append_assoc]
    exact h.addPath hc hf (by simpa using hne) hcolumns fun _ => .inner
  · exact h

end

namespace Layout

variable {catalog : Catalog} {l : Layout} {c : Checked} {scope : Scope.Resolved}
  {os : List (Nat × Sorting.SortOrder)} {columns : List ColumnRef}

/-- The filters that are brought together are on the entity type to which their path leads. -/
lemma column_of_fanned {f : FannedFilters} (hf : f ∈ l.fanned) : f.predicates ≠ [] ∧
    ∀ q ∈ f.predicates, q.column.aliasName = q.column.entity.aliasName ∧ q.column.entity = f.entity := by
  obtain ⟨-, hne, hall⟩ := mem_groupFilters hf
  refine ⟨hne, fun q hq => ?_⟩
  obtain ⟨g, -, hentity, rfl⟩ := hall q hq
  exact ⟨rfl, hentity⟩

lemma map_column_aggregates (offset : Nat) (part : Partition) :
    (aggregates offset part).map (·.column) = part.map fun a => .ofColumn a.2.column := by
  simp [aggregates, Function.comp_def]

lemma map_column_groupKeys (l : Layout) (catalog : Catalog) (c : Checked) (scope : Scope.Resolved)
    (os : List (Nat × Sorting.SortOrder)) : (l.plan catalog c scope os).groupKeys.map (·.column) =
      l.projections.map fun x => .ofColumn x.column := by
  conv_rhs => rw [← List.zipIdx_map_fst 0 l.projections, List.map_map]
  simp [plan, Function.comp_def]

namespace Sound

variable (h : l.Sound catalog) (hc : catalog.WellFormed)
include h hc

/-- The aggregations of a part can be read from the rows that are joined for it, as can the filters. -/
lemma leadsTo_part {r : Restricted} (hr : r.LeadsTo catalog l.root columns)
    {part : FanOutKey × Partition} (hpart : part ∈ l.parts.entries) (kindOf : Step → JoinKind) :
    let joins := part.2.foldl (fun joins a => addPath kindOf joins a.2.path) r.1
    (l.fanned.foldl restrictBy (joins, r.2)).LeadsTo catalog l.root
      (columns ++ part.2.map fun a => .ofColumn a.2.column) := by
  intro joins
  have hjoins : LeadsTo catalog l.root joins
      (columns ++ r.2.map (·.column) ++ part.2.map fun a => .ofColumn a.2.column) :=
    hr.addPaths hc (fun a ha => ⟨rfl, ((h.part part hpart).2 a ha).1⟩) kindOf
  have hstart : Restricted.LeadsTo catalog l.root (joins, r.2)
      (columns ++ part.2.map fun a => .ofColumn a.2.column) := by
    refine hjoins.congr fun x => ?_
    simp only [List.mem_append]
    tauto
  refine List.foldlRecOn l.fanned restrictBy
    (motive := fun r => r.LeadsTo catalog l.root (columns ++ part.2.map fun a => .ofColumn a.2.column))
    hstart fun r hr f hf => ?_
  obtain ⟨hne, hall⟩ := column_of_fanned hf
  exact leadsTo_restrictBy hr hc (h.fanned_path hf).1 hne hall

/-- The main rows bind projections and filters, and aggregations that do not fan out. -/
lemma leadsTo_main : l.main.LeadsTo catalog l.root
    (l.projections.map (fun x => .ofColumn x.column) ++ l.near.map fun a => .ofColumn a.2.column) := by
  have hprojections : LeadsTo catalog l.root (l.projections.foldl (fun joins x => addInner joins x.path) [])
      ([] ++ l.projections.map fun x => .ofColumn x.column) :=
    leadsTo_nil.addPaths hc (fun x hx => ⟨rfl, (h.projection x hx).1⟩) fun _ => .inner
  have hdirect : LeadsTo catalog l.root (l.direct.foldl (fun joins f => addInner joins f.path) _)
      (_ ++ l.direct.map fun f => .ofColumn f.column) :=
    hprojections.addPaths hc (fun f hf => ⟨rfl, (h.direct_path hf).1⟩) fun _ => .inner
  have hnear : LeadsTo catalog l.root (l.near.foldl (fun joins a => addLeft joins a.2.path) _)
      (_ ++ l.near.map fun a => .ofColumn a.2.column) :=
    hdirect.addPaths hc (fun a ha => ⟨rfl, (h.near_path ha).1⟩) fun _ => .left
  refine hnear.congr fun x => ?_
  simp only [main, List.mem_append, List.map_map, List.nil_append]
  tauto

lemma leadsTo_addFlat (style : Query.JoinStyle) {parts : List (FanOutKey × Partition)}
    (hparts : parts ⊆ l.parts.entries) {r : Restricted} (hr : r.LeadsTo catalog l.root columns) :
    (parts.foldl (fun r part => addFlat style l.fanned r part.2) r).LeadsTo catalog l.root
      (columns ++ parts.flatMap fun part => part.2.map fun a => .ofColumn a.2.column) := by
  induction parts generalizing r columns with
  | nil => simpa using hr
  | cons part parts ih =>
    obtain ⟨hpart, hrest⟩ := List.cons_subset.1 hparts
    rw [List.foldl_cons, List.flatMap_cons, ← List.append_assoc]
    exact ih hrest (h.leadsTo_part hc hr hpart (flatKind style l.fanned))

lemma leadsTo_mainColumns :
    let p := l.plan catalog c scope os
    LeadsTo catalog l.root p.joins (p.rootKey ::
      (p.groupKeys.map (·.column) ++ p.localAggregates.map (·.column) ++ p.predicates.map (·.column))) := by
  intro p
  have hmain : Restricted.LeadsTo catalog l.root (p.joins, p.predicates)
      (p.groupKeys.map (·.column) ++ p.localAggregates.map (·.column)) := by
    rw [show p.groupKeys.map (·.column) = _ from l.map_column_groupKeys catalog c scope os]
    by_cases hflat : c.strategy = .flat
    · have hfar := h.leadsTo_addFlat hc c.joinStyle far_subset (h.leadsTo_main hc)
      simpa [p, plan, hflat, map_column_aggregates, List.map_flatMap, List.append_assoc] using hfar
    · simpa [p, plan, hflat, map_column_aggregates] using h.leadsTo_main hc
  -- no steps lead to the root's own columns
  have hroot : ∀ x ∈ [p.rootKey], x.aliasName = x.entity.aliasName ∧ x.entity = l.root := by
    intro x hx
    rw [List.mem_singleton.1 hx]
    exact ⟨rfl, rfl⟩
  have hall := hmain.addPath hc (Catalog.path?_self h.root) (by simp) hroot fun _ => .inner
  refine hall.congr fun x => ?_
  simp only [List.mem_append, List.mem_cons, List.not_mem_nil, or_false]
  tauto

/-- The joins of every list lead to its columns, and to nothing else. -/
theorem leadsTo_joinLists : ∀ list ∈ (l.plan catalog c scope os).joinLists,
    LeadsTo catalog l.root list.1 list.2 := by
  intro list hlist
  simp only [joinLists, List.mem_cons, List.mem_append, List.mem_map] at hlist
  obtain rfl | (⟨s, hs, rfl⟩ | ⟨s, hs, rfl⟩) | ⟨b, hb, rfl⟩ := hlist
  · exact h.leadsTo_mainColumns hc
  · simp only [plan] at hs
    split_ifs at hs
    · simp at hs
    · obtain ⟨part, hpart, rfl⟩ := List.mem_map.1 hs
      have hnil : Restricted.LeadsTo catalog l.root ([], []) [] := leadsTo_nil
      have hsub := h.leadsTo_part hc hnil (far_subset hpart) measureKind
      simp only [subExpression, map_column_aggregates]
      exact hsub
  · obtain ⟨f, hf, rfl⟩ := List.mem_map.1 hs
    obtain ⟨hne, hall⟩ := column_of_fanned hf
    refine leadsTo_nil.addPath hc (h.fanned_path hf).1 (by simpa [semiJoin] using hne) (fun x hx => ?_)
      fun _ => .inner
    obtain ⟨q, hq, rfl⟩ := List.mem_map.1 hx
    exact hall q hq
  · cases scope with
    | unrestricted => simp [plan, scopeBranches] at hb
    | restricted leaves =>
      simp only [plan, scopeBranches, Option.getD_some, List.mem_filterMap, Option.map_eq_some_iff] at hb
      obtain ⟨leaf, -, path, hpath, rfl⟩ := hb
      refine leadsTo_nil.addPath hc hpath (by simp) (fun x hx => ?_) fun _ => .inner
      rw [List.mem_singleton.1 hx]
      exact ⟨rfl, rfl⟩

end Sound

end Layout

end Tabulation.Plan
