import Mathlib.Data.List.Sort
import Tabulation.Proofs.Plan.Checking
import Tabulation.Proofs.Plan.Filters

/-! What a plan has of its query's filters: the active ones, and of these, but for the order and number of
its predicates, no more than which there are. -/
namespace Tabulation
open Query (Model Filter)

/-- The same members, in any order and any number of times. -/
def SameMembers {α : Type} (xs ys : List α) : Prop := ∀ x, x ∈ xs ↔ x ∈ ys

namespace SameMembers

variable {α β : Type} {xs ys xs' ys' : List α}

lemma refl (xs : List α) : SameMembers xs xs := fun _ => Iff.rfl

lemma append (h : SameMembers xs ys) (h' : SameMembers xs' ys') :
    SameMembers (xs ++ xs') (ys ++ ys') := fun x => by
  rw [List.mem_append, List.mem_append, h x, h' x]

lemma filter (h : SameMembers xs ys) (p : α → Bool) : SameMembers (xs.filter p) (ys.filter p) :=
  fun x => by rw [List.mem_filter, List.mem_filter, h x]

lemma map (h : SameMembers xs ys) (f : α → β) : SameMembers (xs.map f) (ys.map f) := fun y => by
  simp only [List.mem_map, h _]

lemma all_eq (h : SameMembers xs ys) (p : α → Bool) : xs.all p = ys.all p := by
  rw [Bool.eq_iff_iff, List.all_eq_true, List.all_eq_true]
  exact forall_congr' fun x => imp_congr_left (h x)

/-- What a traversal finds of the same members is the same. -/
lemma mapM {ε : Type} {f : α → Except ε β} {us vs : List β} (h : SameMembers xs ys)
    (hu : xs.mapM f = .ok us) (hv : ys.mapM f = .ok vs) : SameMembers us vs := fun u => by
  rw [Outcome.mem_iff_of_mapM hu, Outcome.mem_iff_of_mapM hv]
  exact exists_congr fun x => and_congr_left' (h x)

end SameMembers

namespace Query.Model

/-- The filters that are switched on. -/
def activeFilters (m : Model) : List Filter := m.filters.filter (·.isActive)

/-- The query with other filters. -/
def withFilters (m : Model) (fs : List Filter) : Model := { m with filters := fs }

end Query.Model

namespace Plan
open Catalog (Step)
open Outcome

namespace Finds

variable {catalog : Catalog} {α : Type} {label : α → String} {xs ys : List α} {fs gs : List (Found α)}

lemma unique (h : Finds catalog label xs fs) (h' : Finds catalog label xs gs) : fs = gs := by
  induction h generalizing gs with
  | nil =>
    cases h'
    rfl
  | @cons x f xs fs hf _ ih =>
    cases h' with
    | @cons _ g _ gs hg hgs =>
      obtain ⟨rfl, hcolumn⟩ := hf
      obtain ⟨huse, hcolumn'⟩ := hg
      have hsame : f = g := by
        cases f
        cases g
        simp_all
      rw [hsame, ih hgs]

lemma mem_iff (h : Finds catalog label xs fs) (f : Found α) :
    f ∈ fs ↔ f.use ∈ xs ∧ catalog.column? (label f.use) = some f.column := by
  induction h with
  | nil => simp
  | @cons x g xs fs hg _ ih =>
    obtain ⟨rfl, hcolumn⟩ := hg
    rw [List.mem_cons, List.mem_cons, ih, or_and_right]
    refine or_congr_left ⟨?_, fun ⟨huse, hf⟩ => ?_⟩
    · rintro rfl
      exact ⟨rfl, hcolumn⟩
    · rw [huse, hcolumn] at hf
      cases f
      cases g
      simp_all

lemma sameMembers (h : Finds catalog label xs fs) (h' : Finds catalog label ys gs)
    (hxy : SameMembers xs ys) : SameMembers fs gs := fun f => by
  rw [h.mem_iff, h'.mem_iff, hxy]

end Finds

section

variable {catalog : Catalog} {m : Model} {fs : List Filter} {c c' : Checked} {l l' : Layout}

lemma place_of_checkOrdering {involved : Query.Involved} {labels : List String} {o : Query.OrderingColumn}
    {x : Nat × Query.OrderingColumn} (h : checkOrdering catalog involved labels o = .ok x) :
    labels.idxOf? o.label = some x.1 ∧ x.2 = o := by
  obtain ⟨-, -, h⟩ := bind_eq_ok.1 h
  split at h
  · rename_i place hplace
    cases h
    exact ⟨hplace, rfl⟩
  · cases h

/-- What is found of other columns does not depend on the filters and on what is involved for them. -/
lemma Checked.Of.withFilters {involved : Query.Involved} (h : Checked.Of catalog m c)
    (h' : Checked.Of catalog { m with filters := fs, involved := involved } c') :
    c' = { c with filters := c'.filters } := by
  have hstrategy := h'.strategy.trans h.strategy.symm
  have hstyle := h'.joinStyle.trans h.joinStyle.symm
  have hroot := h'.root.trans h.root.symm
  have hprojections := h'.finds_projections.unique h.finds_projections
  have haggregations := h'.finds_aggregations.unique h.finds_aggregations
  have horderings : c'.orderings = c.orderings := by
    refine List.right_unique_forall₂' ?_ ((mapM_eq_ok.1 h'.orderings).imp fun _ _ => place_of_checkOrdering)
      ((mapM_eq_ok.1 h.orderings).imp fun _ _ => place_of_checkOrdering)
    rintro o x y ⟨hx, hxo⟩ ⟨hy, hyo⟩
    exact Prod.ext (Option.some.inj (hx.symm.trans hy)) (hxo.trans hyo.symm)
  cases c'
  simp only at hstrategy hstyle hroot hprojections haggregations horderings
  rw [hstrategy, hstyle, hroot, hprojections, haggregations, horderings]

/-- A checked query has one layout. -/
lemma Layout.Of.unique (h : Layout.Of catalog c l) (h' : Layout.Of catalog c l') : l' = l := by
  obtain ⟨hroot, hprojections⟩ := Prod.mk.inj (Except.ok.inj (h'.root.symm.trans h.root))
  have hparts := h'.parts
  have hfilters := h'.filters
  rw [hroot] at hparts hfilters
  have hparts := Except.ok.inj (hparts.symm.trans h.parts)
  have hfilters := Except.ok.inj (hfilters.symm.trans h.filters)
  cases l'
  simp only at hroot hprojections hparts hfilters
  rw [hroot, hprojections, hparts, hfilters]

/-- Filters bear on nothing in a layout but what is placed of them. -/
lemma Layout.Of.withFilters {gs : List (Found Filter)} (h : Layout.Of catalog c l)
    (h' : Layout.Of catalog { c with filters := gs } l') : l' = { l with filters := l'.filters } := by
  obtain ⟨hroot, hprojections⟩ := Prod.mk.inj (Except.ok.inj (h'.root.symm.trans h.root))
  have hparts := h'.parts
  rw [hroot] at hparts
  have hparts := Except.ok.inj (hparts.symm.trans h.parts)
  cases l'
  simp only at hroot hprojections hparts
  rw [hroot, hprojections, hparts]

/-- The same filters are placed as a set. -/
lemma Layout.Of.sameMembers {gs : List (Found Filter)} (h : Layout.Of catalog c l)
    (h' : Layout.Of catalog { c with filters := gs } l') (hgs : SameMembers c.filters gs) :
    SameMembers l.filters l'.filters := by
  have hfilters := h'.filters
  rw [h.withFilters h'] at hfilters
  have hsorted : SameMembers (c.filters.mergeSort fun f g => (compare f.entity g.entity).isLE)
      (gs.mergeSort fun f g => (compare f.entity g.entity).isLE) := fun f => by
    rw [List.mem_mergeSort, List.mem_mergeSort, hgs f]
  exact hsorted.mapM h.filters hfilters

end

/-- An alias is joined, and only by inner joins. -/
def JoinedInner (joins : List Join) (aliasName : String) : Prop :=
  aliasName ∈ joins.map (·.aliasName) ∧ ∀ j ∈ joins, j.aliasName = aliasName → j.kind = .inner

section

variable {joins : List Join} {path : List Step} {s : Step} {aliasName : String}

lemma addStep_of_joinedInner (h : JoinedInner joins s.target.aliasName) :
    addStep joins .inner s = joins := by
  obtain ⟨hmem, hinner⟩ := h
  have hany : (joins.any fun j => j.aliasName = s.target.aliasName) = true := by simpa using hmem
  have hsame : ∀ j ∈ joins,
      (if j.aliasName = s.target.aliasName then { j with kind := .inner } else j) = j := by
    intro j hj
    split_ifs with halias
    · rw [← hinner j hj halias]
    · rfl
  unfold addStep
  simp only [hany, if_true, and_true]
  rw [List.map_congr_left hsame, List.map_id']

lemma joinedInner_addStep (joins : List Join) (s : Step) :
    JoinedInner (addStep joins .inner s) s.target.aliasName := by
  unfold addStep
  simp only [and_true]
  split_ifs with hany
  · refine ⟨?_, fun j hj halias => ?_⟩
    · obtain ⟨j, hj, halias⟩ := List.any_eq_true.1 hany
      have halias := of_decide_eq_true halias
      exact List.mem_map.2 ⟨{ j with kind := .inner }, List.mem_map.2 ⟨j, hj, if_pos halias⟩, halias⟩
    · obtain ⟨k, -, rfl⟩ := List.mem_map.1 hj
      split_ifs at halias ⊢ with hk
      · rfl
      · exact absurd halias hk
  · refine ⟨by simp, fun j hj halias => ?_⟩
    rcases List.mem_append.1 hj with hj | hj
    · have hall : ∀ k ∈ joins, k.aliasName ≠ s.target.aliasName := by simpa using hany
      exact absurd halias (hall j hj)
    · rw [List.mem_singleton.1 hj]

lemma JoinedInner.addStep (h : JoinedInner joins aliasName) (s : Step) :
    JoinedInner (addStep joins .inner s) aliasName := by
  by_cases he : aliasName = s.target.aliasName
  · rw [he]
    exact joinedInner_addStep joins s
  · obtain ⟨hmem, hinner⟩ := h
    unfold Plan.addStep
    simp only
    split_ifs
    · refine ⟨?_, fun j hj halias => ?_⟩
      · obtain ⟨j, hj, rfl⟩ := List.mem_map.1 hmem
        refine List.mem_map.2 ⟨_, List.mem_map.2 ⟨j, hj, rfl⟩, ?_⟩
        split_ifs <;> rfl
      · obtain ⟨k, hk, rfl⟩ := List.mem_map.1 hj
        split_ifs at halias ⊢
        · rfl
        · exact hinner k hk halias
    · refine ⟨by simp [hmem], fun j hj halias => ?_⟩
      rcases List.mem_append.1 hj with hj | hj
      · exact hinner j hj halias
      · rw [List.mem_singleton.1 hj] at halias
        exact absurd halias.symm he

lemma joinedInner_addInner (joins : List Join) (path : List Step) :
    ∀ s ∈ path, JoinedInner (addInner joins path) s.target.aliasName := by
  induction path using List.reverseRecOn with
  | nil => simp
  | append_singleton path t ih =>
    have hlast : addInner joins (path ++ [t]) = addStep (addInner joins path) .inner t := by
      simp [addInner, addPath, List.foldl_append]
    intro s hs
    rw [hlast]
    rcases List.mem_append.1 hs with hs | hs
    · exact (ih s hs).addStep t
    · rw [List.mem_singleton.1 hs]
      exact joinedInner_addStep _ t

/-- To add a path once more makes no difference. -/
theorem addInner_addInner (joins : List Join) (path : List Step) :
    addInner (addInner joins path) path = addInner joins path := by
  have hall := joinedInner_addInner joins path
  refine List.foldlRecOn path _ (motive := (· = addInner joins path)) rfl fun js hjs s hs => ?_
  rw [hjs]
  exact addStep_of_joinedInner (hall s hs)

end

/-- The same filters on one entity type, in any order and any number of times. -/
structure FannedFilters.Alike (g g' : FannedFilters) : Prop where
  entity : g'.entity = g.entity
  path : g'.path = g.path
  predicates : SameMembers g.predicates g'.predicates

/-- The same joins with predicates in any order and any number of times. -/
structure Restricted.Alike (r r' : Restricted) : Prop where
  joins : r'.1 = r.1
  predicates : SameMembers r.2 r'.2

section

variable {fs fs' : List (Placed Filter)} {catalog : Catalog} {root : EntityType}

instance : Std.Irrefl fun a b : EntityType => compare a b = .lt where
  irrefl a h := by
    rw [Std.ReflOrd.compare_self] at h
    cases h

instance : Std.Antisymm fun a b : EntityType => compare a b = .lt where
  antisymm a b h h' := by
    rw [Std.OrientedOrd.eq_swap, h'] at h
    cases h

lemma mem_entities_groupFilters {e : EntityType} :
    e ∈ (groupFilters fs).map (·.entity) ↔ ∃ f ∈ fs, f.entity = e := by
  rw [List.mem_map]
  constructor
  · rintro ⟨g, hg, rfl⟩
    obtain ⟨⟨f, hf, he, -⟩, -, -⟩ := mem_groupFilters hg
    exact ⟨f, hf, he.symm⟩
  · rintro ⟨f, hf, rfl⟩
    obtain ⟨g, hg, he, -⟩ := exists_mem_groupFilters hf
    exact ⟨g, hg, he⟩

lemma ascending_groupFilters (h : InOrder fs) :
    ((groupFilters fs).map (·.entity)).Pairwise fun a b => compare a b = .lt :=
  List.pairwise_map.2 (pairwise_groupFilters h)

/-- Filters that are the same as a set are brought together to the same groups. -/
theorem forall₂_groupFilters (hfs : ∀ f ∈ fs, catalog.path? root f.entity = some f.path)
    (hfs' : ∀ f ∈ fs', catalog.path? root f.entity = some f.path) (ho : InOrder fs) (ho' : InOrder fs')
    (h : SameMembers fs fs') :
    List.Forall₂ FannedFilters.Alike (groupFilters fs) (groupFilters fs') := by
  -- groups come in strictly ascending order, so the same entity types make the same list
  have hentities : (groupFilters fs).map (·.entity) = (groupFilters fs').map (·.entity) := by
    refine (ascending_groupFilters ho).eq_of_mem_iff (ascending_groupFilters ho') fun e => ?_
    rw [mem_entities_groupFilters, mem_entities_groupFilters]
    exact exists_congr fun f => and_congr_left' (h f)
  rw [← List.forall₂_eq_eq_eq, List.forall₂_map_left_iff, List.forall₂_map_right_iff] at hentities
  refine (List.forall₂_iff_get.2 ⟨hentities.length_eq, fun i hi hi' => ?_⟩)
  have hg := List.get_mem (groupFilters fs) ⟨i, hi⟩
  have hg' := List.get_mem (groupFilters fs') ⟨i, hi'⟩
  have hentity := hentities.get hi hi'
  obtain ⟨⟨f, hf, he, hp⟩, -, -⟩ := mem_groupFilters hg
  obtain ⟨⟨f', hf', he', hp'⟩, -, -⟩ := mem_groupFilters hg'
  have hpath := hfs f hf
  have hpath' := hfs' f' hf'
  rw [← he, ← hp] at hpath
  rw [← he', ← hp', ← hentity] at hpath'
  refine ⟨hentity.symm, Option.some.inj (hpath'.symm.trans hpath), fun q => ?_⟩
  rw [mem_predicates_iff ho hg, mem_predicates_iff ho' hg', ← hentity]
  exact exists_congr fun f => and_congr_left' (h f)

/-- To join the path of every filter is to join the path of every group. -/
lemma foldl_addInner_groupFilters (hfs : ∀ f ∈ fs, catalog.path? root f.entity = some f.path)
    (joins : List Join) :
    fs.foldl (fun joins f => addInner joins f.path) joins =
      ((groupFilters fs).map (·.path)).foldl addInner joins := by
  induction fs generalizing joins with
  | nil => rfl
  | cons f fs ih =>
    obtain ⟨hf, hrest⟩ := List.forall_mem_cons.1 hfs
    rw [List.foldl_cons, ih hrest]
    cases hgroups : groupFilters fs with
    | nil => simp [groupFilters, hgroups]
    | cons g gs =>
      -- a filter that a group takes in has the path of the group, which is added twice then
      by_cases he : g.entity = f.entity
      · have hg : g ∈ groupFilters fs := hgroups ▸ List.mem_cons_self
        obtain ⟨⟨f', hf', he', hp'⟩, -, -⟩ := mem_groupFilters hg
        have hpath := hrest f' hf'
        rw [← he', he, ← hp', hf, Option.some.injEq] at hpath
        simp only [groupFilters, hgroups, he, if_true, List.map_cons, List.foldl_cons, ← hpath,
          addInner_addInner]
      · simp [groupFilters, hgroups, he]

end

section

variable {fanned fanned' : List FannedFilters} {r r' : Restricted}

lemma restrictBy_alike (h : r.Alike r') {f f' : FannedFilters} (hf : f.Alike f') :
    (restrictBy r f).Alike (restrictBy r' f') := by
  unfold restrictBy
  rw [h.joins, hf.entity, hf.path]
  split_ifs
  · exact ⟨rfl, h.predicates.append hf.predicates⟩
  · exact h

lemma restrictAll_alike (hfanned : List.Forall₂ FannedFilters.Alike fanned fanned') (h : r.Alike r') :
    (fanned.foldl restrictBy r).Alike (fanned'.foldl restrictBy r') := by
  induction hfanned generalizing r r' with
  | nil => exact h
  | cons hf _ ih => exact ih (restrictBy_alike h hf)

lemma flatKind_alike (hfanned : List.Forall₂ FannedFilters.Alike fanned fanned') (style : Query.JoinStyle) :
    flatKind style fanned' = flatKind style fanned := by
  funext s
  have hany : (fanned'.any fun f => f.entity = s.target) = fanned.any fun f => f.entity = s.target := by
    induction hfanned with
    | nil => rfl
    | cons hf _ ih => rw [List.any_cons, List.any_cons, ih, hf.entity]
  unfold flatKind
  rw [hany]

lemma addFlat_alike (hfanned : List.Forall₂ FannedFilters.Alike fanned fanned') (h : r.Alike r')
    (style : Query.JoinStyle) (part : Partition) :
    (addFlat style fanned r part).Alike (addFlat style fanned' r' part) := by
  unfold addFlat
  rw [flatKind_alike hfanned, h.joins]
  exact restrictAll_alike hfanned ⟨rfl, h.predicates⟩

lemma addFlatAll_alike (hfanned : List.Forall₂ FannedFilters.Alike fanned fanned') (h : r.Alike r')
    (style : Query.JoinStyle) (parts : List (Catalog.FanOutKey × Partition)) :
    (parts.foldl (fun r part => addFlat style fanned r part.2) r).Alike
      (parts.foldl (fun r part => addFlat style fanned' r part.2) r') := by
  induction parts generalizing r r' with
  | nil => exact h
  | cons part parts ih => exact ih (addFlat_alike hfanned h style part.2)

end

structure SemiJoin.Alike (s s' : SemiJoin) : Prop where
  target : s'.target = s.target
  joins : s'.joins = s.joins
  predicates : SameMembers s.predicates s'.predicates

structure SubExpression.Alike (s s' : SubExpression) : Prop where
  key : s'.key = s.key
  joinKind : s'.joinKind = s.joinKind
  joins : s'.joins = s.joins
  predicates : SameMembers s.predicates s'.predicates
  aggregates : s'.aggregates = s.aggregates

/-- Plans that differ at most in the order and number of their predicates. -/
structure Alike (p p' : Plan) : Prop where
  root : p'.root = p.root
  rootAlias : p'.rootAlias = p.rootAlias
  rootKey : p'.rootKey = p.rootKey
  joins : p'.joins = p.joins
  predicates : SameMembers p.predicates p'.predicates
  scope : p'.scope = p.scope
  semiJoins : List.Forall₂ SemiJoin.Alike p.semiJoins p'.semiJoins
  groupKeys : p'.groupKeys = p.groupKeys
  localAggregates : p'.localAggregates = p.localAggregates
  subExpressions : List.Forall₂ SubExpression.Alike p.subExpressions p'.subExpressions
  outputs : p'.outputs = p.outputs
  ordering : p'.ordering = p.ordering
  orderColumns : p'.orderColumns = p.orderColumns

namespace Layout

variable {catalog : Catalog} {m : Model} {c c' : Checked} {l l' : Layout}

lemma Of.path_of_filter (h : Of catalog c l) {f : Placed Filter} (hf : f ∈ l.filters) :
    catalog.path? l.root f.entity = some f.path := by
  obtain ⟨g, -, hg⟩ := exists_of_mem_mapM h.filters hf
  exact (path?_of_place hg).2.2

/-- Layouts of one query with filters that are the same as a set. -/
structure Alike (catalog : Catalog) (l l' : Layout) : Prop where
  body : l' = { l with filters := l'.filters }
  filters : SameMembers l.filters l'.filters
  inOrder : InOrder l.filters
  inOrder' : InOrder l'.filters
  path : ∀ f ∈ l.filters, catalog.path? l.root f.entity = some f.path

lemma Of.alike {gs : List (Found Filter)} (h : Of catalog c l)
    (h' : Of catalog { c with filters := gs } l') (hgs : SameMembers c.filters gs) :
    l.Alike catalog l' := by
  exact ⟨h.withFilters h', h.sameMembers h' hgs, h.inOrder, h'.inOrder, fun f hf => h.path_of_filter hf⟩

namespace Alike

variable (h : l.Alike catalog l')
include h

lemma path' (f : Placed Filter) (hf : f ∈ l'.filters) : catalog.path? l.root f.entity = some f.path :=
  h.path f ((h.filters f).2 hf)

/-- The filters that pass a test are brought together to the same groups. -/
lemma forall₂_groups (p : Placed Filter → Bool) : List.Forall₂ FannedFilters.Alike
    (groupFilters (l.filters.filter p)) (groupFilters (l'.filters.filter p)) :=
  forall₂_groupFilters (fun f hf => h.path f (List.mem_filter.1 hf).1)
    (fun f hf => h.path' f (List.mem_filter.1 hf).1) (h.inOrder.filter p) (h.inOrder'.filter p)
    (h.filters.filter p)

lemma fanned : List.Forall₂ FannedFilters.Alike l.fanned l'.fanned := h.forall₂_groups _

/-- The paths of the filters that do not fan out are joined in the same order. -/
lemma foldl_direct (joins : List Join) :
    l'.direct.foldl (fun joins f => addInner joins f.path) joins =
      l.direct.foldl (fun joins f => addInner joins f.path) joins := by
  have hgroups := h.forall₂_groups fun f => f.key.isRoot
  have hpaths : (groupFilters l'.direct).map (·.path) = (groupFilters l.direct).map (·.path) := by
    rw [eq_comm, ← List.forall₂_eq_eq_eq, List.forall₂_map_left_iff, List.forall₂_map_right_iff]
    exact hgroups.imp fun g g' hg => hg.path.symm
  have hdirect : ∀ f ∈ l.direct, catalog.path? l.root f.entity = some f.path :=
    fun f hf => h.path f (List.mem_filter.1 hf).1
  have hdirect' : ∀ f ∈ l'.direct, catalog.path? l.root f.entity = some f.path :=
    fun f hf => h.path' f (List.mem_filter.1 hf).1
  rw [foldl_addInner_groupFilters hdirect, foldl_addInner_groupFilters hdirect', hpaths]

lemma main : l.main.Alike l'.main := by
  have hprojections : l'.projections = l.projections := by rw [h.body]
  have hnear : l'.near = l.near := by rw [h.body]; rfl
  refine ⟨?_, (h.filters.filter _).map _⟩
  simp only [Layout.main, hprojections, hnear, h.foldl_direct]

lemma subExpression_alike (style : Query.JoinStyle) (offset : Nat) (key : Catalog.FanOutKey)
    (part : Partition) : (subExpression style l.fanned offset key part).Alike
      (subExpression style l'.fanned offset key part) := by
  let joins := part.foldl (fun joins a => addPath measureKind joins a.2.path) []
  have hstart : Restricted.Alike (joins, []) (joins, []) := ⟨rfl, .refl []⟩
  have hrestricted := restrictAll_alike h.fanned hstart
  exact ⟨rfl, rfl, hrestricted.joins, hrestricted.predicates, rfl⟩

/-- The plans of such layouts are alike. -/
theorem plan (c : Checked) (gs : List (Found Filter)) (scope : Scope.Resolved)
    (os : List (Nat × Sorting.SortOrder)) :
    (l.plan catalog c scope os).Alike (l'.plan catalog { c with filters := gs } scope os) := by
  have hroot : l'.root = l.root := by rw [h.body]
  have hprojections : l'.projections = l.projections := by rw [h.body]
  have hnear : l'.near = l.near := by rw [h.body]; rfl
  have hfar : l'.far = l.far := by rw [h.body]; rfl
  have hmain : Restricted.Alike
      (if c.strategy = .flat then l.far.foldl (fun r part => addFlat c.joinStyle l.fanned r part.2) l.main
        else l.main)
      (if c.strategy = .flat then
        l'.far.foldl (fun r part => addFlat c.joinStyle l'.fanned r part.2) l'.main else l'.main) := by
    rw [hfar]
    split_ifs
    · exact addFlatAll_alike h.fanned h.main c.joinStyle l.far
    · exact h.main
  refine ⟨hroot, ?_, ?_, hmain.joins, hmain.predicates, ?_, ?_, ?_, ?_, ?_, rfl, ?_, rfl⟩
  · simp only [Layout.plan, hroot]
  · simp only [Layout.plan, hroot]
  · simp only [Layout.plan, hroot]
  · simp only [Layout.plan]
    rw [List.forall₂_map_left_iff, List.forall₂_map_right_iff]
    refine h.fanned.imp fun g g' hg => ⟨hg.entity, ?_, hg.predicates⟩
    simp only [semiJoin, hg.path]
  · simp only [Layout.plan, hprojections]
  · simp only [Layout.plan, hprojections, hnear, hfar]
  · simp only [Layout.plan, hfar, hprojections]
    split_ifs
    · exact .nil
    · rw [List.forall₂_map_left_iff, List.forall₂_map_right_iff, List.forall₂_same]
      exact fun e _ => h.subExpression_alike c.joinStyle l.projections.length e.1 e.2
  · simp only [Layout.plan, hroot]

end Alike

end Layout

section

variable {catalog : Catalog} {m : Model} {fs : List Filter} {scope : Scope.Resolved}
  {sort : Sorting.Criteria} {p p' : Plan}

/-- Two queries that differ in their filters compile from layouts that do. -/
lemma exists_layouts {involved : Query.Involved} (hp : compile catalog m scope sort = .ok p)
    (hp' : compile catalog { m with filters := fs, involved := involved } scope sort = .ok p') :
    ∃ c gs l l' os, Finds catalog Filter.label m.activeFilters c.filters ∧
      Finds catalog Filter.label (m.withFilters fs).activeFilters gs ∧ Layout.Of catalog c l ∧
      Layout.Of catalog { c with filters := gs } l' ∧ p = l.plan catalog c scope os ∧
      p' = l'.plan catalog { c with filters := gs } scope os := by
  obtain ⟨c, l, os, hc, hl, hos, rfl⟩ := layout_of_compile hp
  obtain ⟨c', l', os', hc', hl', hos', rfl⟩ := layout_of_compile hp'
  have hm := of_check hc
  have hm' := of_check hc'
  have hbody := hm.withFilters hm'
  have hfinds' := hm'.finds_filters
  generalize c'.filters = gs at hbody hfinds'
  subst hbody
  obtain rfl := Except.ok.inj (hos'.symm.trans hos)
  exact ⟨c, gs, l, l', os', hm.finds_filters, hfinds', hl, hl', rfl, rfl⟩

/-- With the same active filters, the plan is the same. -/
theorem compile_eq_of_activeFilters (hp : compile catalog m scope sort = .ok p)
    (hp' : compile catalog (m.withFilters fs) scope sort = .ok p')
    (h : m.activeFilters = (m.withFilters fs).activeFilters) : p' = p := by
  obtain ⟨c, gs, l, l', os, hfinds, hfinds', hl, hl', rfl, rfl⟩ := exists_layouts hp hp'
  rw [← h] at hfinds'
  obtain rfl := hfinds'.unique hfinds
  rw [hl.unique hl']

/-- With active filters that are the same as a set, the plans are alike. -/
theorem alike_of_activeFilters (hp : compile catalog m scope sort = .ok p)
    (hp' : compile catalog (m.withFilters fs) scope sort = .ok p')
    (h : SameMembers m.activeFilters (m.withFilters fs).activeFilters) : p.Alike p' := by
  obtain ⟨c, gs, l, l', os, hfinds, hfinds', hl, hl', rfl, rfl⟩ := exists_layouts hp hp'
  exact (hl.alike hl' (hfinds.sameMembers hfinds' h)).plan c gs scope os

end

end Plan

end Tabulation
