import Mathlib.Data.List.Induction
import Mathlib.Tactic.Lemma
import Tabulation.Plan.Compiler
import Tabulation.Proofs.Catalog.Path

/-! Lists of joins that follow paths from a root. Where entity types have different alias names, such
a list is known by its steps and by which of them are inner. -/
namespace Tabulation.Plan
open Catalog (Step)

/-- The joins along steps, inner ones where wanted. -/
def joinsOf (inner : Step → Bool) (steps : List Step) : List Join :=
  steps.map fun s =>
    ⟨if inner s then .inner else .left, s.source.aliasName, s.target.aliasName, s⟩

/-- Steps of paths from a root, each one once and after those that lead to it. -/
inductive Rooted (catalog : Catalog) (root : EntityType) : List Step → Prop
  | nil : Rooted catalog root []
  | snoc {steps p : List Step} {s : Step} (prior : Rooted catalog root steps)
      (path : catalog.path? root s.target = some (p ++ [s])) (before : p ⊆ steps)
      (fresh : s ∉ steps) : Rooted catalog root (steps ++ [s])

/-- Walks along a path, after steps that were walked already. -/
def extend (steps path : List Step) : List Step := steps ++ path.filter fun s => s ∉ steps

/-- Whether one of the steps leads to an entity type. -/
def reaches (steps : List Step) (entity : EntityType) : Bool :=
  steps.any fun s => s.target = entity

@[simp] lemma map_step_joinsOf (inner : Step → Bool) (steps : List Step) :
    (joinsOf inner steps).map (·.step) = steps := by
  simp [joinsOf, Function.comp_def]

lemma joinsOf_congr {inner inner' : Step → Bool} {steps : List Step}
    (h : ∀ s ∈ steps, inner s = inner' s) : joinsOf inner steps = joinsOf inner' steps := by
  apply List.map_congr_left
  intro s hs
  rw [h s hs]

lemma joinsOf_append (inner : Step → Bool) (xs ys : List Step) :
    joinsOf inner (xs ++ ys) = joinsOf inner xs ++ joinsOf inner ys := by
  simp [joinsOf]

lemma mem_extend {steps path : List Step} {s : Step} :
    s ∈ extend steps path ↔ s ∈ steps ∨ s ∈ path := by
  simp only [extend, List.mem_append, List.mem_filter, decide_eq_true_eq]
  tauto

lemma extend_of_subset {steps path : List Step} (h : path ⊆ steps) : extend steps path = steps := by
  have : path.filter (fun s => s ∉ steps) = [] := by
    rw [List.filter_eq_nil_iff]
    exact fun s hs => by simpa using h hs
  rw [extend, this, List.append_nil]

section

variable {catalog : Catalog} {root : EntityType} {steps path : List Step} {s t : Step}

theorem Rooted.path_of_mem (h : Rooted catalog root steps) (hs : s ∈ steps) :
    ∃ p, catalog.path? root s.target = some (p ++ [s]) ∧ p ⊆ steps := by
  induction h with
  | nil => simp at hs
  | @snoc steps p t prior path before fresh ih =>
    rcases List.mem_append.1 hs with hs | hs
    · obtain ⟨p', hp', hsub⟩ := ih hs
      exact ⟨p', hp', List.Subset.trans hsub (List.subset_append_left _ _)⟩
    · obtain rfl := List.mem_singleton.1 hs
      exact ⟨p, path, List.Subset.trans before (List.subset_append_left _ _)⟩

/-- The whole path to an entity type that is reached was walked. -/
theorem Rooted.path_subset (h : Rooted catalog root steps) {e : EntityType}
    (he : reaches steps e) (hp : catalog.path? root e = some path) : path ⊆ steps := by
  simp only [reaches, List.any_eq_true, decide_eq_true_eq] at he
  obtain ⟨s, hs, rfl⟩ := he
  obtain ⟨p, hp', hsub⟩ := h.path_of_mem hs
  obtain rfl := Option.some.inj (hp.symm.trans hp')
  exact List.append_subset.2 ⟨hsub, by simpa using hs⟩

lemma Rooted.mem_of_reaches (h : Rooted catalog root steps) {p : List Step}
    (hp : catalog.path? root s.target = some (p ++ [s])) (hs : reaches steps s.target) :
    s ∈ steps :=
  h.path_subset hs hp (by simp)

lemma reaches_of_mem (hs : s ∈ steps) : reaches steps s.target := by
  simp only [reaches, List.any_eq_true, decide_eq_true_eq]
  exact ⟨s, hs, rfl⟩

lemma Rooted.any_aliasName (h : Rooted catalog root steps) (hc : catalog.WellFormed)
    (ha : catalog.DistinctAliases) (inner : Step → Bool) {e : EntityType}
    (he : catalog.forest.contains e) :
    ((joinsOf inner steps).any fun j => j.aliasName = e.aliasName) = reaches steps e := by
  rw [Bool.eq_iff_iff]
  simp only [joinsOf, List.any_map, reaches, List.any_eq_true, Function.comp_apply,
    decide_eq_true_eq]
  constructor
  · rintro ⟨s, hs, hse⟩
    obtain ⟨p, hp, -⟩ := h.path_of_mem hs
    exact ⟨s, hs, ha _ _ (Catalog.contains_of_mem_path? hc hp (by simp)).2 he hse⟩
  · rintro ⟨s, hs, rfl⟩
    exact ⟨s, hs, rfl⟩

/-- Adding a step enters a join for it, or makes the join that is there inner. -/
lemma addStep_joinsOf (h : Rooted catalog root steps) (hc : catalog.WellFormed)
    (ha : catalog.DistinctAliases) {p : List Step}
    (hp : catalog.path? root s.target = some (p ++ [s])) (inner : Step → Bool) (kind : JoinKind) :
    addStep (joinsOf inner steps) kind s =
      joinsOf (fun t => (inner t && t ∈ steps) || (t = s && kind = .inner)) (extend steps [s]) := by
  have he := (Catalog.contains_of_path? hp).2
  have hany := h.any_aliasName hc ha inner he
  unfold addStep
  simp only [hany]
  split_ifs with hs
  · have hmem := h.mem_of_reaches hp hs
    rw [extend_of_subset (by simpa using hmem)]
    simp only [joinsOf, List.map_map]
    apply List.map_congr_left
    intro t ht
    obtain ⟨p', hp', -⟩ := h.path_of_mem ht
    have hts : t.target.aliasName = s.target.aliasName ↔ t = s := by
      refine ⟨fun e => ?_, fun e => by rw [e]⟩
      have := ha _ _ (Catalog.contains_of_path? hp').2 he e
      exact Catalog.step_unique hc hp' hp (by simp) (by simp) this
    by_cases hte : t = s
    · subst hte
      cases kind <;> by_cases hi : inner t <;> simp [hi, ht]
    · by_cases hi : inner t <;> simp [hts, hi, hte, ht]
  · have hmem : s ∉ steps := fun hm => hs (reaches_of_mem hm)
    have hext : extend steps [s] = steps ++ [s] := by simp [extend, hmem]
    rw [hext, joinsOf_append]
    congr 1
    · apply joinsOf_congr
      intro t ht
      have hts : t ≠ s := fun e => hmem (e ▸ ht)
      simp [ht, hts]
    · cases kind <;> simp [joinsOf, hmem]

lemma Rooted.extend_step (h : Rooted catalog root steps) {p : List Step}
    (hp : catalog.path? root s.target = some (p ++ [s])) (hsub : p ⊆ steps) :
    Rooted catalog root (extend steps [s]) := by
  by_cases hs : s ∈ steps
  · rwa [extend_of_subset (by simpa using hs)]
  · have hext : extend steps [s] = steps ++ [s] := by simp [extend, hs]
    rw [hext]
    exact .snoc h hp hsub hs

lemma extend_append (steps p q : List Step) (hq : (p ++ q).Nodup) :
    extend steps (p ++ q) = extend (extend steps p) q := by
  simp only [extend, List.filter_append, List.append_assoc, List.append_cancel_left_eq]
  apply List.filter_congr
  intro t ht
  have hp : t ∉ p := fun hp => (List.nodup_append.1 hq).2.2 t hp t ht rfl
  simp [hp]

/-- Adding a path enters joins for the steps that are new. What was inner stays inner, and what the
path wants to be inner becomes so. -/
theorem addPath_joinsOf (h : Rooted catalog root steps) (hc : catalog.WellFormed)
    (ha : catalog.DistinctAliases) {e : EntityType} (hp : catalog.path? root e = some path)
    (inner : Step → Bool) (kindOf : Step → JoinKind) :
    addPath kindOf (joinsOf inner steps) path =
        joinsOf (fun t => (inner t && t ∈ steps) || (t ∈ path && kindOf t = .inner))
          (extend steps path) ∧
      Rooted catalog root (extend steps path) := by
  induction path using List.reverseRecOn generalizing e with
  | nil =>
    have hext : extend steps [] = steps := by simp [extend]
    rw [hext]
    refine ⟨?_, h⟩
    exact joinsOf_congr fun s hs => by simp [hs]
  | append_singleton path s ih =>
    obtain ⟨hsource, htarget, -⟩ := Catalog.path?_split hc hp
    obtain ⟨hjoins, hrooted⟩ := ih hsource
    have hsub : path ⊆ extend steps path := fun t ht => mem_extend.2 (.inr ht)
    have hext := extend_append steps path [s] (Catalog.path?_nodup hc hp)
    rw [hext]
    refine ⟨?_, hrooted.extend_step htarget hsub⟩
    calc addPath kindOf (joinsOf inner steps) (path ++ [s])
        = addStep (addPath kindOf (joinsOf inner steps) path) (kindOf s) s := by
          simp [addPath, List.foldl_append]
      _ = _ := by
          rw [hjoins, addStep_joinsOf hrooted hc ha htarget]
          apply joinsOf_congr
          intro t _
          by_cases hts : t = s <;> by_cases hst : t ∈ steps <;> by_cases htp : t ∈ path <;>
            simp_all [mem_extend]

lemma addInner_nil (hc : catalog.WellFormed) (ha : catalog.DistinctAliases) {e : EntityType}
    (hp : catalog.path? root e = some path) :
    addInner [] path = joinsOf (fun _ => true) path ∧ Rooted catalog root path := by
  obtain ⟨hjoins, hrooted⟩ := addPath_joinsOf .nil hc ha hp (fun _ => false) fun _ => .inner
  have hnil : extend [] path = path := by simp [extend]
  rw [hnil] at hjoins hrooted
  refine ⟨?_, hrooted⟩
  rw [addInner, show ([] : List Join) = joinsOf (fun _ => false) [] from rfl, hjoins]
  exact joinsOf_congr fun s hs => by simp [hs]

/-- The steps of several paths. -/
def extendAll (steps : List Step) (paths : List (List Step)) : List Step := paths.foldl extend steps

lemma mem_extendAll {paths : List (List Step)} :
    s ∈ extendAll steps paths ↔ s ∈ steps ∨ ∃ path ∈ paths, s ∈ path := by
  induction paths generalizing steps with
  | nil => simp [extendAll]
  | cons path paths ih =>
    have := @ih (extend steps path)
    simp only [extendAll, List.foldl_cons] at this ⊢
    rw [this, mem_extend]
    simp [or_assoc]

theorem addPaths_joinsOf (h : Rooted catalog root steps) (hc : catalog.WellFormed)
    (ha : catalog.DistinctAliases) {paths : List (List Step)}
    (hp : ∀ path ∈ paths, ∃ e, catalog.path? root e = some path) (inner : Step → Bool)
    (kindOf : Step → JoinKind) :
    paths.foldl (addPath kindOf) (joinsOf inner steps) =
        joinsOf (fun t => (inner t && t ∈ steps) || kindOf t = .inner && paths.any (t ∈ ·))
          (extendAll steps paths) ∧
      Rooted catalog root (extendAll steps paths) := by
  induction paths generalizing steps inner with
  | nil =>
    refine ⟨?_, h⟩
    exact joinsOf_congr fun s hs => by simp [hs]
  | cons path paths ih =>
    obtain ⟨e, he⟩ := hp path List.mem_cons_self
    obtain ⟨hjoins, hrooted⟩ := addPath_joinsOf h hc ha he inner kindOf
    obtain ⟨hjoins', hrooted'⟩ := ih hrooted (fun q hq => hp q (List.mem_cons_of_mem _ hq))
      (fun t => (inner t && t ∈ steps) || (t ∈ path && kindOf t = .inner))
    refine ⟨?_, hrooted'⟩
    rw [List.foldl_cons, hjoins, hjoins']
    apply joinsOf_congr
    intro t _
    by_cases hst : t ∈ steps <;> by_cases htp : t ∈ path <;> simp_all [mem_extend, Bool.and_comm]

lemma restrictBy_joinsOf (h : Rooted catalog root steps) (hc : catalog.WellFormed)
    (ha : catalog.DistinctAliases) {f : FannedFilters}
    (hf : catalog.path? root f.entity = some f.path) (inner : Step → Bool)
    (predicates : List Predicate) :
    restrictBy (joinsOf inner steps, predicates) f =
      if reaches steps f.entity then
        (joinsOf (fun s => inner s || s ∈ f.path) steps, predicates ++ f.predicates)
      else (joinsOf inner steps, predicates) := by
  unfold restrictBy
  simp only [h.any_aliasName hc ha inner (Catalog.contains_of_path? hf).2]
  split_ifs with hr
  · have hsub := h.path_subset hr hf
    have hadd := (addPath_joinsOf h hc ha hf inner fun _ => .inner).1
    rw [extend_of_subset hsub] at hadd
    rw [addInner, hadd]
    congr 1
    exact joinsOf_congr fun s hs => by simp [hs]
  · rfl

/-- The filters on entity types that are joined make their paths inner and leave the steps as they
are. -/
theorem restrictAll_joinsOf (h : Rooted catalog root steps) (hc : catalog.WellFormed)
    (ha : catalog.DistinctAliases) {fanned : List FannedFilters}
    (hf : ∀ f ∈ fanned, catalog.path? root f.entity = some f.path) (inner : Step → Bool)
    (predicates : List Predicate) :
    fanned.foldl restrictBy (joinsOf inner steps, predicates) =
      (joinsOf (fun s => inner s ||
          (fanned.filter fun f => reaches steps f.entity).any fun f => s ∈ f.path) steps,
        predicates ++ (fanned.filter fun f => reaches steps f.entity).flatMap (·.predicates)) := by
  induction fanned generalizing inner predicates with
  | nil => simp
  | cons f fanned ih =>
    rw [List.foldl_cons, restrictBy_joinsOf h hc ha (hf f List.mem_cons_self)]
    have hrest := fun g hg => hf g (List.mem_cons_of_mem f hg)
    by_cases hr : reaches steps f.entity
    · simp [hr, ih hrest, Bool.or_assoc]
    · simp [hr, ih hrest]

end

end Tabulation.Plan
