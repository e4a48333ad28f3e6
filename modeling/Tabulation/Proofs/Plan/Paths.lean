import Tabulation.Evaluation.Evaluator
import Tabulation.Proofs.Plan.Joins

/-! Every join of a plan, wherever it stands and whatever the strategy, is a step of a path from the
root. So no join leads back to the root. -/
namespace Tabulation.Plan
open Catalog (FanOutKey Step)
open Evaluation (allJoins)

/-- Joins over steps of paths from a root. -/
def Along (catalog : Catalog) (root : EntityType) (joins : List Join) : Prop :=
  ∀ j ∈ joins, ∃ e path, catalog.path? root e = some path ∧ j.step ∈ path

variable {catalog : Catalog} {root : EntityType} {joins : List Join}

lemma along_addStep (h : Along catalog root joins) {e : EntityType} {path : List Step} {s : Step}
    (hp : catalog.path? root e = some path) (hs : s ∈ path) (kind : JoinKind) :
    Along catalog root (addStep joins kind s) := by
  unfold addStep
  simp only
  split_ifs
  · intro j hj
    obtain ⟨k, hk, rfl⟩ := List.mem_map.1 hj
    split_ifs
    · exact h k hk
    · exact h k hk
  · intro j hj
    rcases List.mem_append.1 hj with hj | hj
    · exact h j hj
    · rw [List.mem_singleton.1 hj]
      exact ⟨e, path, hp, hs⟩

lemma along_addPath (h : Along catalog root joins) {e : EntityType} {path : List Step}
    (hp : catalog.path? root e = some path) (kindOf : Step → JoinKind) :
    Along catalog root (addPath kindOf joins path) :=
  List.foldlRecOn path _ h fun _ hjoins _ hs => along_addStep hjoins hp hs _

lemma along_addPaths {α : Type} (h : Along catalog root joins) {xs : List α} {path : α → List Step}
    (hp : ∀ x ∈ xs, ∃ e, catalog.path? root e = some (path x)) (kindOf : Step → JoinKind) :
    Along catalog root (xs.foldl (fun joins x => addPath kindOf joins (path x)) joins) :=
  List.foldlRecOn xs _ h fun _ hjoins x hx => along_addPath hjoins (hp x hx).choose_spec kindOf

lemma along_restrictBy {r : Restricted} (h : Along catalog root r.1) {f : FannedFilters}
    (hp : catalog.path? root f.entity = some f.path) : Along catalog root (restrictBy r f).1 := by
  unfold restrictBy
  split_ifs
  · exact along_addPath h hp _
  · exact h

lemma along_restrictAll {r : Restricted} (h : Along catalog root r.1) {fanned : List FannedFilters}
    (hp : ∀ f ∈ fanned, catalog.path? root f.entity = some f.path) :
    Along catalog root (fanned.foldl restrictBy r).1 :=
  List.foldlRecOn fanned restrictBy (motive := fun r => Along catalog root r.1) h fun _ hr f hf =>
    along_restrictBy hr (hp f hf)

lemma along_nil : Along catalog root [] := fun j hj => by simp at hj

namespace Layout

variable {l : Layout}

lemma Sound.along_main (h : l.Sound catalog) : Along catalog l.root l.main.1 := by
  have hprojections : Along catalog l.root (l.projections.foldl (fun joins p => addInner joins p.path) []) :=
    along_addPaths along_nil (fun x hx => ⟨_, (h.projection x hx).1⟩) _
  have hdirect : Along catalog l.root (l.direct.foldl (fun joins f => addInner joins f.path)
      (l.projections.foldl (fun joins p => addInner joins p.path) [])) :=
    along_addPaths hprojections (fun f hf => ⟨_, (h.direct_path hf).1⟩) _
  exact along_addPaths hdirect (fun a ha => ⟨_, (h.near_path ha).1⟩) _

/-- Joins for the aggregations of a part, with the filters that apply to them. -/
lemma Sound.along_part (h : l.Sound catalog) {joins : List Join} (hjoins : Along catalog l.root joins)
    {part : FanOutKey × Partition} (hpart : part ∈ l.parts.entries) (kindOf : Step → JoinKind)
    (predicates : List Predicate) :
    Along catalog l.root (l.fanned.foldl restrictBy
      (part.2.foldl (fun joins a => addPath kindOf joins a.2.path) joins, predicates)).1 := by
  refine along_restrictAll ?_ fun f hf => (h.fanned_path hf).1
  exact along_addPaths hjoins (fun a ha => ⟨_, ((h.part part hpart).2 a ha).1⟩) _

/-- The joins of a plan follow paths from its root. -/
theorem Sound.along (h : l.Sound catalog) (c : Checked) (scope : Scope.Resolved)
    (os : List (Nat × Sorting.SortOrder)) :
    Along catalog l.root (allJoins (l.plan catalog c scope os)) := by
  have hfar : ∀ part ∈ l.far, part ∈ l.parts.entries := fun part hpart => (List.mem_filter.1 hpart).1
  have hmain : Along catalog l.root (l.plan catalog c scope os).joins := by
    simp only [plan]
    split_ifs
    · exact List.foldlRecOn l.far _ (motive := fun r : Restricted => Along catalog l.root r.1)
        h.along_main fun r hr part hpart => h.along_part hr (hfar part hpart) _ r.2
    · exact h.along_main
  have hinner : ∀ {e : EntityType} {path : List Step}, catalog.path? l.root e = some path →
      Along catalog l.root (addInner [] path) := fun hp => along_addPath along_nil hp _
  intro j hj
  simp only [allJoins, List.mem_append, List.mem_flatMap] at hj
  rcases hj with ((hj | ⟨branch, hbranch, hj⟩) | ⟨semi, hsemi, hj⟩) | ⟨sub, hsub, hj⟩
  · exact hmain j hj
  · cases scope with
    | unrestricted => simp [plan, scopeBranches] at hbranch
    | restricted leaves =>
      simp only [plan, scopeBranches, Option.getD_some, List.mem_filterMap,
        Option.map_eq_some_iff] at hbranch
      obtain ⟨leaf, -, path, hpath, rfl⟩ := hbranch
      exact hinner hpath j hj
  · obtain ⟨f, hf, rfl⟩ := List.mem_map.1 hsemi
    exact hinner (h.fanned_path hf).1 j hj
  · simp only [plan] at hsub
    split_ifs at hsub
    · simp at hsub
    · obtain ⟨part, hpart, rfl⟩ := List.mem_map.1 hsub
      exact h.along_part along_nil (hfar part hpart) _ [] j hj

/-- No join of a plan leads back to the root. -/
theorem Sound.target_ne_root (h : l.Sound catalog) (hc : catalog.WellFormed) (c : Checked)
    (scope : Scope.Resolved) (os : List (Nat × Sorting.SortOrder)) :
    ∀ j ∈ allJoins (l.plan catalog c scope os), j.step.target ≠ l.root := by
  intro j hj
  obtain ⟨e, path, hpath, hstep⟩ := h.along c scope os j hj
  exact Catalog.path?_target_ne hc hpath hstep

end Layout

end Tabulation.Plan
