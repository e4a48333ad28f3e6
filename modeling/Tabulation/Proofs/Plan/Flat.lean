import Tabulation.Proofs.Plan.Joins

/-! The flat plan of a query whose aggregations share a fan-out key, beside the partitioned one. Both are
put together from one layout; the flat plan joins the steps of the only part after those of the main
rows. -/
namespace Tabulation.Plan
open Catalog (Step FanOutKey)
open Query (Model Aggregation JoinStyle)
open Outcome

variable {catalog : Catalog} {m : Model}

/-- The strategy has no say in what is found of a query's columns. -/
lemma Checked.Of.eq_of_strategies {c c' : Checked}
    (h : Checked.Of catalog { m with strategy := .partitioned } c)
    (h' : Checked.Of catalog { m with strategy := .flat } c') : c' = { c with strategy := .flat } := by
  obtain ⟨filters, hfilters, hactive⟩ := h.filters
  obtain ⟨filters', hfilters', hactive'⟩ := h'.filters
  obtain rfl := Except.ok.inj (hfilters.symm.trans hfilters')
  have hstrategy := h'.strategy
  have hstyle := h'.joinStyle.trans h.joinStyle.symm
  have hroot := h'.root.trans h.root.symm
  have hprojections := Except.ok.inj (h'.projections.symm.trans h.projections)
  have haggregations := Except.ok.inj (h'.aggregations.symm.trans h.aggregations)
  have horderings := Except.ok.inj (h'.orderings.symm.trans h.orderings)
  cases c
  cases c'
  simp_all

lemma use_mem_of_parts {c : Checked} {l : Layout} (hm : Checked.Of catalog m c)
    (h : Layout.Of catalog c l) {e : FanOutKey × Partition} (he : e ∈ l.parts.entries)
    {a : Nat × Placed Aggregation} (ha : a ∈ e.2) : a.2.use ∈ m.aggregations := by
  obtain ⟨placed, hplaced, hparts, -⟩ := partition_eq_ok.1 h.parts
  rw [hparts] at he
  obtain ⟨f, hf, hplace⟩ := exists_of_mem_mapM hplaced (List.mem_of_getElem? ((mem_partsOf he).2 a ha).2)
  obtain ⟨b, hb, hcheck⟩ := exists_of_mem_mapM hm.aggregations hf
  rw [(path?_of_place hplace).1, (column?_of_checkAggregation hcheck).1]
  exact hb

/-- The two plans of a query that both strategies accept. -/
theorem exists_common_layout (hc : catalog.WellFormed) {scope : Scope.Resolved}
    {sort : Sorting.Criteria} {p q : Plan}
    (hp : compile catalog { m with strategy := .flat } scope sort = .ok p)
    (hq : compile catalog { m with strategy := .partitioned } scope sort = .ok q) :
    ∃ (c : Checked) (l : Layout) (os : _), c.strategy = .partitioned ∧ c.joinStyle = m.joinStyle ∧ l.Sound catalog ∧
      (∀ e ∈ l.parts.entries, ∀ a ∈ e.2, a.2.use ∈ m.aggregations) ∧ l.parts.size ≤ 1 ∧
      p = l.plan catalog { c with strategy := .flat } scope os ∧ q = l.plan catalog c scope os := by
  obtain ⟨c, l, os, hcheck, hl, h, hos, rfl⟩ := exists_layout hc hq
  obtain ⟨c', l', os', hcheck', hl', -, hos', rfl⟩ := exists_layout hc hp
  obtain rfl := hcheck.eq_of_strategies hcheck'
  have hroot : chooseRoot catalog c = .ok (l'.root, l'.projections) := hl'.root
  rw [hl.root, Except.ok.injEq, Prod.mk.injEq] at hroot
  obtain ⟨placed, hplaced, hparts, -⟩ := partition_eq_ok.1 hl.parts
  obtain ⟨placed', hplaced', hparts', hsize⟩ := partition_eq_ok.1 hl'.parts
  rw [← hroot.1] at hplaced'
  obtain rfl := Except.ok.inj (hplaced.symm.trans hplaced')
  have hfilters : placeFilters catalog l'.root c = .ok l'.filters := hl'.filters
  rw [← hroot.1, hl.filters, Except.ok.injEq] at hfilters
  have hlayout : l' = l := by
    cases l
    cases l'
    simp_all
  obtain rfl := Except.ok.inj (hos.symm.trans hos')
  subst hlayout
  exact ⟨c, l', os, hcheck.strategy, hcheck.joinStyle, h, fun e he a ha => use_mem_of_parts hcheck hl he ha,
    hsize rfl, rfl, rfl⟩

/-- Walking paths after steps that were walked already is leaving these steps out. -/
lemma extendAll_eq_filter (steps : List Step) (paths : List (List Step)) :
    extendAll steps paths = steps ++ (extendAll [] paths).filter (· ∉ steps) := by
  induction paths using List.reverseRecOn with
  | nil => simp [extendAll]
  | append_singleton paths path ih =>
    have hlast : ∀ xs, extendAll xs (paths ++ [path]) = extend (extendAll xs paths) path := fun xs => by
      simp [extendAll, List.foldl_append]
    have hmem : ∀ s, s ∈ extendAll steps paths ↔ s ∈ steps ∨ s ∈ extendAll [] paths := fun s => by
      simp [mem_extendAll]
    rw [hlast, hlast, extend, extend, List.filter_append, ← List.append_assoc, ← ih, List.filter_filter]
    congr 1
    apply List.filter_congr
    intro s _
    simp [hmem]

namespace Layout

variable {l : Layout} {key : FanOutKey} {part : Partition}

/-- The steps of a flat plan: those of the main rows, and after them those of the only part. -/
def flatSteps (l : Layout) (part : Partition) : List Step :=
  l.mainSteps ++ (partSteps part).filter (· ∉ l.mainSteps)

lemma mem_flatSteps {s : Step} : s ∈ l.flatSteps part ↔ s ∈ l.mainSteps ∨ s ∈ partSteps part := by
  simp only [flatSteps, List.mem_append, List.mem_filter, decide_eq_true_eq]
  tauto

lemma far_of_size_le (hsize : l.parts.size ≤ 1) : l.far = [] ∨ ∃ key part, l.far = [(key, part)] := by
  have hsize : l.parts.entries.length ≤ 1 := hsize
  have hle : l.far.length ≤ 1 := Nat.le_trans (List.length_filter_le _ _) hsize
  match hfar : l.far, hle with
  | [], _ => exact .inl rfl
  | [(key, part)], _ => exact .inr ⟨key, part, rfl⟩
  | _ :: _ :: _, hle => simp at hle

lemma mem_entries_of_far (hfar : l.far = [(key, part)]) :
    (key, part) ∈ l.parts.entries ∧ key.isRoot = false := by
  have hmem : (key, part) ∈ l.far := hfar ▸ List.mem_singleton_self _
  obtain ⟨hmem, hroot⟩ := List.mem_filter.1 hmem
  exact ⟨hmem, by simpa using hroot⟩

lemma near_eq_nil (hsize : l.parts.size ≤ 1) (hfar : l.far = [(key, part)]) : l.near = [] := by
  obtain ⟨hmem, hroot⟩ := mem_entries_of_far hfar
  have hsize : l.parts.entries.length ≤ 1 := hsize
  have hentries : l.parts.entries = [(key, part)] := by
    cases he : l.parts.entries with
    | nil => simp [he] at hmem
    | cons e es =>
      have hnil : es = [] := by
        rw [he, List.length_cons] at hsize
        exact List.length_eq_zero_iff.1 (by omega)
      rw [he, hnil, List.mem_singleton] at hmem
      rw [hnil, hmem]
  simp [near, hentries, hroot]

lemma plan_of_flat (hsize : l.parts.size ≤ 1) (hfar : l.far = [(key, part)]) (catalog : Catalog)
    (c : Checked) (scope : Scope.Resolved) (os : List (Nat × Sorting.SortOrder)) :
    let p := l.plan catalog { c with strategy := .flat } scope os
    (p.joins, p.predicates) = addFlat c.joinStyle l.fanned l.main part ∧
      p.localAggregates = aggregates l.projections.length part ∧ p.subExpressions = [] := by
  simp [plan, hfar, near_eq_nil hsize hfar, aggregates]

/-- Main rows reach no entity type to which the path fans out. -/
lemma Sound.reaches_flatSteps (h : l.Sound catalog) (hc : catalog.WellFormed)
    (ha : catalog.DistinctAliases) {f : FannedFilters} (hf : f ∈ l.fanned) :
    reaches (l.flatSteps part) f.entity = reaches (partSteps part) f.entity := by
  obtain ⟨hpath, hfan⟩ := h.fanned_path hf
  rw [Bool.eq_iff_iff]
  simp only [reaches, List.any_eq_true, mem_flatSteps, decide_eq_true_eq]
  constructor
  · rintro ⟨s, hs | hs, hse⟩
    · have hreached : reaches l.mainSteps f.entity := hse ▸ reaches_of_mem hs
      have hsub := (h.main_joins hc ha).2.path_subset hreached hpath
      exact absurd (FanOutKey.isRoot_ofSteps.2 fun t ht => h.mainSteps_direct (hsub ht)) hfan
    · exact ⟨s, hs, hse⟩
  · rintro ⟨s, hs, hse⟩
    exact ⟨s, .inr hs, hse⟩

lemma Sound.fannedOn_flatSteps (h : l.Sound catalog) (hc : catalog.WellFormed)
    (ha : catalog.DistinctAliases) (part : Partition) :
    l.fannedOn (l.flatSteps part) = l.fannedOn (partSteps part) :=
  List.filter_congr fun _ hf => h.reaches_flatSteps hc ha hf

/-- Which joins of a flat plan are inner: those that the main rows need, those of the part that the
join style or a filter on their target asks for, and those on the way to filters. -/
def flatInner (l : Layout) (style : JoinStyle) (part : Partition) (s : Step) : Bool :=
  s ∈ l.neededSteps || (flatKind style l.fanned s = .inner && s ∈ partSteps part) ||
    (l.fannedOn (partSteps part)).any fun f => s ∈ f.path

theorem Sound.flat_joins (h : l.Sound catalog) (hc : catalog.WellFormed)
    (ha : catalog.DistinctAliases) (he : (key, part) ∈ l.parts.entries) (style : JoinStyle) :
    addFlat style l.fanned l.main part =
        (joinsOf (l.flatInner style part) (l.flatSteps part),
          l.main.2 ++ (l.fannedOn (partSteps part)).flatMap (·.predicates)) ∧
      Rooted catalog l.root (l.flatSteps part) := by
  obtain ⟨hmain, hrooted⟩ := h.main_joins hc ha
  have hpath := fun (path : List Step) (hp : path ∈ _) => (h.part_path he hp).1
  obtain ⟨hjoins, hrooted'⟩ := addPaths_joinsOf hrooted hc ha hpath (fun s => s ∈ l.neededSteps)
    (flatKind style l.fanned)
  rw [extendAll_eq_filter] at hjoins hrooted'
  rw [List.foldl_map] at hjoins
  have hsteps : l.mainSteps ++ (extendAll [] (part.map (·.2.path))).filter (· ∉ l.mainSteps) =
      l.flatSteps part := rfl
  rw [hsteps] at hjoins hrooted'
  refine ⟨?_, hrooted'⟩
  rw [addFlat, hmain, hjoins,
    restrictAll_joinsOf hrooted' hc ha fun f hf => (h.fanned_path hf).1]
  have hfannedOn := h.fannedOn_flatSteps hc ha part
  unfold fannedOn at hfannedOn
  rw [hfannedOn]
  congr 1
  apply joinsOf_congr
  intro s _
  have hneeded : s ∈ l.neededSteps → s ∈ l.mainSteps := by
    intro hs
    obtain ⟨path, hpath, hsp⟩ := List.mem_flatten.1 hs
    exact mem_extendAll.2 (.inr ⟨path, List.mem_append_left _ hpath, hsp⟩)
  have hpart : (part.map (·.2.path)).any (s ∈ ·) = decide (s ∈ partSteps part) := by
    rw [Bool.eq_iff_iff, decide_eq_true_eq, partSteps, mem_extendAll]
    simp
  rw [hpart, flatInner, fannedOn]
  congr 2
  rw [Bool.eq_iff_iff]
  simp only [Bool.and_eq_true, decide_eq_true_eq]
  exact ⟨And.left, fun hs => ⟨hs, hneeded hs⟩⟩

end Layout

end Tabulation.Plan
