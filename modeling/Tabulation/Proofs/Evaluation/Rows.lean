import Tabulation.Proofs.Evaluation.Alike
import Tabulation.Proofs.Plan.Flat

/-! The rows of plans that are put together from a layout. All of them are found among the rows that
left joins lead to, where predicates and inner joins pick some out. -/
namespace Tabulation.Plan.Layout
open Catalog (Step FanOutKey)
open Query (JoinStyle)
open Evaluation

variable {catalog : Catalog} {l : Layout} {tables : Tables} {specials : Specials} {root : Row}
  {b b' : Binding} {steps : List Step} {key : FanOutKey} {part : Partition}

lemma neededSteps_subset : l.neededSteps ⊆ l.mainSteps := by
  intro s hs
  obtain ⟨path, hpath, hsp⟩ := List.mem_flatten.1 hs
  exact mem_extendAll.2 (.inr ⟨path, List.mem_append_left _ hpath, hsp⟩)

lemma Sound.bound_of_groupKey (h : l.Sound catalog) (hc : catalog.WellFormed) {c : Checked}
    {scope : Scope.Resolved} {os : List (Nat × Sorting.SortOrder)} {k : GroupKey}
    (hk : k ∈ (l.plan catalog c scope os).groupKeys) :
    k.column.aliasName ∈ boundBy l.root.aliasName l.mainSteps := by
  obtain ⟨⟨x, i⟩, hx, rfl⟩ := List.mem_map.1 hk
  have hmem := List.fst_mem_of_mem_zipIdx hx
  refine mem_boundBy_of_path hc (h.projection x hmem).1 fun s hs => ?_
  exact mem_extendAll.2 (.inr ⟨x.path, by simpa using .inl ⟨x, hmem, rfl⟩, hs⟩)

lemma Sound.bound_of_predicate (h : l.Sound catalog) (hc : catalog.WellFormed) {q : Predicate}
    (hq : q ∈ l.main.2) : q.column.aliasName ∈ boundBy l.root.aliasName l.mainSteps := by
  obtain ⟨f, hf, rfl⟩ := List.mem_map.1 hq
  refine mem_boundBy_of_path hc (h.direct_path hf).1 fun s hs => ?_
  exact mem_extendAll.2 (.inr ⟨f.path, by simpa using .inr (.inl ⟨f, hf, rfl⟩), hs⟩)

lemma Sound.bound_of_part (h : l.Sound catalog) (hc : catalog.WellFormed)
    (he : (key, part) ∈ l.parts.entries) {a : Nat × Placed Query.Aggregation} (ha : a ∈ part) :
    a.2.entity.aliasName ∈ boundBy l.root.aliasName (partSteps part) := by
  refine mem_boundBy_of_path hc ((h.part _ he).2 a ha).1 fun s hs => ?_
  exact mem_extendAll.2 (.inr ⟨a.2.path, List.mem_map.2 ⟨a, ha, rfl⟩, hs⟩)

/-- A row on which all steps of the main rows were gone is one of them. -/
def isMain (l : Layout) (specials : Specials) (b : Binding) : Bool :=
  meets (· ∈ l.neededSteps) l.mainSteps b && satisfies specials l.main.2 b

/-- The predicates on entity types that some steps reach and that fan out. -/
def conditionsOn (l : Layout) (steps : List Step) : List Predicate :=
  (l.fannedOn steps).flatMap (·.predicates)

/-- A row on which all steps of a part were gone satisfies the predicates on its way, and if asked it
has partners on all steps that fan out. -/
def isPartRow (l : Layout) (specials : Specials) (part : Partition) (inner : Bool) (b : Binding) :
    Bool :=
  satisfies specials (l.conditionsOn (partSteps part)) b &&
    meets (fun s => inner && s.fansOut) (partSteps part) b

/-- The rows of a part for one root row. -/
def partRows (l : Layout) (tables : Tables) (specials : Specials) (part : Partition) (inner : Bool)
    (root : Row) : List Binding :=
  (tables.spread l.root.aliasName (partSteps part) root).filter (l.isPartRow specials part inner)

lemma partRows_subset (inner : Bool) :
    l.partRows tables specials part inner root ⊆ l.partRows tables specials part false root := by
  intro b hb
  obtain ⟨hmem, hrow⟩ := List.mem_filter.1 hb
  obtain ⟨hsat, -⟩ := Bool.and_eq_true_iff.1 hrow
  refine List.mem_filter.2 ⟨hmem, ?_⟩
  rw [isPartRow, hsat, Bool.true_and, meets_iff]
  simp

lemma Sound.isMain_eq (h : l.Sound catalog) (hc : catalog.WellFormed)
    (hb : Binding.Agree (boundBy l.root.aliasName l.mainSteps) b b') :
    l.isMain specials b = l.isMain specials b' := by
  unfold isMain
  rw [hb.satisfies_eq specials fun q hq => h.bound_of_predicate hc hq,
    meets_eq hb fun s hs => target_mem_boundBy hs]

lemma isMain_iff : l.isMain specials b ↔
    (∀ s ∈ l.neededSteps, (b.row? s.target.aliasName).isSome) ∧ satisfies specials l.main.2 b := by
  rw [isMain, Bool.and_eq_true, meets_iff]
  refine and_congr_left fun _ => ⟨fun h s hs => ?_, fun h s _ hs => h s (of_decide_eq_true hs)⟩
  exact h s (neededSteps_subset hs) (decide_eq_true hs)

/-- A row along the steps of one layout that has what another layout asks of its main rows is one of them,
as far as that layout goes. -/
theorem Sound.exists_mainRow {l' : Layout} (h : l.Sound catalog) (h' : l'.Sound catalog)
    (hc : catalog.WellFormed) (ha : catalog.DistinctAliases) (hroot : l'.root = l.root)
    (hsteps : l'.mainSteps ⊆ l.mainSteps)
    (hb : b ∈ tables.spread l.root.aliasName l.mainSteps root)
    (hneeded : ∀ s ∈ l'.neededSteps, (b.row? s.target.aliasName).isSome)
    (hsat : satisfies specials l'.main.2 b) :
    ∃ b' ∈ (tables.spread l'.root.aliasName l'.mainSteps root).filter (l'.isMain specials),
      Binding.Agree (boundBy l'.root.aliasName l'.mainSteps) b' b := by
  have hchained := (h.main_joins hc ha).2.chained hc ha
  have hchained' := (h'.main_joins hc ha).2.chained hc ha
  rw [← hroot] at hb hchained
  obtain ⟨b', hb', hagree⟩ := hchained.exists_restriction hchained' hsteps hb
  refine ⟨b', List.mem_filter.2 ⟨hb', isMain_iff.2 ⟨fun s hs => ?_, ?_⟩⟩, hagree⟩
  · rw [hagree _ (target_mem_boundBy (neededSteps_subset hs))]
    exact hneeded s hs
  · rwa [hagree.satisfies_eq specials fun q hq => h'.bound_of_predicate hc hq]

/-- A row that satisfies the predicates on the way of its steps has a row for each of them. -/
lemma Sound.isSome_of_satisfies (h : l.Sound catalog) (hc : catalog.WellFormed)
    (hrooted : Rooted catalog l.root steps) (hb : ∀ s ∈ steps, tables.Follows s b)
    (hsat : satisfies specials (l.conditionsOn steps) b) {f : FannedFilters}
    (hf : f ∈ l.fannedOn steps) :
    (b.row? f.entity.aliasName).isSome ∧ ∀ s ∈ f.path, (b.row? s.target.aliasName).isSome := by
  obtain ⟨hmem, hreached⟩ := List.mem_filter.1 hf
  have hpath := (h.fanned_path hmem).1
  obtain ⟨-, hne, hpredicates⟩ := mem_groupFilters hmem
  obtain ⟨q, hq⟩ := List.exists_mem_of_ne_nil _ hne
  obtain ⟨x, -, hx, rfl⟩ := hpredicates q hq
  have hsome := row?_of_satisfies hsat (List.mem_flatMap.2 ⟨f, hf, hq⟩)
  have hentity : (b.row? f.entity.aliasName).isSome := hx ▸ hsome
  exact ⟨hentity, isSome_of_path hc hpath (fun s hs => hb s (hrooted.path_subset hreached hpath hs)) hentity⟩

lemma Sound.isPartRow_eq (h : l.Sound catalog) (hc : catalog.WellFormed)
    (ha : catalog.DistinctAliases) (he : (key, part) ∈ l.parts.entries) (inner : Bool)
    (hb : Binding.Agree (boundBy l.root.aliasName (partSteps part)) b b') :
    l.isPartRow specials part inner b = l.isPartRow specials part inner b' := by
  obtain ⟨-, -, -, hrooted⟩ := h.subExpression_joins hc ha he .outer 0
  unfold isPartRow
  rw [meets_eq hb fun s hs => target_mem_boundBy hs, hb.satisfies_eq specials fun q hq => ?_]
  obtain ⟨f, hf, hq⟩ := List.mem_flatMap.1 hq
  obtain ⟨hmem, hreached⟩ := List.mem_filter.1 hf
  obtain ⟨x, -, hx, rfl⟩ := (mem_groupFilters hmem).2.2 q hq
  have hpath := (h.fanned_path hmem).1
  have hbound := mem_boundBy_of_path hc hpath (hrooted.path_subset hreached hpath)
  rwa [← hx] at hbound

/-- Where there are partners on all steps that fan out, it makes no difference to ask for them. -/
lemma isPartRow_of_meets (h : meets (·.fansOut) (partSteps part) b) (inner : Bool) :
    l.isPartRow specials part inner b =
      satisfies specials (l.conditionsOn (partSteps part)) b := by
  have hmeets : meets (fun s => inner && s.fansOut) (partSteps part) b = true :=
    meets_iff.2 fun s hs hf => meets_iff.1 h s hs (Bool.and_eq_true_iff.1 hf).2
  rw [isPartRow, hmeets, Bool.and_true]

lemma Sound.mainRows_eq (h : l.Sound catalog) (hc : catalog.WellFormed)
    (ha : catalog.DistinctAliases) :
    (tables.reach l.root.aliasName l.main.1 root).filter (satisfies specials l.main.2) =
      (tables.spread l.root.aliasName l.mainSteps root).filter (l.isMain specials) := by
  obtain ⟨hmain, hrooted⟩ := h.main_joins hc ha
  rw [hmain, (hrooted.chained hc ha).reach_eq_filter, List.filter_filter]
  apply List.filter_congr
  intro b _
  rw [isMain, Bool.and_comm]

/-- The rows of a sub-expression satisfy its predicates and have partners on all steps that fan
out. -/
lemma Sound.subRows_eq (h : l.Sound catalog) (hc : catalog.WellFormed)
    (ha : catalog.DistinctAliases) (he : (key, part) ∈ l.parts.entries) (style : JoinStyle)
    (offset : Nat) :
    let s := subExpression style l.fanned offset key part
    (tables.reach l.root.aliasName s.joins root).filter (satisfies specials s.predicates) =
      l.partRows tables specials part true root := by
  obtain ⟨-, hjoins, hpredicates, hrooted⟩ := h.subExpression_joins hc ha he style offset
  have hchained := hrooted.chained hc ha
  simp only [hjoins, hpredicates, partRows]
  rw [hchained.reach_eq_filter, List.filter_filter]
  apply List.filter_congr
  intro b hb
  have hfollows := (hchained.of_mem_spread hb).2.2
  change (satisfies specials (l.conditionsOn (partSteps part)) b && _) = _
  rw [isPartRow]
  cases hsat : satisfies specials (l.conditionsOn (partSteps part)) b with
  | false => rfl
  | true =>
    rw [Bool.true_and, Bool.true_and, Bool.eq_iff_iff, meets_iff, meets_iff]
    refine forall₂_congr fun t _ => ⟨fun ht hf => ht ?_, fun ht hf => ?_⟩
    · rw [Bool.true_and] at hf
      rw [hf, Bool.true_or]
    rcases Bool.or_eq_true_iff.1 hf with hf | hf
    · exact ht (by rw [hf, Bool.true_and])
    · obtain ⟨f, hf, htf⟩ := List.any_eq_true.1 hf
      exact (h.isSome_of_satisfies hc hrooted hfollows hsat hf).2 t (of_decide_eq_true htf)

/-- Where the filters on the way have their rows, the inner joins of a flat plan ask for what the main
rows need and, under an inner style, for partners on all steps that fan out. -/
lemma meets_flatInner {style : JoinStyle} (hbound : ∀ f ∈ l.fannedOn (partSteps part),
      (b.row? f.entity.aliasName).isSome ∧ ∀ s ∈ f.path, (b.row? s.target.aliasName).isSome) :
    meets (l.flatInner style part) (l.flatSteps part) b =
      (meets (· ∈ l.neededSteps) l.mainSteps b &&
        meets (fun s => style = .inner && s.fansOut) (partSteps part) b) := by
  rw [Bool.eq_iff_iff, Bool.and_eq_true, meets_iff, meets_iff, meets_iff]
  constructor
  · intro hall
    refine ⟨fun s hs hn => hall s (mem_flatSteps.2 (.inl hs)) (by simp [flatInner, of_decide_eq_true hn]),
      fun s hs hf => hall s (mem_flatSteps.2 (.inr hs)) ?_⟩
    obtain ⟨hstyle, hfan⟩ := Bool.and_eq_true_iff.1 hf
    simp [flatInner, flatKind, hfan, of_decide_eq_true hstyle, joinKind, hs]
  · rintro ⟨hneeded, hfan⟩ s - hinner
    simp only [flatInner, Bool.or_eq_true, Bool.and_eq_true, decide_eq_true_eq] at hinner
    rcases hinner with (hs | ⟨hkind, hs⟩) | hs
    · exact hneeded s (neededSteps_subset hs) (decide_eq_true hs)
    · unfold flatKind at hkind
      split_ifs at hkind with hf hany
      · refine hfan s hs ?_
        cases style
        · simp [hf]
        · cases hkind
      · -- a filter on the target of the step asks for a row there
        obtain ⟨f, hmem, hfs⟩ := List.any_eq_true.1 hany
        have hfs := of_decide_eq_true hfs
        have hon : f ∈ l.fannedOn (partSteps part) :=
          List.mem_filter.2 ⟨hmem, hfs ▸ reaches_of_mem hs⟩
        exact hfs ▸ (hbound f hon).1
    · obtain ⟨f, hf, hsf⟩ := List.any_eq_true.1 hs
      exact (hbound f hf).2 s (of_decide_eq_true hsf)

/-- The rows of a flat plan satisfy the predicates on their way, too, and under an inner style they
have partners on all steps that fan out. -/
lemma Sound.flatRows_eq (h : l.Sound catalog) (hc : catalog.WellFormed)
    (ha : catalog.DistinctAliases) (he : (key, part) ∈ l.parts.entries) (style : JoinStyle) :
    let r := addFlat style l.fanned l.main part
    (tables.reach l.root.aliasName r.1 root).filter (satisfies specials r.2) =
      (tables.spread l.root.aliasName (l.flatSteps part) root).filter fun b =>
        l.isMain specials b && l.isPartRow specials part (style = .inner) b := by
  obtain ⟨hflat, hrooted⟩ := h.flat_joins hc ha he style
  have hchained := hrooted.chained hc ha
  simp only [hflat]
  rw [hchained.reach_eq_filter, List.filter_filter]
  apply List.filter_congr
  intro b hb
  have hfollows := (hchained.of_mem_spread hb).2.2
  have hfannedOn := h.fannedOn_flatSteps hc ha part
  change (satisfies specials (l.main.2 ++ l.conditionsOn (partSteps part)) b && _) = _
  rw [satisfies_append, isMain, isPartRow]
  cases hsat : satisfies specials (l.conditionsOn (partSteps part)) b with
  | false => simp
  | true =>
    have hsat' : satisfies specials (l.conditionsOn (l.flatSteps part)) b := by
      rwa [conditionsOn, hfannedOn]
    have hbound : ∀ f ∈ l.fannedOn (partSteps part), (b.row? f.entity.aliasName).isSome ∧
        ∀ s ∈ f.path, (b.row? s.target.aliasName).isSome :=
      fun f hf => h.isSome_of_satisfies hc hrooted hfollows hsat' (hfannedOn ▸ hf)
    rw [meets_flatInner hbound]
    cases meets (· ∈ l.neededSteps) l.mainSteps b <;> cases satisfies specials l.main.2 b <;> simp

end Tabulation.Plan.Layout
