import Tabulation.Proofs.Evaluation.Flattening
import Tabulation.Proofs.Evaluation.Restriction
import Tabulation.Proofs.Evaluation.Rows

/-! The flat and the partitioned plan of one query. Counting over multiplied rows is counting root row by
root row, but for root rows that have no row with all filters on the way satisfied at once: a flat plan
drops them, whatever its join style. -/
namespace Tabulation.Evaluation
open Catalog (Step FanOutKey)
open Query (Model JoinStyle)
open Plan

lemma present_valuesOf_filter {a : Aggregate} {p q : Binding → Bool} {rows : List Binding}
    (h : ∀ b ∈ rows, p b ≠ q b → b.value? a.column = none) :
    present (valuesOf a (rows.filter p)) = present (valuesOf a (rows.filter q)) := by
  induction rows with
  | nil => rfl
  | cons b rows ih =>
    have hrest := ih fun d hd => h d (List.mem_cons_of_mem _ hd)
    have hcons : ∀ rows, present (valuesOf a (b :: rows)) =
        present [b.value? a.column] ++ present (valuesOf a rows) :=
      fun rows => present_append [b.value? a.column] (valuesOf a rows)
    by_cases hpq : p b = q b
    · rw [List.filter_cons, List.filter_cons, hpq]
      split_ifs
      · rw [hcons, hcons, hrest]
      · exact hrest
    · -- the row is in one of the lists only, but has nothing to count
      have hnil : present [b.value? a.column] = [] := by rw [h b List.mem_cons_self hpq]; rfl
      rw [List.filter_cons, List.filter_cons]
      split_ifs <;> simp [hcons, hnil, hrest]

lemma leftJoins_joinsOf (inner : Step → Bool) (steps : List Step) :
    leftJoins (joinsOf inner steps) = joinsOf (fun _ => false) steps := by
  simp [leftJoins, joinsOf]

section

variable {catalog : Catalog} {l : Layout} {key : FanOutKey} {part : Partition} {tables : Tables}
  {specials : Specials} {root : Row} {b : Binding} {c : Checked} {scope : Scope.Resolved}
  {os : List (Nat × Sorting.SortOrder)}

/-- A row that lacks a partner on a step of the part that fans out has no value for its aggregates. -/
lemma value?_eq_none (hc : catalog.WellFormed) (ha : catalog.DistinctAliases) (h : l.Sound catalog)
    (he : (key, part) ∈ l.parts.entries) {a : Nat × Placed Query.Aggregation} (hmem : a ∈ part)
    (hb : b ∈ tables.spread l.root.aliasName (Layout.partSteps part) root)
    (hmeets : meets (·.fansOut) (Layout.partSteps part) b = false) :
    b.value? (.ofColumn a.2.column) = none := by
  obtain ⟨-, -, -, hrooted⟩ := h.subExpression_joins hc ha he .outer 0
  have hfollows := ((hrooted.chained hc ha).of_mem_spread hb).2.2
  have hpath := ((h.part _ he).2 a hmem).1
  have hsub : a.2.path ⊆ Layout.partSteps part := fun s hs =>
    mem_extendAll.2 (.inr ⟨a.2.path, List.mem_map.2 ⟨a, hmem, rfl⟩, hs⟩)
  obtain ⟨s, hs, hfan, hnone⟩ : ∃ s ∈ Layout.partSteps part, s.fansOut = true ∧
      ¬ (b.row? s.target.aliasName).isSome := by
    by_contra hall
    push Not at hall
    rw [meets_iff.2 fun s hs hf => hall s hs hf] at hmeets
    cases hmeets
  -- the aggregate's own path takes that step
  obtain ⟨path, hpathmem, hsp⟩ := (mem_extendAll.1 hs).resolve_left (by simp)
  obtain ⟨⟨e, hpath'⟩, hkey⟩ := h.part_path he hpathmem
  have hown := mem_of_key hc hpath' hpath (hkey.trans ((h.part _ he).2 a hmem).2.symm) hsp hfan
  have hrow : b.row? a.2.entity.aliasName = none := by
    cases hr : b.row? a.2.entity.aliasName with
    | none => rfl
    | some row =>
      exact absurd (isSome_of_path hc hpath (fun t ht => hfollows t (hsub ht)) (by simp [hr]) s hown) hnone
  have hcolumn : (ColumnRef.ofColumn a.2.column).aliasName = a.2.entity.aliasName := rfl
  rw [Binding.value?, hcolumn, hrow]
  rfl

lemma present_partRows (hc : catalog.WellFormed) (ha : catalog.DistinctAliases) (h : l.Sound catalog)
    (he : (key, part) ∈ l.parts.entries) {i : Nat} {a : Nat × Placed Query.Aggregation} (hmem : a ∈ part)
    (inner inner' : Bool) :
    let aggregate : Aggregate := ⟨i, a.2.use.function, .ofColumn a.2.column⟩
    present (valuesOf aggregate (l.partRows tables specials part inner root)) =
      present (valuesOf aggregate (l.partRows tables specials part inner' root)) := by
  refine present_valuesOf_filter fun b hb hne => value?_eq_none hc ha h he hmem hb ?_
  by_contra hmeets
  rw [Bool.not_eq_false] at hmeets
  exact hne (by rw [Layout.isPartRow_of_meets hmeets, Layout.isPartRow_of_meets hmeets])

/-- With left joins only, a sub-expression has rows for a root row wherever its predicates are
satisfied. -/
lemma leftRows_eq (hc : catalog.WellFormed) (ha : catalog.DistinctAliases) (h : l.Sound catalog)
    (he : (key, part) ∈ l.parts.entries) (style : JoinStyle) (offset : Nat) :
    let s := subExpression style l.fanned offset key part
    (tables.reach l.root.aliasName (leftJoins s.joins) root).filter (satisfies specials s.predicates) =
      l.partRows tables specials part false root := by
  obtain ⟨-, hjoins, hpredicates, -⟩ := h.subExpression_joins hc ha he style offset
  simp only [hjoins, hpredicates, leftJoins_joinsOf, Layout.partRows]
  apply List.filter_congr
  intro b _
  have hmeets : meets (fun s => false && s.fansOut) (Layout.partSteps part) b = true :=
    meets_iff.2 (by simp)
  rw [Layout.isPartRow, hmeets, Bool.and_true]
  rfl

lemma isMatched_iff (hc : catalog.WellFormed) (ha : catalog.DistinctAliases) (h : l.Sound catalog)
    (hs : c.strategy = .partitioned) (hfar : l.far = [(key, part)]) :
    Run.isMatched ⟨tables, specials, l.plan catalog c scope os⟩ root ↔
      l.partRows tables specials part false root ≠ [] := by
  obtain ⟨-, -, -, hsubs⟩ := l.plan_of_partitioned hs catalog scope os
  rw [hfar, List.map_singleton] at hsubs
  rw [← leftRows_eq hc ha h (Layout.mem_entries_of_far hfar).1 c.joinStyle l.projections.length]
  simp only [Run.isMatched, hsubs, List.all_cons, List.all_nil, Bool.and_true, Bool.not_eq_true',
    Bool.eq_false_iff, ne_eq, List.isEmpty_iff]
  rfl

/-- An inner sub-expression drops the root rows that it has no rows for. -/
lemma keeps_iff (hc : catalog.WellFormed) (ha : catalog.DistinctAliases) (h : l.Sound catalog)
    (he : (key, part) ∈ l.parts.entries) :
    Run.keeps ⟨tables, specials, l.plan catalog c scope os⟩ root
        (subExpression c.joinStyle l.fanned l.projections.length key part) ↔
      c.joinStyle = .outer ∨ l.partRows tables specials part true root ≠ [] := by
  rw [← h.subRows_eq hc ha he c.joinStyle l.projections.length, Run.keeps, decide_eq_true_eq,
    List.isEmpty_iff, not_and_or, or_comm]
  refine or_congr ?_ Iff.rfl
  simp only [subExpression]
  cases c.joinStyle <;> simp [joinKind]

lemma flat_rows (hc : catalog.WellFormed) (ha : catalog.DistinctAliases) (h : l.Sound catalog)
    (he : (key, part) ∈ l.parts.entries) (style : JoinStyle)
    (hkm : ∀ s ∈ l.mainSteps, tables.Keyed s) (specials : Specials) (root : Row) :
    let rows (r : Restricted) :=
      (tables.reach l.root.aliasName r.1 root).filter (satisfies specials r.2)
    (rows (addFlat style l.fanned l.main part) = [] ∧ rows l.main = []) ∨
      ∃ c, rows l.main = [c] ∧
        (∀ b ∈ rows (addFlat style l.fanned l.main part),
          Binding.Agree (boundBy l.root.aliasName l.mainSteps) c b) ∧
        List.Forall₂ (Binding.Agree (boundBy l.root.aliasName (Layout.partSteps part)))
          (l.partRows tables specials part (style = .inner) root)
          (rows (addFlat style l.fanned l.main part)) := by
  intro rows
  obtain ⟨-, -, -, hrooted⟩ := h.subExpression_joins hc ha he .outer 0
  obtain ⟨-, hrooted'⟩ := h.flat_joins hc ha he style
  have hchained' := hrooted'.chained hc ha
  obtain ⟨c, hmain⟩ := exists_spread_eq hkm (fun s hs => h.mainSteps_direct hs) l.root.aliasName root
  -- all multiplied rows go on from the joined row
  have hagree : ∀ b ∈ tables.spread l.root.aliasName (l.flatSteps part) root,
      Binding.Agree (boundBy l.root.aliasName l.mainSteps) c b := by
    intro b hb
    obtain ⟨c', hc', hcb⟩ := hchained'.exists_restriction hchained'.of_append (List.subset_append_left _ _) hb
    rw [hmain, List.mem_singleton] at hc'
    exact hc' ▸ hcb
  simp only [rows, h.flatRows_eq hc ha he style, h.mainRows_eq hc ha, hmain]
  cases hg : l.isMain specials c with
  | false =>
    refine .inl ⟨List.filter_eq_nil_iff.2 fun b hb => ?_, by simp [hg]⟩
    rw [← h.isMain_eq hc (hagree b hb), hg]
    simp
  | true =>
    refine .inr ⟨c, by simp [hg], fun b hb => hagree b (List.mem_filter.1 hb).1, ?_⟩
    have hpart : (tables.spread l.root.aliasName (l.flatSteps part) root).filter (fun b =>
          l.isMain specials b && l.isPartRow specials part (style = .inner) b) =
        (tables.spread l.root.aliasName (l.flatSteps part) root).filter
          (l.isPartRow specials part (style = .inner)) := by
      apply List.filter_congr
      intro b hb
      rw [← h.isMain_eq hc (hagree b hb), hg, Bool.true_and]
    rw [hpart]
    refine List.rel_filter (fun b b' hb => ?_) ((hrooted.chained hc ha).spread_absorb hchained' hkm
      (fun s hs => h.mainSteps_direct hs) root)
    exact Bool.eq_iff_iff.1 (h.isPartRow_eq hc ha he _ hb)

lemma prepares_iff_of_layout (hc : catalog.WellFormed) (ha : catalog.DistinctAliases)
    (h : l.Sound catalog) (hsize : l.parts.size ≤ 1) (hfar : l.far = [(key, part)])
    (hs : c.strategy = .partitioned) :
    Run.Prepares ⟨tables, specials, l.plan catalog { c with strategy := .flat } scope os⟩ ↔
      Run.Prepares ⟨tables, specials, l.plan catalog c scope os⟩ := by
  have he := (Layout.mem_entries_of_far hfar).1
  obtain ⟨-, hpredicates, -, hsubs⟩ := l.plan_of_partitioned hs catalog scope os
  obtain ⟨hflat, -, hnone⟩ := Layout.plan_of_flat hsize hfar catalog c scope os
  obtain ⟨-, -, hsub, -⟩ := h.subExpression_joins hc ha he c.joinStyle l.projections.length
  rw [(h.flat_joins hc ha he c.joinStyle).1, Prod.mk.injEq, ← hsub, ← hpredicates] at hflat
  rw [hfar, List.map_singleton] at hsubs
  constructor
  · intro hx
    refine ⟨fun q hq => hx.main q ?_, hx.semiJoins, fun t ht q hq => hx.main q ?_⟩
    · exact hflat.2 ▸ List.mem_append_left _ hq
    · rw [hsubs, List.mem_singleton] at ht
      exact hflat.2 ▸ List.mem_append_right _ (ht ▸ hq)
  · intro hy
    refine ⟨fun q hq => ?_, hy.semiJoins, fun t ht => ?_⟩
    · rw [hflat.2] at hq
      rcases List.mem_append.1 hq with hq | hq
      · exact hy.main q hq
      · exact hy.subExpressions _ (hsubs ▸ List.mem_singleton_self _) q hq
    · rw [hnone] at ht
      simp at ht

/-- The flat plan runs over the multiplied rows of the partitioned one. -/
theorem flattens_of_layout (hc : catalog.WellFormed) (ha : catalog.DistinctAliases)
    (h : l.Sound catalog) (hsize : l.parts.size ≤ 1) (hfar : l.far = [(key, part)])
    (hs : c.strategy = .partitioned) (hcount : ∀ a ∈ part, IsCount a.2.use.function)
    (specials : Specials) (hkm : ∀ s ∈ l.mainSteps, tables.Keyed s) :
    Run.Flattens (boundBy l.root.aliasName l.mainSteps)
      ⟨tables, specials, l.plan catalog { c with strategy := .flat } scope os⟩
      ⟨tables, specials, l.plan catalog c scope os⟩
      (subExpression c.joinStyle l.fanned l.projections.length key part) := by
  have he := (Layout.mem_entries_of_far hfar).1
  let s := subExpression c.joinStyle l.fanned l.projections.length key part
  let x : Run := ⟨tables, specials, l.plan catalog { c with strategy := .flat } scope os⟩
  let y : Run := ⟨tables, specials, l.plan catalog c scope os⟩
  obtain ⟨hflat, hlocals, hnone⟩ := Layout.plan_of_flat hsize hfar catalog c scope os
  obtain ⟨hjoins, hpredicates, hlocals', hsubs⟩ := l.plan_of_partitioned hs catalog scope os
  rw [Layout.near_eq_nil hsize hfar] at hlocals'
  rw [hfar, List.map_singleton] at hsubs
  have hsubRows : ∀ root, y.subRows s root = l.partRows tables specials part true root :=
    fun root => h.subRows_eq hc ha he c.joinStyle l.projections.length
  have hmatched : ∀ root, y.isMatched root ↔ l.partRows tables specials part false root ≠ [] :=
    fun root => isMatched_iff hc ha h hs hfar
  refine ⟨rfl, rfl, fun k hk => h.bound_of_groupKey hc hk, ⟨hlocals, hlocals'⟩, ⟨hnone, hsubs⟩, ?_,
    prepares_iff_of_layout hc ha h hsize hfar hs, fun root => Run.admits_congr rfl rfl rfl root, ?_, ?_⟩
  · intro a hmem
    obtain ⟨u, hu, rfl⟩ := List.mem_map.1 hmem
    exact hcount u hu
  · intro root hunmatched
    rw [← Bool.not_eq_true, hmatched, not_not] at hunmatched
    rw [hsubRows]
    exact List.subset_nil.1 (hunmatched ▸ Layout.partRows_subset true)
  · intro root
    have hx : x.mainRows root = (tables.reach l.root.aliasName (addFlat c.joinStyle l.fanned l.main part).1
        root).filter (satisfies specials (addFlat c.joinStyle l.fanned l.main part).2) := by
      rw [← hflat]
      rfl
    have hy : y.mainRows root =
        (tables.reach l.root.aliasName l.main.1 root).filter (satisfies specials l.main.2) := by
      rw [← hjoins, ← hpredicates]
      rfl
    have hrows := flat_rows hc ha h he c.joinStyle hkm specials root
    simp only [← hx, ← hy] at hrows
    rcases hrows with hnil | ⟨d, hd, hagree, hpaired⟩
    · exact .inl hnil
    refine .inr ⟨d, hd, hagree, ?_, fun a hmem => ?_⟩
    · have hsome : x.mainRows root ≠ [] ↔ l.partRows tables specials part (c.joinStyle = .inner) root ≠ [] := by
        rw [ne_eq, ne_eq, ← List.length_eq_zero_iff, ← List.length_eq_zero_iff, hpaired.length_eq]
      rw [hsome, hmatched, keeps_iff hc ha h he]
      cases c.joinStyle with
      | outer => simp
      | inner =>
        simp only [reduceCtorEq, false_or, decide_true]
        -- where there are rows with partners, there are rows
        exact ⟨fun hne => ⟨fun hnil => hne (List.subset_nil.1 (hnil ▸ Layout.partRows_subset true)), hne⟩,
          And.right⟩
    · obtain ⟨u, hu, rfl⟩ := List.mem_map.1 hmem
      rw [← valuesOf_eq hpaired (h.bound_of_part hc he hu), hsubRows]
      exact present_partRows hc ha h he hu _ _

/-- A filter on the way is satisfied by a row of the part wherever the semi-join of the filter finds
one. -/
lemma exists_partRow (hc : catalog.WellFormed) (ha : catalog.DistinctAliases) (h : l.Sound catalog)
    (he : (key, part) ∈ l.parts.entries) (hone : (l.fannedOn (Layout.partSteps part)).length ≤ 1)
    (hsemi : ∀ f ∈ l.fanned,
      (tables.reach l.root.aliasName (addInner [] f.path) root).filter (satisfies specials f.predicates) ≠ []) :
    ∃ b ∈ tables.spread l.root.aliasName (Layout.partSteps part) root,
      satisfies specials (l.conditionsOn (Layout.partSteps part)) b := by
  obtain ⟨-, -, -, hrooted⟩ := h.subExpression_joins hc ha he .outer 0
  have hchained := hrooted.chained hc ha
  unfold Layout.conditionsOn
  match hfilters : l.fannedOn (Layout.partSteps part), hone with
  | [], _ =>
    obtain ⟨b, hb⟩ := hchained.exists_mem_spread tables root
    exact ⟨b, hb, rfl⟩
  | [f], _ =>
    have hf : f ∈ l.fannedOn (Layout.partSteps part) := hfilters ▸ List.mem_singleton_self _
    obtain ⟨hmem, hreached⟩ := List.mem_filter.1 hf
    have hpath := (h.fanned_path hmem).1
    obtain ⟨hjoins, hrooted'⟩ := addInner_nil hc ha hpath
    have hchained' := hrooted'.chained hc ha
    obtain ⟨d, hd⟩ := List.exists_mem_of_ne_nil _ (hsemi f hmem)
    obtain ⟨hd, hsat⟩ := List.mem_filter.1 hd
    rw [hjoins, hchained'.reach_eq_filter] at hd
    obtain ⟨hroot, -, hfollows⟩ := hchained'.of_mem_spread (List.mem_filter.1 hd).1
    -- the part takes the steps to the filter, too, and goes on from the row found there
    have hsteps : ∀ s ∈ Layout.partSteps part,
        s.target.aliasName ∈ f.path.map (·.target.aliasName) → s ∈ f.path := by
      intro s hs halias
      obtain ⟨t, ht, hts⟩ := List.mem_map.1 halias
      obtain ⟨p, hp, -⟩ := hrooted.path_of_mem hs
      have htarget := ha _ _ (Catalog.contains_of_mem_path? hc hpath ht).2
        (Catalog.contains_of_path? hp).2 hts
      exact Catalog.step_unique hc hpath hp ht (by simp) htarget ▸ ht
    have hprior : ∀ s ∈ Layout.partSteps part,
        s.target.aliasName ∈ f.path.map (·.target.aliasName) →
          tables.Follows s d ∧ s.source.aliasName ∈ boundBy l.root.aliasName f.path :=
      fun s hs halias => ⟨hfollows s (hsteps s hs halias), hchained'.source_mem (hsteps s hs halias)⟩
    obtain ⟨b, hb, hbd⟩ := hchained.exists_extension _ hroot hprior
    refine ⟨b, hb, ?_⟩
    have hagree : Binding.Agree [f.entity.aliasName] b d := by
      intro a hmem
      rw [List.mem_singleton.1 hmem]
      exact hbd _ (mem_boundBy_of_path hc hpath (hrooted.path_subset hreached hpath))
        (mem_boundBy_of_path hc hpath (List.Subset.refl _))
    rw [List.flatMap_singleton, hagree.satisfies_eq specials fun q hq => ?_]
    · exact hsat
    · obtain ⟨x, -, hx, rfl⟩ := (mem_groupFilters hmem).2.2 q hq
      exact List.mem_singleton.2 (congrArg EntityType.aliasName hx)
  | _ :: _ :: _, hone => simp at hone

/-- How many filters on entity types that fan out are on the way of a sub-expression. -/
def filtersOn (p : Plan) (s : SubExpression) : Nat :=
  (p.semiJoins.filter fun semi => s.joins.any fun j => j.step.target = semi.target).length

lemma filtersOn_eq (hc : catalog.WellFormed) (ha : catalog.DistinctAliases) (h : l.Sound catalog)
    (he : (key, part) ∈ l.parts.entries) :
    filtersOn (l.plan catalog c scope os)
        (subExpression c.joinStyle l.fanned l.projections.length key part) =
      (l.fannedOn (Layout.partSteps part)).length := by
  obtain ⟨-, hjoins, -, -⟩ := h.subExpression_joins hc ha he c.joinStyle l.projections.length
  have hreaches : ∀ e, ((subExpression c.joinStyle l.fanned l.projections.length key part).joins.any
      fun j => j.step.target = e) = reaches (Layout.partSteps part) e := by
    intro e
    rw [hjoins]
    simp [joinsOf, reaches, Function.comp_def]
  simp only [filtersOn, hreaches]
  simp [Layout.plan, Layout.fannedOn, List.filter_map, semiJoin, Function.comp_def]

/-- A root row that counts is matched if rows without partners are dropped, or if there is no more than
one filter on the way. -/
lemma isMatched_of_counts (hc : catalog.WellFormed) (ha : catalog.DistinctAliases)
    (h : l.Sound catalog) (hs : c.strategy = .partitioned) (hfar : l.far = [(key, part)])
    (hcase : c.joinStyle = .inner ∨ ∀ s ∈ (l.plan catalog c scope os).subExpressions,
      filtersOn (l.plan catalog c scope os) s ≤ 1) :
    let y : Run := ⟨tables, specials, l.plan catalog c scope os⟩
    y.counts root → y.isMatched root := by
  intro y hcounts
  have he := (Layout.mem_entries_of_far hfar).1
  obtain ⟨-, -, -, hsubs⟩ := l.plan_of_partitioned hs catalog scope os
  rw [hfar, List.map_singleton] at hsubs
  have hsub := hsubs ▸ List.mem_singleton_self _
  obtain ⟨hadmits, hkeeps⟩ := Bool.and_eq_true_iff.1 hcounts
  rw [isMatched_iff hc ha h hs hfar]
  rcases hcase with hinner | hone
  · have hkeep := (keeps_iff hc ha h he).1 (List.all_eq_true.1 hkeeps _ hsub)
    rw [hinner] at hkeep
    have hne := hkeep.resolve_left (by simp)
    exact fun hnil => hne (List.subset_nil.1 (hnil ▸ Layout.partRows_subset true))
  · have hfilters := filtersOn_eq hc ha h he ▸ hone _ hsub
    have hsemis : ∀ f ∈ l.fanned, (tables.reach l.root.aliasName (addInner [] f.path) root).filter
        (satisfies specials f.predicates) ≠ [] := by
      intro f hf
      have hsemi := List.all_eq_true.1 (Bool.and_eq_true_iff.1 hadmits).2 (semiJoin f)
        (List.mem_map.2 ⟨f, hf, rfl⟩)
      rw [Bool.not_eq_true', Bool.eq_false_iff, ne_eq, List.isEmpty_iff] at hsemi
      exact hsemi
    obtain ⟨b, hb, hsat⟩ := exists_partRow hc ha h he hfilters hsemis
    refine List.ne_nil_of_mem (a := b) (List.mem_filter.2 ⟨hb, ?_⟩)
    rw [Layout.isPartRow, hsat, Bool.true_and, meets_iff]
    simp

end

/-- A query that counts gives the same for both strategies, but for the root rows for which no row has
all filters on the way satisfied at once. A flat plan leaves these out: it gives what the partitioned
plan gives without them. Under an inner join style, or with one filter on the way at most, they do not
count in the partitioned plan either; otherwise the tuples are the same if and only if the groups are
the same without them. -/
theorem strategies_agree_on_matched {declarations : Catalog.Declarations} {catalog : Catalog}
    {m : Model} {scope : Scope.Resolved} {sort : Sorting.Criteria} {p q : Plan} {tables : Tables}
    (specials : Specials) (hbuild : Catalog.build declarations = .ok catalog)
    (ha : catalog.DistinctAliases) (hcount : ∀ a ∈ m.aggregations, IsCount a.function)
    (hp : compile catalog { m with strategy := .flat } scope sort = .ok p)
    (hq : compile catalog { m with strategy := .partitioned } scope sort = .ok q)
    (hk : ∀ j ∈ allJoins q, tables.Keyed j.step) :
    let y : Run := ⟨tables, specials, q⟩
    (∀ ts, evaluate tables specials p = .ok ts ↔
      evaluate (tables.keep q.root y.isMatched) specials q = .ok ts) ∧
    (m.joinStyle = .inner ∨ (∀ s ∈ q.subExpressions, filtersOn q s ≤ 1) →
      ∀ ts, evaluate tables specials p = .ok ts ↔ evaluate tables specials q = .ok ts) ∧
    ∀ ts us, evaluate tables specials p = .ok ts → evaluate tables specials q = .ok us →
      (y.KeepsGroups → ts = us) ∧ (q.sortKeys = [] → ts = us → y.KeepsGroups) := by
  intro y
  have hc := Catalog.wellFormed_build hbuild
  have hfilled := filled_perm hq
  obtain ⟨c, l, os, hs, hstyle, h, huse, hsize, rfl, rfl⟩ := exists_common_layout hc hp hq
  have hgives : Run.GivesMatched (l.plan catalog { c with strategy := .flat } scope os) y := by
    rcases Layout.far_of_size_le hsize with hfar | ⟨key, part, hfar⟩
    · have hsame : l.plan catalog { c with strategy := .flat } scope os = y.plan := by
        simp [y, Layout.plan, hfar, Checked.outputs]
      rw [hsame]
      exact Run.givesMatched_self (by simp [y, Layout.plan, hfar])
    · have hmem := (Layout.mem_entries_of_far hfar).1
      have hkm := keyed_of_joins (fun j hj => hk j (joins_subset_allJoins _ hj))
        ((l.plan_of_partitioned hs catalog scope os).1.trans (h.main_joins hc ha).1)
      exact (flattens_of_layout hc ha h hsize hfar hs (fun a hmem' => hcount _ (huse _ hmem a hmem'))
        specials hkm).givesMatched rfl rfl rfl rfl hfilled
  refine ⟨fun ts => ?_, fun hcase ts => ?_, fun ts us hts hus => ⟨fun hkeeps => ?_, fun hsort heq => ?_⟩⟩
  · have hkeep := evaluate_keep_eq_ok_iff (h.target_ne_root hc c scope os) y.isMatched
      hgives.readsAnything ts
    exact (hgives.evaluate ts).trans hkeep.symm
  · refine hgives.evaluate_iff_of_matched fun root _ hcounts _ => ?_
    rcases Layout.far_of_size_le hsize with hfar | ⟨key, part, hfar⟩
    · simp [y, Run.isMatched, Layout.plan, hfar]
    · exact isMatched_of_counts hc ha h hs hfar (hcase.imp_left hstyle.trans) hcounts
  · exact hgives.eq_of_keepsGroups hkeeps hts hus
  · exact hgives.keepsGroups_of_eq hsort hts hus heq

/-- With one filter on the notes, both strategies count those of the tickets that have such notes. -/
theorem strategies_agree_on_matched_helpDesk :
    let m : Model := .perTeam "Ticket" ["NOTE_ID"] [⟨"NOTE_KIND", .equals, [.string "public"]⟩]
    let ts : List Tuple := [[.string "red", .ofNat 2]]
    ∃ catalog p q, Catalog.build Catalog.helpDesk = .ok catalog ∧
      compile catalog { m with strategy := .flat } .unrestricted [] = .ok p ∧
      compile catalog { m with strategy := .partitioned } .unrestricted [] = .ok q ∧
      q.subExpressions.length = 1 ∧
      evaluate helpDesk .builtin p = .ok ts ∧ evaluate helpDesk .builtin q = .ok ts ∧
      Run.KeepsGroups ⟨helpDesk, .builtin, q⟩ := by
  intro m ts
  obtain ⟨catalog, hbuild, h⟩ : ∃ catalog, Catalog.build Catalog.helpDesk = .ok catalog ∧
      (decide catalog.DistinctAliases &&
        (compile catalog { m with strategy := .flat } .unrestricted []).toOption.any fun p =>
          (compile catalog { m with strategy := .partitioned } .unrestricted []).toOption.any fun q =>
            Run.gives ⟨helpDesk, .builtin, q⟩ ts && (q.subExpressions.length = 1 && q.sortKeys = []) &&
              decide (∀ s ∈ q.subExpressions, filtersOn q s ≤ 1) &&
              decide (∀ j ∈ allJoins q, helpDesk.Keyed j.step)) :=
    Outcome.exists_of_any (by decide +kernel)
  obtain ⟨ha, h⟩ := Bool.and_eq_true_iff.1 h
  obtain ⟨p, hp, h⟩ := Outcome.exists_of_any h
  obtain ⟨q, hq, h⟩ := Outcome.exists_of_any h
  obtain ⟨h, hk⟩ := Bool.and_eq_true_iff.1 h
  obtain ⟨h, hone⟩ := Bool.and_eq_true_iff.1 h
  obtain ⟨hgives, h⟩ := Bool.and_eq_true_iff.1 h
  obtain ⟨hlength, hsort⟩ := Bool.and_eq_true_iff.1 h
  have hus := evaluate_of_gives hgives
  obtain ⟨-, hsame, hgroups⟩ := strategies_agree_on_matched .builtin hbuild (of_decide_eq_true ha)
    (by decide) hp hq (of_decide_eq_true hk)
  have hts := (hsame (.inr (of_decide_eq_true hone)) ts).2 hus
  exact ⟨catalog, p, q, hbuild, hp, hq, of_decide_eq_true hlength, hts, hus,
    (hgroups ts ts hts hus).2 (of_decide_eq_true hsort) rfl⟩

/-- With two filters on the way, the strategies do not agree: the open ticket of the team has no public
note, and its done ticket has two. A flat plan drops the team, whatever its join style. -/
theorem strategies_differ_helpDesk :
    let m : Model := .perTeam "Team" ["NOTE_ID"]
      [⟨"NOTE_KIND", .equals, [.string "public"]⟩, ⟨"TICKET_STATE", .equals, [.string "open"]⟩]
    m.joinStyle = .outer ∧ (∀ a ∈ m.aggregations, IsCount a.function) ∧
    ∃ catalog p q, Catalog.build Catalog.helpDesk = .ok catalog ∧ catalog.DistinctAliases ∧
      compile catalog { m with strategy := .flat } .unrestricted [] = .ok p ∧
      compile catalog { m with strategy := .partitioned } .unrestricted [] = .ok q ∧
      (∀ j ∈ allJoins q, helpDesk.Keyed j.step) ∧
      evaluate helpDesk .builtin p = .ok [] ∧
      evaluate helpDesk .builtin q = .ok [[.string "red", .ofNat 0]] := by
  intro m
  refine ⟨rfl, by decide, ?_⟩
  let sorted (c : Checked) : Bool := c.filters.Pairwise fun f g => (compare f.entity g.entity).isLE
  obtain ⟨catalog, hbuild, h⟩ : ∃ catalog, Catalog.build Catalog.helpDesk = .ok catalog ∧
      (decide catalog.DistinctAliases &&
        ((check catalog { m with strategy := .flat }).toOption.all sorted &&
          (check catalog { m with strategy := .partitioned }).toOption.all sorted) &&
        (compileSorted catalog { m with strategy := .flat } .unrestricted []).toOption.any fun p =>
          (compileSorted catalog { m with strategy := .partitioned } .unrestricted []).toOption.any fun q =>
            decide (∀ j ∈ allJoins q, helpDesk.Keyed j.step) &&
              (Run.gives ⟨helpDesk, .builtin, p⟩ [] &&
                Run.gives ⟨helpDesk, .builtin, q⟩ [[.string "red", .ofNat 0]])) :=
    Outcome.exists_of_any (by decide +kernel)
  obtain ⟨h, hplans⟩ := Bool.and_eq_true_iff.1 h
  obtain ⟨ha, hsorted⟩ := Bool.and_eq_true_iff.1 h
  obtain ⟨hsorted, hsorted'⟩ := Bool.and_eq_true_iff.1 hsorted
  obtain ⟨p, hp, h⟩ := Outcome.exists_of_any hplans
  obtain ⟨q, hq, h⟩ := Outcome.exists_of_any h
  obtain ⟨hk, h⟩ := Bool.and_eq_true_iff.1 h
  obtain ⟨hflat, hpartitioned⟩ := Bool.and_eq_true_iff.1 h
  exact ⟨catalog, p, q, hbuild, of_decide_eq_true ha, (compile_eq_compileSorted hsorted _ _).trans hp,
    (compile_eq_compileSorted hsorted' _ _).trans hq, of_decide_eq_true hk, evaluate_of_gives hflat,
    evaluate_of_gives hpartitioned⟩

end Tabulation.Evaluation
