import Tabulation.Proofs.Evaluation.Rows
import Tabulation.Proofs.Evaluation.Success
import Tabulation.Proofs.Plan.Addition

/-! Measures side by side. One aggregation more adds its own column to an outer result and leaves the
cells of the others as they are, unless it lies further along their own path and filters apply
there. -/
namespace Tabulation.Evaluation
open Catalog (FanOutKey)
open Query (Model Aggregation)
open Plan

lemma sortKeys_of_unordered {catalog : Catalog} {m : Model} {c : Checked} {l : Layout}
    {scope : Scope.Resolved} {os : List (Nat × Sorting.SortOrder)} (hc : Checked.Of catalog m c)
    (ho : m.orderings = []) (hos : orders c c.outputs [] = .ok os) :
    (l.plan catalog c scope os).sortKeys = [] := by
  have horderings : c.orderings = [] := by
    have hall := Outcome.mapM_eq_ok.1 hc.orderings
    rwa [ho, List.forall₂_nil_left_iff] at hall
  have hnil : os = [] := by
    unfold orders at hos
    rw [horderings] at hos
    cases hos
    rfl
  rw [hnil]
  simp [Plan.sortKeys, Layout.plan]

section

variable {catalog : Catalog} {m : Model} {a : Aggregation} {c c' : Checked} {l l' : Layout}
  {placed : List (Placed Aggregation)} {new : Placed Aggregation} {scope : Scope.Resolved}
  {os os' : List (Nat × Sorting.SortOrder)} {tables : Tables}

/-- One aggregation more leaves the rows on which the groups depend as they are. -/
theorem alike_of_grows (hc : catalog.WellFormed) (ha : catalog.DistinctAliases)
    (h : l.Sound catalog) (h' : l'.Sound catalog) (hg : l.Grows catalog m a l' placed new)
    (hflat : c.strategy = .partitioned) (hflat' : c'.strategy = .partitioned)
    (specials : Specials)
    (hleft : ∀ s ∈ (l.plan catalog c scope os).subExpressions, s.joinKind = .left)
    (hleft' : ∀ s ∈ (l'.plan catalog c' scope os').subExpressions, s.joinKind = .left)
    (hk : ∀ j ∈ allJoins (l'.plan catalog c' scope os'), tables.Keyed j.step) :
    Run.Alike (boundBy l.root.aliasName l.mainSteps)
      ⟨tables, specials, l.plan catalog c scope os⟩
      ⟨tables, specials, l'.plan catalog c' scope os'⟩ := by
  obtain ⟨hjoins, hpredicates, -, -⟩ := l.plan_of_partitioned hflat catalog scope os
  obtain ⟨hjoins', hpredicates', -, -⟩ := l'.plan_of_partitioned hflat' catalog scope os'
  obtain ⟨hmain, -⟩ := h.main_joins hc ha
  obtain ⟨hmain', hrooted'⟩ := h'.main_joins hc ha
  obtain ⟨later, hlater, hfree⟩ := hg.mainSteps
  refine ⟨fun root => ?_, ?_, fun k hk => ?_, fun root => ?_⟩
  · rw [Run.counts_eq_admits hleft', Run.counts_eq_admits hleft]
    apply Run.admits_congr <;> simp only [Layout.plan, hg.root, hg.fanned]
  · simp only [Layout.plan, hg.projections]
  · exact h.bound_of_groupKey hc hk
  · have hkeyed := keyed_of_joins (fun j hj => hk j (joins_subset_allJoins _ hj)) (hjoins'.trans hmain')
    rw [hlater] at hkeyed hmain' hrooted'
    simp only [Run.mainRows, Run.rowsAlong, hjoins, hjoins', hpredicates, hpredicates', hmain,
      hmain', hg.neededSteps]
    have hsame : l'.main.2 = l.main.2 := by simp only [Layout.main, hg.direct]
    have hrootAlias : (l'.plan catalog c' scope os').rootAlias = l.root.aliasName := by
      simp only [Layout.plan, hg.root]
    rw [hsame, hrootAlias]
    rw [hg.root] at hrooted'
    refine forall₂_filter_satisfies ?_ specials fun q hq => h.bound_of_predicate hc hq
    refine (hrooted'.chained hc ha).reach_append (fun s => s ∈ l.neededSteps)
      (fun s hs => hkeyed s (List.mem_append_right _ hs)) (fun s hs => ?_)
      (fun s hs => by simpa using hfree s hs) root
    exact h'.mainSteps_direct (hlater ▸ List.mem_append_right _ hs)

/-- Without filters on them, the rows of a sub-expression stay as they are if it takes further steps
that do not fan out. -/
lemma subRows_of_unfiltered (hc : catalog.WellFormed) (ha : catalog.DistinctAliases)
    (h : l.Sound catalog) (h' : l'.Sound catalog) (hroot : l'.root = l.root)
    (hfanned : l.fanned = []) (hfanned' : l'.fanned = []) {key : FanOutKey} {part : Partition}
    {x : Nat × Placed Aggregation} (he : (key, part) ∈ l.far) (he' : (key, part ++ [x]) ∈ l'.far)
    (style : Query.JoinStyle) (offset : Nat) (specials : Specials)
    (hk : ∀ j ∈ (subExpression style l'.fanned offset key (part ++ [x])).joins,
      tables.Keyed j.step) (root : Row) :
    let rows (joins : List Join) (predicates : List Predicate) :=
      (tables.reach l.root.aliasName joins root).filter (satisfies specials predicates)
    let s := subExpression style l.fanned offset key part
    let s' := subExpression style l'.fanned offset key (part ++ [x])
    List.Forall₂ (Binding.Agree (boundBy l.root.aliasName (Layout.partSteps part)))
      (rows s.joins s.predicates) (rows s'.joins s'.predicates) := by
  intro rows s s'
  have hmem := (List.mem_filter.1 he).1
  have hmem' := (List.mem_filter.1 he').1
  obtain ⟨-, hjoins, hpredicates, -⟩ := h.subExpression_joins hc ha hmem style offset
  obtain ⟨-, hjoins', hpredicates', hrooted'⟩ := h'.subExpression_joins hc ha hmem' style offset
  obtain ⟨later, hlater, hdirect, -⟩ := partSteps_append hc h' (h.part _ hmem).1 hmem'
  have hkeyed := keyed_of_joins hk hjoins'
  -- there are no filters, so a sub-expression joins along its steps as they are
  have hnone : l.fannedOn (Layout.partSteps part) = [] := by rw [Layout.fannedOn, hfanned]; rfl
  have hnone' : l'.fannedOn (Layout.partSteps (part ++ [x])) = [] := by
    rw [Layout.fannedOn, hfanned']
    rfl
  simp only [hnone, List.any_nil, Bool.or_false, List.flatMap_nil] at hjoins hpredicates
  simp only [hnone', List.any_nil, Bool.or_false, List.flatMap_nil] at hjoins' hpredicates'
  simp only [rows, s, s', hjoins, hjoins', hpredicates, hpredicates']
  rw [hlater] at hkeyed hrooted' ⊢
  rw [hroot] at hrooted'
  refine forall₂_filter_satisfies ?_ specials (by simp)
  exact (hrooted'.chained hc ha).reach_append (·.fansOut)
    (fun t ht => hkeyed t (List.mem_append_right _ ht)) hdirect hdirect root

lemma mem_aggregates {part : Partition} {offset i : Nat} {x : Placed Aggregation} (h : (i, x) ∈ part) :
    (⟨offset + i, x.use.function, .ofColumn x.column⟩ : Aggregate) ∈ aggregates offset part :=
  List.mem_map.2 ⟨(i, x), h, rfl⟩

/-- Aggregations that do not fan out are aggregated over the main rows of both plans. -/
lemma seenAlike_of_near (hc : catalog.WellFormed) (h : l.Sound catalog)
    (hg : l.Grows catalog m a l' placed new) (hflat : c.strategy = .partitioned)
    (hflat' : c'.strategy = .partitioned) (specials : Specials) {i : Nat} {x : Placed Aggregation}
    (hx : placed[i]? = some x) (hroot : x.key.isRoot) :
    Run.SeenAlike (boundBy l.root.aliasName l.mainSteps)
      ⟨tables, specials, l.plan catalog c scope os⟩ ⟨tables, specials, l'.plan catalog c' scope os'⟩
      ⟨l.projections.length + i, x.use.function, .ofColumn x.column⟩ := by
  obtain ⟨-, -, hlocal, -⟩ := l.plan_of_partitioned hflat catalog scope os
  obtain ⟨-, -, hlocal', -⟩ := l'.plan_of_partitioned hflat' catalog scope os'
  have hnear : (i, x) ∈ l.near := by
    rw [hg.near_eq]
    exact mem_placesOf.2 ⟨FanOutKey.isRoot_iff.1 hroot, hx⟩
  obtain ⟨more, hmore⟩ := hg.near_append
  refine .inl ⟨?_, ?_, ?_⟩
  · rw [hlocal]
    exact mem_aggregates hnear
  · rw [hlocal', hmore, hg.projections]
    exact mem_aggregates (List.mem_append_left _ hnear)
  · refine mem_boundBy_of_path hc (h.near_path hnear).1 fun s hs => ?_
    exact mem_extendAll.2 (.inr ⟨x.path, by simpa using .inr (.inr ⟨i, x, hnear, rfl⟩), hs⟩)

/-- Aggregations that fan out are aggregated in a sub-expression of both plans. If the new one is
entered there, too, it is a matter of filters whether the rows stay. -/
lemma seenAlike_of_far (hc : catalog.WellFormed) (ha : catalog.DistinctAliases)
    (h : l.Sound catalog) (h' : l'.Sound catalog) (hg : l.Grows catalog m a l' placed new)
    (hflat : c.strategy = .partitioned) (hflat' : c'.strategy = .partitioned)
    (hstyle : c'.joinStyle = c.joinStyle) (specials : Specials)
    (hk : ∀ j ∈ allJoins (l'.plan catalog c' scope os'), tables.Keyed j.step) {i : Nat}
    {x : Placed Aggregation} (hx : placed[i]? = some x) (hroot : ¬ x.key.isRoot)
    (hcase : new.key ≠ x.key ∨ l.fanned = []) :
    Run.SeenAlike (boundBy l.root.aliasName l.mainSteps)
      ⟨tables, specials, l.plan catalog c scope os⟩ ⟨tables, specials, l'.plan catalog c' scope os'⟩
      ⟨l.projections.length + i, x.use.function, .ofColumn x.column⟩ := by
  obtain ⟨-, -, -, hsubs⟩ := l.plan_of_partitioned hflat catalog scope os
  obtain ⟨-, -, -, hsubs'⟩ := l'.plan_of_partitioned hflat' catalog scope os'
  rw [hg.projections] at hsubs'
  obtain ⟨part, part', hfar, hfar', hpart, hgrown⟩ := hg.exists_part hx hroot
  have hsub : subExpression c.joinStyle l.fanned l.projections.length x.key part ∈
      (l.plan catalog c scope os).subExpressions := hsubs ▸ List.mem_map.2 ⟨_, hfar, rfl⟩
  have hsub' : subExpression c'.joinStyle l'.fanned l.projections.length x.key part' ∈
      (l'.plan catalog c' scope os').subExpressions := hsubs' ▸ List.mem_map.2 ⟨_, hfar', rfl⟩
  have hrootAlias : (l'.plan catalog c' scope os').rootAlias = l.root.aliasName := by
    simp only [Layout.plan, hg.root]
  by_cases hkey : new.key = x.key
  · have hfanned := hcase.resolve_left fun hne => hne hkey
    rw [if_pos hkey] at hgrown
    subst hgrown
    refine .inr ⟨_, hsub, _, hsub', mem_aggregates hpart,
      mem_aggregates (List.mem_append_left _ hpart), fun root => ?_⟩
    have hrows := subRows_of_unfiltered hc ha h h' hg.root hfanned (hg.fanned.trans hfanned) hfar hfar'
      c'.joinStyle l.projections.length specials
      (fun j hj => hk j (subJoins_subset_allJoins hsub' hj)) root
    have halias := h.bound_of_part hc (List.mem_filter.1 hfar).1 hpart
    have hvalues := valuesOf_eq
      (a := ⟨l.projections.length + i, x.use.function, .ofColumn x.column⟩) hrows halias
    simp only [Run.subRows, Run.rowsAlong, hrootAlias]
    rw [hstyle] at hvalues ⊢
    exact hvalues
  · rw [if_neg hkey] at hgrown
    subst hgrown
    refine .inr ⟨_, hsub, _, hsub', mem_aggregates hpart, mem_aggregates hpart, fun root => ?_⟩
    have hsame : (l.plan catalog c scope os).rootAlias = l.root.aliasName := rfl
    simp only [Run.subRows, Run.rowsAlong, hstyle, hg.fanned, hrootAlias, hsame]

end

lemma forall₂_getElem? {α β : Type} {R : α → β → Prop} {xs : List α} {ys : List β}
    (h : List.Forall₂ R xs ys) {i : Nat} {x : α} (hx : xs[i]? = some x) :
    ∃ y, ys[i]? = some y ∧ R x y := by
  obtain ⟨hi, rfl⟩ := List.getElem?_eq_some_iff.1 hx
  have hi' : i < ys.length := h.length_eq ▸ hi
  exact ⟨ys[i], List.getElem?_eq_getElem hi', h.get hi hi'⟩

/-- An aggregation more changes nothing in an outer result without orderings but for its own column:
tuples, their order and their projections stay, and so do the cells of all aggregations that do not
fan out or do so in another way than the new one. If no filter is on a column that fans out, every
cell stays. -/
theorem added_measure_keeps_others {declarations : Catalog.Declarations} {catalog : Catalog}
    {m : Model} {a : Aggregation} {scope : Scope.Resolved} {p p' : Plan} {tables : Tables}
    {specials : Specials} {ts ts' : List Tuple}
    (hbuild : Catalog.build declarations = .ok catalog) (ha : catalog.DistinctAliases)
    (hm : m.strategy = .partitioned) (hs : m.joinStyle = .outer) (ho : m.orderings = [])
    (hr : m.root.isSome ∨ m.projections ≠ []) (hp : compile catalog m scope [] = .ok p)
    (hp' : compile catalog (m.add a) scope [] = .ok p')
    (hk : ∀ j ∈ allJoins p', tables.Keyed j.step) (he : evaluate tables specials p = .ok ts)
    (he' : evaluate tables specials p' = .ok ts') :
    List.Forall₂
      (fun t t' =>
        (∀ i < m.projections.length, ∃ v, t[i]? = some v ∧ t'[i]? = some v) ∧
        ∀ (i : Nat) b, m.aggregations[i]? = some b →
          (catalog.labelKey? p.root b.label = some ⟨[]⟩ ∨
            catalog.labelKey? p.root b.label ≠ catalog.labelKey? p.root a.label ∨
            ∀ f ∈ m.filters, f.isActive → catalog.labelKey? p.root f.label = some ⟨[]⟩) →
          ∃ v, t[m.projections.length + i]? = some v ∧ t'[m.projections.length + i]? = some v)
      ts ts' := by
  have hc := Catalog.wellFormed_build hbuild
  have hfilled := filled_perm hp
  have hfilled' := filled_perm hp'
  have hleft := joinKind_of_outer hp hs
  have hleft' := joinKind_of_outer hp' hs
  obtain ⟨c, l, os, hcheck, hl, h, hos, rfl⟩ := exists_layout hc hp
  obtain ⟨c', l', os', hcheck', hl', h', hos', rfl⟩ := exists_layout hc hp'
  obtain ⟨placed, new, hg⟩ := hl.grows hcheck hcheck' hl' hr
  obtain ⟨-, -, -, -, hstyle, -, -, -⟩ := hcheck.add hcheck'
  have hflat := hcheck.strategy.trans hm
  have hflat' := hcheck'.strategy.trans hm
  have halike := alike_of_grows hc ha h h' hg hflat hflat' specials hleft hleft' hk
  have hlength : l.projections.length = m.projections.length :=
    hl.length_projections.trans (Outcome.mapM_eq_ok.1 hcheck.projections).length_eq.symm
  let x : Run := ⟨tables, specials, l.plan catalog c scope os⟩
  let y : Run := ⟨tables, specials, l'.plan catalog c' scope os'⟩
  obtain ⟨-, -, hts⟩ := evaluate_eq_ok (x := x) he
  obtain ⟨-, -, hts'⟩ := evaluate_eq_ok (x := y) he'
  rw [show x.plan.sortKeys = [] from sortKeys_of_unordered hcheck ho hos, sort_nil] at hts
  rw [show y.plan.sortKeys = [] from sortKeys_of_unordered hcheck' ho hos', sort_nil] at hts'
  have hroots : y.roots = x.roots := by simp only [x, y, Run.roots, Layout.plan, hg.root]
  rw [hts, hts', hroots]
  refine halike.result (fun roots text b b' hb => ⟨fun i hi => ?_, fun i b hb hcase => ?_⟩) x.roots
  · rw [← hlength] at hi
    have hkey : (⟨i, .ofColumn l.projections[i].column, l.projections[i].use.bucket⟩ : GroupKey) ∈
        x.plan.groupKeys :=
      List.mem_map.2 ⟨(l.projections[i], i), List.mem_zipIdx_iff_getElem?.2 (by simp), rfl⟩
    exact halike.getElem?_groupKey hfilled hfilled' hkey hb roots text
  · obtain ⟨z, hz, hkey⟩ := forall₂_getElem? hg.placed hb
    rw [← hlength]
    have hcases : z.key.isRoot ∨ new.key ≠ z.key ∨ l.fanned = [] := by
      have hroot : (l.plan catalog c scope os).root = l.root := rfl
      rw [hroot, hkey, hg.new] at hcase
      rcases hcase with hcase | hcase | hcase
      · exact .inl (FanOutKey.isRoot_iff.2 (Option.some.inj hcase))
      · exact .inr (.inl fun e => hcase (congrArg some e.symm))
      · exact .inr (.inr (fanned_eq_nil hcheck hl hcase))
    have hseen : Run.SeenAlike (boundBy l.root.aliasName l.mainSteps) x y
        ⟨l.projections.length + i, z.use.function, .ofColumn z.column⟩ := by
      by_cases hroot : z.key.isRoot
      · exact seenAlike_of_near hc h hg hflat hflat' specials hz hroot
      · exact seenAlike_of_far hc ha h h' hg hflat hflat' hstyle specials hk hz hroot
          (hcases.resolve_left hroot)
    exact halike.getElem?_aggregate hfilled hfilled' hseen roots text _ _

/-- Counting the notes of tickets beside the tickets themselves. -/
theorem added_measure_keeps_others_helpDesk :
    let m : Model := .perTeam "Ticket" ["TICKET_ID"] [⟨"NOTE_KIND", .equals, [.string "public"]⟩]
    let a : Aggregation := ⟨"NOTE_ID", .count⟩
    let ts : List Tuple := [[.string "red", .ofNat 1]]
    let ts' : List Tuple := [[.string "red", .ofNat 1, .ofNat 2]]
    ∃ catalog p p', Catalog.build Catalog.helpDesk = .ok catalog ∧
      compile catalog m .unrestricted [] = .ok p ∧
      compile catalog (m.add a) .unrestricted [] = .ok p' ∧
      evaluate helpDesk .builtin p = .ok ts ∧ evaluate helpDesk .builtin p' = .ok ts' ∧
      List.Forall₂ (fun t t' : Tuple => (∃ v, t[0]? = some v ∧ t'[0]? = some v) ∧
        ∃ v, t[1]? = some v ∧ t'[1]? = some v) ts ts' := by
  intro m a ts ts'
  obtain ⟨catalog, hbuild, h⟩ : ∃ catalog, Catalog.build Catalog.helpDesk = .ok catalog ∧
      (decide catalog.DistinctAliases && (compile catalog m .unrestricted []).toOption.any fun p =>
        Run.gives ⟨helpDesk, .builtin, p⟩ ts && catalog.labelKey? p.root "TICKET_ID" = some ⟨[]⟩ &&
          (compile catalog (m.add a) .unrestricted []).toOption.any fun p' =>
            Run.gives ⟨helpDesk, .builtin, p'⟩ ts' && decide (∀ j ∈ allJoins p', helpDesk.Keyed j.step)) :=
    Outcome.exists_of_any (by decide +kernel)
  obtain ⟨ha, h⟩ := Bool.and_eq_true_iff.1 h
  obtain ⟨p, hp, h⟩ := Outcome.exists_of_any h
  obtain ⟨h, h'⟩ := Bool.and_eq_true_iff.1 h
  obtain ⟨hgives, hkey⟩ := Bool.and_eq_true_iff.1 h
  obtain ⟨p', hp', h'⟩ := Outcome.exists_of_any h'
  obtain ⟨hgives', hk⟩ := Bool.and_eq_true_iff.1 h'
  have he := evaluate_of_gives hgives
  have he' := evaluate_of_gives hgives'
  refine ⟨catalog, p, p', hbuild, hp, hp', he, he', ?_⟩
  have hkeeps := added_measure_keeps_others hbuild (of_decide_eq_true ha) rfl rfl rfl (.inl rfl) hp hp'
    (of_decide_eq_true hk) he he'
  exact hkeeps.imp fun t t' ⟨hprojections, haggregates⟩ =>
    ⟨hprojections 0 (by decide), haggregates 0 ⟨"TICKET_ID", .count⟩ rfl (.inl (of_decide_eq_true hkey))⟩

end Tabulation.Evaluation
