import Tabulation.Proofs.Evaluation.Success
import Tabulation.Proofs.Plan.ActiveFilters

/-! Evaluating plans that differ at most in the order and number of their predicates. The same root rows
count, each with the same rows, so either both evaluations fail or they give the same tuples in the same
order. -/
namespace Tabulation.Evaluation
open Plan (Predicate SemiJoin SubExpression)
open Query (Model Filter)

lemma forall_mem_iff_of_forall₂ {α β : Type} {R : α → β → Prop} {P : α → Prop} {Q : β → Prop}
    (hPQ : ∀ x y, R x y → (P x ↔ Q y)) {xs : List α} {ys : List β} (h : List.Forall₂ R xs ys) :
    (∀ x ∈ xs, P x) ↔ ∀ y ∈ ys, Q y := by
  induction h with
  | nil => simp
  | cons hr _ ih => rw [List.forall_mem_cons, List.forall_mem_cons, hPQ _ _ hr, ih]

lemma map_eq_of_forall₂ {α γ : Type} {R : α → α → Prop} {f : α → γ} (hf : ∀ x y, R x y → f y = f x)
    {xs ys : List α} (h : List.Forall₂ R xs ys) : ys.map f = xs.map f := by
  induction h with
  | nil => rfl
  | cons hr _ ih => rw [List.map_cons, List.map_cons, hf _ _ hr, ih]

lemma satisfies_congr {qs qs' : List Predicate} (h : SameMembers qs qs') (specials : Specials) :
    satisfies specials qs' = satisfies specials qs := by
  funext b
  exact (h.all_eq _).symm

section

variable {p p' : Plan} (h : p.Alike p') (tables : Tables) (specials : Specials)
include h

lemma rowsAlong_of_alike {joins joins' : List Plan.Join} {qs qs' : List Predicate}
    (hjoins : joins' = joins) (hqs : SameMembers qs qs') :
    Run.rowsAlong ⟨tables, specials, p'⟩ joins' qs' = Run.rowsAlong ⟨tables, specials, p⟩ joins qs := by
  funext root
  simp only [Run.rowsAlong, h.rootAlias, hjoins, satisfies_congr hqs]

lemma mainRows_of_alike : Run.mainRows ⟨tables, specials, p'⟩ = Run.mainRows ⟨tables, specials, p⟩ := by
  funext root
  simp only [Run.mainRows, rowsAlong_of_alike h tables specials h.joins h.predicates]

lemma subRows_of_alike {s s' : SubExpression} (hs : s.Alike s') :
    Run.subRows ⟨tables, specials, p'⟩ s' = Run.subRows ⟨tables, specials, p⟩ s := by
  funext root
  simp only [Run.subRows, rowsAlong_of_alike h tables specials hs.joins hs.predicates]

lemma admits_of_alike : Run.admits ⟨tables, specials, p'⟩ = Run.admits ⟨tables, specials, p⟩ := by
  funext root
  have hsemi : (p'.semiJoins.all fun s =>
        !(Run.rowsAlong ⟨tables, specials, p'⟩ s.joins s.predicates root).isEmpty) =
      p.semiJoins.all fun s =>
        !(Run.rowsAlong ⟨tables, specials, p⟩ s.joins s.predicates root).isEmpty := by
    rw [Bool.eq_iff_iff, List.all_eq_true, List.all_eq_true]
    refine (forall_mem_iff_of_forall₂ (fun s s' hs => ?_) h.semiJoins).symm
    rw [rowsAlong_of_alike h tables specials hs.joins hs.predicates]
  have hbranch : Run.inBranch ⟨tables, specials, p'⟩ root = Run.inBranch ⟨tables, specials, p⟩ root := by
    funext branch
    simp only [Run.inBranch, h.rootAlias]
  simp only [Run.admits, h.scope, hbranch, hsemi]

lemma prepares_of_alike : Run.Prepares ⟨tables, specials, p'⟩ ↔ Run.Prepares ⟨tables, specials, p⟩ := by
  have hsame : ∀ qs qs' : List Predicate, SameMembers qs qs' →
      ((∀ q ∈ qs, ∃ c, Condition.prepare specials q = .ok c) ↔
        ∀ q ∈ qs', ∃ c, Condition.prepare specials q = .ok c) :=
    fun qs qs' hqs => forall_congr' fun q => imp_congr_left (hqs q)
  have hmain := hsame _ _ h.predicates
  have hsemi := forall_mem_iff_of_forall₂ (fun s s' hs => hsame _ _ hs.predicates) h.semiJoins
  have hsubs := forall_mem_iff_of_forall₂ (fun s s' hs => hsame _ _ hs.predicates) h.subExpressions
  exact ⟨fun hp => ⟨hmain.2 hp.main, hsemi.2 hp.semiJoins, hsubs.2 hp.subExpressions⟩,
    fun hp => ⟨hmain.1 hp.main, hsemi.1 hp.semiJoins, hsubs.1 hp.subExpressions⟩⟩

section

variable {tables specials} {r r' : Ready} (hr : r.Of ⟨tables, specials, p⟩)
  (hr' : r'.Of ⟨tables, specials, p'⟩)
include hr hr'

/-- Every root row shares the same, or fails in the same way. -/
theorem shares_of_alike : r'.shares = r.shares := by
  have hready : List.Forall₂ (fun s s' : ReadySub => s.sub.Alike s'.sub) r.subExpressions
      r'.subExpressions := by
    have hsubs := h.subExpressions
    rw [← show _ = p.subExpressions from hr.map_sub, ← show _ = p'.subExpressions from hr'.map_sub,
      List.forall₂_map_left_iff, List.forall₂_map_right_iff] at hsubs
    exact hsubs
  funext root
  refine hr.shares_congr hr' h.groupKeys h.localAggregates (congrFun (admits_of_alike h tables specials) root)
    (congrFun (mainRows_of_alike h tables specials) root) ?_
  refine List.forall₂_iff_get.2 ⟨hready.length_eq, fun i hi hi' => ?_⟩
  have hs := hready.get hi hi'
  rw [hr'.partials_eq (List.get_mem _ _), hr.partials_eq (List.get_mem _ _),
    subRows_of_alike h tables specials hs, hs.joinKind, hs.aggregates]

end

lemma tuples_of_alike : tuples p' = tuples p :=
  tuples_congr h.groupKeys h.localAggregates
    (map_eq_of_forall₂ (fun _ _ hs => hs.aggregates) h.subExpressions) h.outputs

/-- Alike plans fail to be evaluated or give the same tuples in the same order. -/
theorem evaluate_of_alike :
    (∃ fault fault', evaluate tables specials p = .error fault ∧
        evaluate tables specials p' = .error fault') ∨
      ∃ ts, evaluate tables specials p = .ok ts ∧ evaluate tables specials p' = .ok ts := by
  by_cases hprepares : Run.Prepares ⟨tables, specials, p⟩
  · obtain ⟨r, hr⟩ := exists_ready_iff.2 hprepares
    obtain ⟨r', hr'⟩ := exists_ready_iff.2 ((prepares_of_alike h tables specials).2 hprepares)
    have hsame : evaluate tables specials p' = evaluate tables specials p := by
      have hready := ofPlan_eq_ok.2 hr
      have hready' := ofPlan_eq_ok.2 hr'
      simp only at hready hready'
      unfold evaluate
      rw [hready, hready', h.root]
      simp only [bind, Except.bind, Plan.sortKeys, h.ordering, h.orderColumns, tuples_of_alike h,
        shares_of_alike h hr hr']
    rw [hsame]
    cases evaluate tables specials p with
    | error fault => exact .inl ⟨fault, fault, rfl, rfl⟩
    | ok ts => exact .inr ⟨ts, rfl, rfl⟩
  · have hfails : ∀ q : Plan, ¬ Run.Prepares ⟨tables, specials, q⟩ →
        ∃ fault, evaluate tables specials q = .error fault := by
      intro q hq
      cases he : evaluate tables specials q with
      | error fault => exact ⟨fault, rfl⟩
      | ok ts =>
        obtain ⟨hready, -, -⟩ := evaluate_eq_ok (x := ⟨tables, specials, q⟩) he
        exact absurd (exists_ready_iff.1 hready) hq
    obtain ⟨fault, hfault⟩ := hfails p hprepares
    obtain ⟨fault', hfault'⟩ := hfails p' fun hp => hprepares ((prepares_of_alike h tables specials).1 hp)
    exact .inl ⟨fault, fault', hfault, hfault'⟩

end

/-- Of its filters, nothing matters for a query but the set of those that are active. With the same list
of them the plan is the same, and with the same set the plans fail to be evaluated on the same tables and
give the same tuples in the same order on all others. -/
theorem only_active_filters_matter {catalog : Catalog} {m : Model} {fs : List Filter}
    {scope : Scope.Resolved} {sort : Sorting.Criteria} {p p' : Plan}
    (hp : Plan.compile catalog m scope sort = .ok p)
    (hp' : Plan.compile catalog (m.withFilters fs) scope sort = .ok p') :
    (m.activeFilters = (m.withFilters fs).activeFilters → p = p') ∧
    ((∀ f, f ∈ m.activeFilters ↔ f ∈ (m.withFilters fs).activeFilters) →
      ∀ tables specials,
        (∃ fault fault', evaluate tables specials p = .error fault ∧
          evaluate tables specials p' = .error fault') ∨
        ∃ ts, evaluate tables specials p = .ok ts ∧ evaluate tables specials p' = .ok ts) :=
  ⟨fun h => (Plan.compile_eq_of_activeFilters hp hp' h).symm,
    fun h tables specials => evaluate_of_alike (Plan.alike_of_activeFilters hp hp' h) tables specials⟩

/-- Filters on the notes and the state of tickets, with one that is switched off, and then in another
order and some of them twice. -/
theorem only_active_filters_matter_helpDesk :
    let kind : Filter := ⟨"NOTE_KIND", .equals, [.string "public"]⟩
    let other : Filter := ⟨"NOTE_KIND", .notEquals, [.string "private"]⟩
    let off : Filter := ⟨"NOTE_KIND", .equals, []⟩
    let state : Filter := ⟨"TICKET_STATE", .equals, [.string "done"]⟩
    let m : Model := .perTeam "Ticket" ["NOTE_ID"] [kind, other, state]
    let ts : List Tuple := [[.string "red", .ofNat 2]]
    ∃ catalog p p' q, Catalog.build Catalog.helpDesk = .ok catalog ∧
      Plan.compile catalog m .unrestricted [] = .ok p ∧
      Plan.compile catalog (m.withFilters [kind, off, other, state, off]) .unrestricted [] = .ok p' ∧
      Plan.compile catalog (m.withFilters [other, kind, other, state, state]) .unrestricted [] = .ok q ∧
      p = p' ∧ p ≠ q ∧ evaluate helpDesk .builtin p = .ok ts ∧ evaluate helpDesk .builtin q = .ok ts := by
  intro kind other off state m ts
  let sorted (m : Model) (catalog : Catalog) : Bool := (Plan.check catalog m).toOption.all fun c =>
    c.filters.Pairwise fun f g => (compare f.entity g.entity).isLE
  let more := m.withFilters [kind, off, other, state, off]
  let mixed := m.withFilters [other, kind, other, state, state]
  obtain ⟨catalog, hbuild, h⟩ : ∃ catalog, Catalog.build Catalog.helpDesk = .ok catalog ∧
      (sorted m catalog && sorted more catalog && sorted mixed catalog &&
        (Plan.compileSorted catalog m .unrestricted []).toOption.any fun p =>
          Run.gives ⟨helpDesk, .builtin, p⟩ ts &&
            (((Plan.compileSorted catalog more .unrestricted []).toOption.any fun _ => true) &&
              (Plan.compileSorted catalog mixed .unrestricted []).toOption.any fun q => decide (p ≠ q))) :=
    Outcome.exists_of_any (by decide +kernel)
  obtain ⟨h, hplans⟩ := Bool.and_eq_true_iff.1 h
  obtain ⟨h, hmixed⟩ := Bool.and_eq_true_iff.1 h
  obtain ⟨hm, hmore⟩ := Bool.and_eq_true_iff.1 h
  obtain ⟨p, hp, h⟩ := Outcome.exists_of_any hplans
  obtain ⟨hgives, h⟩ := Bool.and_eq_true_iff.1 h
  obtain ⟨h', h⟩ := Bool.and_eq_true_iff.1 h
  obtain ⟨p', hp', -⟩ := Outcome.exists_of_any h'
  obtain ⟨q, hq, hne⟩ := Outcome.exists_of_any h
  have hp := (Plan.compile_eq_compileSorted hm _ _).trans hp
  have hp' := (Plan.compile_eq_compileSorted hmore _ _).trans hp'
  have hq := (Plan.compile_eq_compileSorted hmixed _ _).trans hq
  have hts := evaluate_of_gives hgives
  have hmembers : ∀ f, f ∈ m.activeFilters ↔ f ∈ mixed.activeFilters := fun f => by
    change f ∈ [kind, other, state] ↔ f ∈ [other, kind, other, state, state]
    simp only [List.mem_cons, List.not_mem_nil, or_false]
    tauto
  have hus : evaluate helpDesk .builtin q = .ok ts := by
    rcases (only_active_filters_matter hp hq).2 hmembers helpDesk .builtin with
      ⟨fault, -, hfault, -⟩ | ⟨us, hus, hus'⟩
    · rw [hts] at hfault
      cases hfault
    · rwa [← Except.ok.inj (hus.symm.trans hts)]
  exact ⟨catalog, p, p', q, hbuild, hp, hp', hq, (only_active_filters_matter hp hp').1 rfl,
    of_decide_eq_true hne, hts, hus⟩

end Tabulation.Evaluation
