import Tabulation.Proofs.Evaluation.Alike
import Tabulation.Proofs.Evaluation.Omission

/-! Root rows that the predicates exclude. They are joined, and their sub-expressions are computed, before
the predicates are tested. So a value that cannot be read under an excluded root row makes the whole
evaluation fail; other than that, excluded rows have no influence. -/
namespace Tabulation
open Plan (Join SubExpression)
open Query (Model)

namespace Evaluation
open Outcome

/-- A root row by itself satisfies the predicates of the main rows. -/
def Run.passesBase (x : Run) (root : Row) : Bool :=
  satisfies x.specials x.plan.predicates [(x.plan.rootAlias, root)]

/-- What sub-expressions aggregate for a root row can be read, up to the first one that drops it. -/
def Run.ReadsInOrder (x : Run) (root : Row) : List SubExpression → Prop
  | [] => True
  | s :: rest => x.ReadsSub root s ∧ (x.keeps root s → x.ReadsInOrder root rest)

instance (x : Run) (root : Row) : (subs : List SubExpression) → Decidable (x.ReadsInOrder root subs)
  | [] => .isTrue trivial
  | s :: rest =>
    have := instDecidableReadsInOrder x root rest
    inferInstanceAs (Decidable (x.ReadsSub root s ∧ (x.keeps root s → x.ReadsInOrder root rest)))

/-- What sub-expressions aggregate can be read even for the root rows that the predicates exclude. -/
def Run.ReadsExcluded (x : Run) : Prop :=
  ∀ root ∈ x.roots, x.passesBase root = false → x.admits root →
    x.ReadsInOrder root x.plan.subExpressions

instance (x : Run) : Decidable x.ReadsExcluded :=
  inferInstanceAs (Decidable (∀ root ∈ x.roots, x.passesBase root = false → x.admits root →
    x.ReadsInOrder root x.plan.subExpressions))

section

variable {x : Run} {r : Ready} {root : Row}

/-- The root row stays bound where no join takes its alias. -/
lemma row?_of_mem_reach {tables : Tables} {rootAlias : String} {joins : List Join} {b : Binding}
    (h : ∀ j ∈ joins, j.aliasName ≠ rootAlias) (hb : b ∈ tables.reach rootAlias joins root) :
    b.row? rootAlias = some root := by
  unfold Tables.reach at hb
  induction joins using List.reverseRecOn generalizing b with
  | nil =>
    obtain rfl := List.mem_singleton.1 hb
    simp
  | append_singleton joins j ih =>
    rw [expand_append] at hb
    obtain ⟨c, hc, hbc⟩ := List.mem_flatMap.1 hb
    rw [row?_of_mem_joinOne hbc (h j (by simp)).symm]
    exact ih (fun k hk => h k (List.mem_append_left _ hk)) hc

/-- An excluded root row has no main rows. -/
lemma mainRows_of_not_passesBase (hroot : ∀ q ∈ x.plan.predicates, q.column.aliasName = x.plan.rootAlias)
    (halias : ∀ j ∈ x.plan.joins, j.aliasName ≠ x.plan.rootAlias) (h : x.passesBase root = false) :
    x.mainRows root = [] := by
  refine List.filter_eq_nil_iff.2 fun b hb => ?_
  have hagree : Binding.Agree [x.plan.rootAlias] b [(x.plan.rootAlias, root)] := by
    intro a ha
    rw [List.mem_singleton.1 ha, row?_of_mem_reach halias hb]
    simp
  rw [hagree.satisfies_eq x.specials fun q hq => by rw [hroot q hq]; exact List.mem_cons_self]
  simpa [Run.passesBase] using h

lemma readsSub_of_not_keeps {s : SubExpression} (h : x.keeps root s = false) : x.ReadsSub root s := by
  simp only [Run.keeps, decide_eq_false_iff_not, not_not, List.isEmpty_iff] at h
  intro a _ v hv
  simp [valuesOf, h.1] at hv

/-- The sub-expressions of a root row are computed if what they aggregate can be read. -/
theorem exists_allPartials_iff (h : r.Of x) {subs : List ReadySub} (hsubs : subs ⊆ r.subExpressions) :
    (∃ found, r.allPartials root subs = .ok found) ↔ x.ReadsInOrder root (subs.map (·.sub)) := by
  induction subs with
  | nil => exact iff_of_true ⟨_, rfl⟩ trivial
  | cons s subs ih =>
    obtain ⟨hs, hsubs⟩ := List.cons_subset.1 hsubs
    simp only [allPartials_cons_eq_ok, List.map_cons, Run.ReadsInOrder, ← ih hsubs]
    cases hkeeps : x.keeps root s.sub with
    | false =>
      have hnone := h.partials_of_not_keeps hs hkeeps
      exact iff_of_true ⟨none, .inl ⟨hnone, rfl⟩⟩ ⟨readsSub_of_not_keeps hkeeps, by simp⟩
    | true =>
      simp only [h.partials_of_keeps hs hkeeps]
      constructor
      · rintro ⟨found, ⟨⟨-, hnone⟩, -⟩ | ⟨accs, others, ⟨hread, -⟩, hothers, -⟩⟩
        · cases hnone
        · exact ⟨hread, fun _ => ⟨others, hothers⟩⟩
      · rintro ⟨hread, hrest⟩
        obtain ⟨others, hothers⟩ := hrest trivial
        exact ⟨_, .inr ⟨_, others, ⟨hread, rfl⟩, hothers, rfl⟩⟩

/-- A root row without main rows shares nothing, if its sub-expressions can be computed. -/
theorem shares_of_no_mainRows (h : r.Of x) (hmain : x.mainRows root = []) :
    r.shares root = .ok [] ↔ (x.admits root → x.ReadsInOrder root x.plan.subExpressions) := by
  rw [← h.map_sub, ← exists_allPartials_iff h (List.Subset.refl _)]
  unfold Ready.shares
  rw [h.admits]
  cases hadmits : x.admits root with
  | false => exact iff_of_true rfl (by simp)
  | true =>
    rw [if_neg (by simp)]
    cases hpartials : r.allPartials root r.subExpressions with
    | error e => simp [bind, Except.bind]
    | ok found =>
      refine iff_of_true ?_ fun _ => ⟨found, rfl⟩
      cases found with
      | none => rfl
      | some accs =>
        simp only [h.mainRows, hmain]
        rfl

/-- A root row with nothing to share makes an evaluation fail if its sub-expressions do. -/
lemma exists_fault (hmem : root ∈ x.roots) (hmain : x.mainRows root = [])
    (hadmits : x.admits root) (hreads : ¬ x.ReadsInOrder root x.plan.subExpressions) :
    ∃ fault, evaluate x.tables x.specials x.plan = .error fault := by
  cases he : evaluate x.tables x.specials x.plan with
  | error fault => exact ⟨fault, rfl⟩
  | ok ts =>
    obtain ⟨ready, hready, he⟩ := bind_eq_ok.1 he
    obtain ⟨shares, hshares, -⟩ := bind_eq_ok.1 he
    have hof := ofPlan_eq_ok.1 hready
    obtain ⟨ss, -, hss⟩ := exists_mem_of_mapM hshares hmem
    obtain ⟨rfl, -⟩ := hof.shares_eq_ok hss
    have hnil : x.rootShares root = [] := by
      unfold Run.rootShares
      rw [hmain]
      split_ifs <;> rfl
    rw [hnil] at hss
    exact absurd ((shares_of_no_mainRows hof hmain).1 hss hadmits) hreads

end

/-- The predicates of the main rows are those of filters, on the alias of the filtered entity type. -/
lemma aliasName_of_predicate {catalog : Catalog} {m : Model} {scope : Scope.Resolved}
    {sort : Sorting.Criteria} {p : Plan} (h : Plan.compile catalog m scope sort = .ok p)
    (hstrategy : m.strategy = .partitioned) {q : Plan.Predicate} (hq : q ∈ p.predicates) :
    q.column.aliasName = q.column.entity.aliasName := by
  obtain ⟨c, l, os, hcheck, -, -, rfl⟩ := Plan.layout_of_compile h
  have hmain := (l.plan_of_partitioned ((Plan.of_check hcheck).strategy.trans hstrategy) catalog scope
    os).2.1
  rw [hmain] at hq
  obtain ⟨f, -, rfl⟩ := List.mem_map.1 hq
  rfl

end Evaluation

/-- The help desk, with hours on the tickets. -/
def Catalog.helpDeskHours : Catalog.Declarations :=
  { Catalog.helpDesk with
    columns := { label := "TICKET_HOURS", entity := "Ticket", field := "hours", kind := .numeric } ::
      Catalog.helpDesk.columns }

/-- The hours of the red team. -/
def Query.Model.hoursOfRed : Model where
  root := some "Team"
  involved := ((Involved.add {} .axis "Team").add .measure "Ticket").add .filter "Team"
  projections := [⟨"TEAM_NAME", none⟩]
  aggregations := [⟨"TICKET_HOURS", .sum⟩]
  filters := [⟨"TEAM_NAME", .equals, [.string "red"]⟩]

namespace Evaluation

/-- A ticket of the red team with two hours, and one of the blue team. -/
def helpDeskHours (blue : Json.Value) : Tables :=
  .ofList [
    ("Team", [[("id", .string "r"), ("name", .string "red")],
      [("id", .string "b"), ("name", .string "blue")]]),
    ("Ticket", [[("id", .string "1"), ("team", .string "r"), ("hours", .ofNat 2)],
      [("id", .string "2"), ("team", .string "b"), ("hours", blue)]])]

/-- Root rows that the predicates exclude do not change what an evaluation gives, but they can make it
fail: it has the outcome that it has without them if what sub-expressions aggregate for them can be
read, and otherwise it fails. -/
theorem excluded_rows_only_fault {declarations : Catalog.Declarations} {catalog : Catalog}
    (built : Catalog.build declarations = .ok catalog) {m : Model} {scope : Scope.Resolved}
    {sort : Sorting.Criteria} {p : Plan} (compiled : Plan.compile catalog m scope sort = .ok p)
    (partitioned : m.strategy = .partitioned)
    (onRoot : ∀ q ∈ p.predicates, q.column.entity = p.root)
    (rootAlias : ∀ j ∈ p.joins, j.aliasName ≠ p.rootAlias) {tables : Tables} {specials : Specials}
    (prepares : Run.Prepares ⟨tables, specials, p⟩) :
    let x : Run := ⟨tables, specials, p⟩
    (x.ReadsExcluded →
      evaluate tables specials p = evaluate (tables.keep p.root x.passesBase) specials p) ∧
    (¬ x.ReadsExcluded → ∃ fault, evaluate tables specials p = .error fault) ∧
    ∀ ts, evaluate tables specials p = .ok ts →
      evaluate (tables.keep p.root x.passesBase) specials p = .ok ts := by
  intro x
  have hc := Catalog.wellFormed_build built
  have hroot : ∀ q ∈ p.predicates, q.column.aliasName = p.rootAlias := by
    intro q hq
    rw [aliasName_of_predicate compiled partitioned hq, onRoot q hq]
    obtain ⟨c, l, os, -, -, -, rfl⟩ := Plan.layout_of_compile compiled
    rfl
  have htarget : ∀ j ∈ allJoins p, j.step.target ≠ p.root := by
    obtain ⟨c, l, os, -, -, hs, -, rfl⟩ := Plan.exists_layout hc compiled
    exact hs.target_ne_root hc c scope os
  have hmain : ∀ root, x.passesBase root = false → x.mainRows root = [] := fun root =>
    mainRows_of_not_passesBase hroot rootAlias
  obtain ⟨r, hr⟩ := exists_ready_iff.2 prepares
  have hquiet : x.ReadsExcluded →
      evaluate tables specials p = evaluate (tables.keep p.root x.passesBase) specials p := by
    intro hreads
    obtain ⟨r', hr'⟩ := exists_ready_iff.2
      (⟨prepares.main, prepares.semiJoins, prepares.subExpressions⟩ :
        Run.Prepares ⟨tables.keep p.root x.passesBase, specials, p⟩)
    have hadmits : Run.admits ⟨tables.keep p.root x.passesBase, specials, p⟩ = x.admits :=
      Run.admits_of_rows specials fun j hj => by rw [rows_keep, if_neg (htarget j hj)]
    exact evaluate_keep_eq htarget hr hr' (fun root _ _ => congrFun hadmits root)
      fun root hmem hexcluded =>
        (shares_of_no_mainRows hr (hmain root hexcluded)).2 (hreads root hmem hexcluded)
  have hfails : ¬ x.ReadsExcluded → ∃ fault, evaluate tables specials p = .error fault := by
    intro hreads
    simp only [Run.ReadsExcluded, not_forall] at hreads
    obtain ⟨root, hmem, hexcluded, hadmits, hreads⟩ := hreads
    exact exists_fault hmem (hmain root hexcluded) hadmits hreads
  refine ⟨hquiet, hfails, fun ts hts => ?_⟩
  by_cases hreads : x.ReadsExcluded
  · exact (hquiet hreads).symm.trans hts
  · obtain ⟨fault, hfault⟩ := hfails hreads
    rw [hfault] at hts
    cases hts

/-- The hours of the blue team can be read, and the red team has its two hours with and without the blue
one. -/
theorem excluded_rows_only_fault_helpDesk :
    let tables := helpDeskHours (.ofNat 3)
    ∃ catalog p, Catalog.build Catalog.helpDeskHours = .ok catalog ∧
      Plan.compile catalog .hoursOfRed .unrestricted [] = .ok p ∧
      Run.passesBase ⟨tables, .builtin, p⟩ [("id", .string "b"), ("name", .string "blue")] = false ∧
      evaluate tables .builtin p = .ok [[.string "red", .ofNat 2]] ∧
      evaluate (tables.keep p.root (Run.passesBase ⟨tables, .builtin, p⟩)) .builtin p =
        .ok [[.string "red", .ofNat 2]] := by
  intro tables
  obtain ⟨catalog, hbuild, h⟩ : ∃ catalog, Catalog.build Catalog.helpDeskHours = .ok catalog ∧
      (Plan.compile catalog .hoursOfRed .unrestricted []).toOption.any fun p =>
        let x : Run := ⟨tables, .builtin, p⟩
        ((∀ q ∈ p.predicates, q.column.entity = p.root) ∧ (∀ j ∈ p.joins, j.aliasName ≠ p.rootAlias)) ∧
          x.passesBase [("id", .string "b"), ("name", .string "blue")] = false ∧ x.ReadsExcluded ∧
            x.Yields [[.string "red", .ofNat 2]] :=
    Outcome.exists_of_any (by decide +kernel)
  obtain ⟨p, hp, h⟩ := Outcome.exists_of_any h
  obtain ⟨⟨hroot, halias⟩, hblue, hreads, hyields⟩ := of_decide_eq_true h
  obtain ⟨hsame, -, -⟩ := excluded_rows_only_fault hbuild hp rfl hroot halias hyields.1
  have he : evaluate tables .builtin p = .ok [[.string "red", .ofNat 2]] := evaluate_of_yields hyields
  exact ⟨catalog, p, hbuild, hp, hblue, he, (hsame hreads).symm.trans he⟩

/-- The blue team is excluded, yet its hours make the evaluation fail if they are no number. -/
theorem excluded_row_faults_helpDesk :
    let tables := helpDeskHours (.string "n/a")
    Model.hoursOfRed.strategy = .partitioned ∧
    ∃ catalog p fault, Catalog.build Catalog.helpDeskHours = .ok catalog ∧
      Plan.compile catalog .hoursOfRed .unrestricted [] = .ok p ∧
      (∀ q ∈ p.predicates, q.column.entity = p.root) ∧ Run.Prepares ⟨tables, .builtin, p⟩ ∧
      evaluate tables .builtin p = .error fault ∧
      evaluate (tables.keep p.root (Run.passesBase ⟨tables, .builtin, p⟩)) .builtin p =
        .ok [[.string "red", .ofNat 2]] := by
  intro tables
  refine ⟨rfl, ?_⟩
  obtain ⟨catalog, hbuild, h⟩ : ∃ catalog, Catalog.build Catalog.helpDeskHours = .ok catalog ∧
      (Plan.compile catalog .hoursOfRed .unrestricted []).toOption.any fun p =>
        let x : Run := ⟨tables, .builtin, p⟩
        (∀ q ∈ p.predicates, q.column.entity = p.root) ∧ x.Prepares ∧
          (∃ root ∈ x.roots, x.mainRows root = [] ∧ x.admits root ∧
            ¬ x.ReadsInOrder root x.plan.subExpressions) ∧
          Run.Yields ⟨tables.keep p.root x.passesBase, .builtin, p⟩ [[.string "red", .ofNat 2]] :=
    Outcome.exists_of_any (by decide +kernel)
  obtain ⟨p, hp, h⟩ := Outcome.exists_of_any h
  obtain ⟨hroot, hprepares, ⟨root, hmem, hmain, hadmits, hreads⟩, hyields⟩ := of_decide_eq_true h
  obtain ⟨fault, hfault⟩ := exists_fault hmem hmain hadmits hreads
  exact ⟨catalog, p, fault, hbuild, hp, hroot, hprepares, hfault, evaluate_of_yields hyields⟩

end Evaluation

end Tabulation
