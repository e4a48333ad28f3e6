import Mathlib.Data.List.Perm.Basic
import Tabulation.Proofs.Comparison.GroupKeys
import Tabulation.Proofs.Evaluation.Flattening
import Tabulation.Proofs.Evaluation.Restriction

/-! The order of stored rows. It decides which rows come first, and with them the order of the groups and
the values that a group shows, but not which groups there are and what is counted in them. -/
namespace Tabulation.Evaluation
open Json (Value)
open Plan (Aggregate Join Predicate SubExpression)
open Query (AggregateFn)
open Outcome

/-- Tables with the same rows, in any order. -/
def Tables.SameRows (tables tables' : Tables) : Prop := ∀ e, (tables.rows e).Perm (tables'.rows e)

section

variable {partners partners' : Join → Row → List Row}

lemma joinOne_perm (h : ∀ join parent, (partners join parent).Perm (partners' join parent)) (join : Join)
    (b : Binding) : (joinOne partners join b).Perm (joinOne partners' join b) := by
  unfold joinOne
  cases b.row? join.parentAlias with
  | none => exact .refl _
  | some parent =>
    have hperm := h join parent
    simp only [Option.map_some]
    cases hrows : partners join parent with
    | nil =>
      rw [hrows] at hperm
      rw [hperm.nil_eq.symm]
    | cons row rows =>
      cases hrows' : partners' join parent with
      | nil =>
        rw [hrows'] at hperm
        rw [hrows] at hperm
        exact absurd hperm.symm.nil_eq.symm (List.cons_ne_nil _ _)
      | cons row' rows' => exact (hrows ▸ hrows' ▸ hperm).map _

lemma expand_perm (h : ∀ join parent, (partners join parent).Perm (partners' join parent)) (joins : List Join)
    {seeds seeds' : List Binding} (hseeds : seeds.Perm seeds') :
    (expand partners joins seeds).Perm (expand partners' joins seeds') := by
  induction joins generalizing seeds seeds' with
  | nil => exact hseeds
  | cons join joins ih => exact ih (hseeds.flatMap fun b _ => joinOne_perm h join b)

end

section

variable {tables tables' : Tables} (h : tables.SameRows tables')
include h

lemma matching_perm (step : Catalog.Step) (parent : Row) :
    (tables.matching step parent).Perm (tables'.matching step parent) := by
  unfold Tables.matching
  split
  · exact (h step.target).filter _
  · exact .refl _

variable (specials : Specials) (p : Plan)

lemma rowsAlong_perm (joins : List Join) (predicates : List Predicate) (root : Row) :
    (Run.rowsAlong ⟨tables, specials, p⟩ joins predicates root).Perm
      (Run.rowsAlong ⟨tables', specials, p⟩ joins predicates root) :=
  (expand_perm (fun join => matching_perm h join.step) joins (.refl _)).filter _

lemma mainRows_perm (root : Row) : (Run.mainRows ⟨tables, specials, p⟩ root).Perm
    (Run.mainRows ⟨tables', specials, p⟩ root) :=
  rowsAlong_perm h specials p p.joins p.predicates root

lemma subRows_perm (s : SubExpression) (root : Row) : (Run.subRows ⟨tables, specials, p⟩ s root).Perm
    (Run.subRows ⟨tables', specials, p⟩ s root) :=
  rowsAlong_perm h specials p s.joins s.predicates root

lemma counts_of_sameRows : Run.counts ⟨tables', specials, p⟩ = Run.counts ⟨tables, specials, p⟩ := by
  have hbranch : Run.inBranch ⟨tables', specials, p⟩ = Run.inBranch ⟨tables, specials, p⟩ := by
    funext root branch
    have hreach := expand_perm (fun join => matching_perm h join.step) branch.joins
      (.refl [[(p.rootAlias, root)]])
    exact hreach.symm.any_eq
  have hsemi : (fun root (s : Plan.SemiJoin) =>
      !(Run.rowsAlong ⟨tables', specials, p⟩ s.joins s.predicates root).isEmpty) = fun root s =>
        !(Run.rowsAlong ⟨tables, specials, p⟩ s.joins s.predicates root).isEmpty := by
    funext root s
    rw [(rowsAlong_perm h specials p s.joins s.predicates root).isEmpty_eq]
  have hkeeps : Run.keeps ⟨tables', specials, p⟩ = Run.keeps ⟨tables, specials, p⟩ := by
    funext root s
    simp only [Run.keeps, (subRows_perm h specials p s root).isEmpty_eq]
  funext root
  simp only [Run.counts, Run.admits, hbranch, hkeeps, congrFun hsemi root]

lemma bindings_perm {roots roots' : List Row} (hroots : roots.Perm roots') :
    (Run.bindings ⟨tables, specials, p⟩ roots).Perm (Run.bindings ⟨tables', specials, p⟩ roots') := by
  unfold Run.bindings
  rw [counts_of_sameRows h specials p]
  exact (hroots.filter _).flatMap fun root _ => mainRows_perm h specials p root

lemma members_perm {roots roots' : List Row} (hroots : roots.Perm roots') (text : String) :
    (Run.members ⟨tables, specials, p⟩ roots text).Perm (Run.members ⟨tables', specials, p⟩ roots' text) := by
  have hany : ∀ root, ((Run.mainRows ⟨tables', specials, p⟩ root).any fun b => groupText p b = text) =
      (Run.mainRows ⟨tables, specials, p⟩ root).any fun b => groupText p b = text :=
    fun root => (mainRows_perm h specials p root).symm.any_eq
  unfold Run.members
  simp only [counts_of_sameRows h specials p, hany]
  exact (hroots.filter _).filter _

end

/-! Counts -/

lemma mem_textsOf {values : List Value} {text : String} :
    text ∈ (textsOf values).toList ↔ ∃ v ∈ values, Comparison.groupKey v = text := by
  induction values using List.reverseRecOn with
  | nil => simp [textsOf, show (∅ : OrderedSet String).toList = [] from rfl]
  | append_singleton values v ih =>
    rw [textsOf_append_singleton, OrderedSet.mem_insert, ih]
    simp only [List.mem_append, List.mem_singleton, or_and_right, exists_or, exists_eq_left]
    rw [or_comm, eq_comm]

/-- What is counted has no order. -/
lemma IsCount.tally_perm {f : AggregateFn} (hf : IsCount f) {us vs : List (Option Value)} (h : us.Perm vs) :
    tally f us = tally f vs := by
  have hpresent : (present us).Perm (present vs) := h.filterMap _
  rcases hf with rfl | rfl
  · rw [tally_count, tally_count, hpresent.length_eq]
  · rw [tally_countDistinct, tally_countDistinct]
    congr 1
    apply OrderedSet.ext_of_mem
    intro text
    rw [mem_textsOf, mem_textsOf]
    exact exists_congr fun v => and_congr_left' hpresent.mem_iff

section

variable {tables tables' : Tables} (h : tables.SameRows tables') (specials : Specials) {p : Plan}
  (hcount : ∀ a ∈ p.localAggregates ++ p.subExpressions.flatMap (·.aggregates), IsCount a.function)
include h hcount

/-- The same is counted in the group under a text. -/
theorem totals_of_sameRows {roots roots' : List Row} (hroots : roots.Perm roots') (text : String) :
    Run.totals ⟨tables, specials, p⟩ roots text = Run.totals ⟨tables', specials, p⟩ roots' text := by
  unfold Run.totals
  congr 1
  · refine List.map_congr_left fun a ha => ?_
    exact (hcount a (List.mem_append_left _ ha)).tally_perm
      (((bindings_perm h specials p hroots).filter _).map _)
  · refine List.map_congr_left fun s hs => List.map_congr_left fun a ha => ?_
    have hf := hcount a (List.mem_append_right _ (List.mem_flatMap.2 ⟨s, hs, ha⟩))
    -- what is merged from parts is what is counted in all of them
    have hmerge : ∀ parts : List (List Binding),
        (parts.map fun rows => tally a.function (valuesOf a rows)).foldl Accumulator.merge (.new a.function) =
          tally a.function (parts.map (valuesOf a)).flatten := fun parts => by
      rw [← foldl_merge_tally (hf.mergeable _), List.map_map]
      rfl
    rw [hmerge, hmerge, List.map_map, List.map_map, ← List.flatMap_def, ← List.flatMap_def]
    exact hf.tally_perm ((members_perm h specials p hroots text).flatMap fun root _ =>
      (subRows_perm h specials p s root).map _)

end

/-! Groups -/

lemma firsts_perm {α : Type} (key : α → String) {xs ys : List α} (h : xs.Perm ys) :
    ((firsts key xs).map key).Perm ((firsts key ys).map key) := by
  have hnodup : ∀ xs, ((firsts key xs).map key).Nodup := fun xs => by
    rw [List.Nodup, List.pairwise_map]
    exact firsts_pairwise key xs
  have hmem : ∀ xs text, text ∈ (firsts key xs).map key ↔ text ∈ xs.map key := by
    intro xs text
    refine ⟨fun ht => List.map_subset key (firsts_subset key xs) ht, fun ht => ?_⟩
    obtain ⟨x, hx, rfl⟩ := List.mem_map.1 ht
    obtain ⟨y, hy, hyx⟩ := exists_mem_firsts key hx
    exact List.mem_map.2 ⟨y, hy, hyx⟩
  refine (List.perm_ext_iff_of_nodup (hnodup xs) (hnodup ys)).2 fun text => ?_
  rw [hmem, hmem]
  exact (h.map key).mem_iff

lemma exists_eq_map_of_perm {α β : Type} {f : α → β} {xs : List α} {ys : List β} (h : ys.Perm (xs.map f)) :
    ∃ zs : List α, ys = zs.map f ∧ zs.Perm xs := by
  have hmap : List.Forall₂ (fun y x => y = f x) (xs.map f) xs :=
    List.forall₂_map_left_iff.2 (List.forall₂_same.2 fun x _ => rfl)
  obtain ⟨zs, hzs, hperm⟩ := List.perm_comp_forall₂ h hmap
  refine ⟨zs, ?_, hperm⟩
  rwa [← List.forall₂_eq_eq_eq, List.forall₂_map_right_iff]

/-- Where a function only tells elements apart by their keys, it is enough that the keys are the same. -/
lemma map_perm_of_keys {α β γ : Type} (key : α → γ) {f g : α → β}
    (hfg : ∀ x y, key x = key y → f x = g y) {xs ys : List α} (h : (xs.map key).Perm (ys.map key)) :
    (xs.map f).Perm (ys.map g) := by
  obtain ⟨zs, hzs, hperm⟩ := exists_eq_map_of_perm h
  have hmap : xs.map f = zs.map g := by
    rw [← List.forall₂_eq_eq_eq, List.forall₂_map_left_iff, List.forall₂_map_right_iff] at hzs ⊢
    exact hzs.imp fun x y hxy => hfg x y hxy
  rw [hmap]
  exact hperm.map g

end Tabulation.Evaluation

namespace Tabulation
open Json (Value)

/-- A cell of a result without what depends on the order of stored rows: of a projected value the text under
which it is grouped, but an aggregate as it is. -/
def Plan.shownCell (p : Plan) (i : Nat) (v : Value) : String ⊕ Value :=
  if p.outputs[i]?.any (·.kind = .projection) then .inl (Comparison.groupKey v) else .inr v

/-- A tuple without what depends on the order of stored rows. -/
def Plan.shown (p : Plan) (t : Evaluation.Tuple) : List (String ⊕ Value) := t.mapIdx p.shownCell

namespace Evaluation

lemma mapIdx_foldl_set {α : Type} (f : Nat → Value → α) (cells : List (Nat × Value)) (t : Tuple) :
    (cells.foldl (fun t cell => t.set cell.1 cell.2) t).mapIdx f =
      (cells.map fun cell => (cell.1, f cell.1 cell.2)).foldl (fun t cell => t.set cell.1 cell.2)
        (t.mapIdx f) := by
  induction cells generalizing t with
  | nil => rfl
  | cons cell cells ih => rw [List.foldl_cons, ih, List.mapIdx_set, List.map_cons, List.foldl_cons]

/-- Group values with the same texts are shown alike. -/
lemma shown_tuple {p : Plan} (hkinds : ∀ k ∈ p.groupKeys, ∃ o, p.outputs[k.outputIndex]? = some o ∧
    o.kind = .projection) {us vs : List Value}
    (h : us.map Comparison.groupKey = vs.map Comparison.groupKey) (totals : Totals) :
    p.shown (tuple p us totals) = p.shown (tuple p vs totals) := by
  have hcells : ∀ values : List Value,
      ((p.groupKeys.zip values).map fun k => (k.1.outputIndex, k.2)).map
          (fun cell => (cell.1, p.shownCell cell.1 cell.2)) =
        (p.groupKeys.zip (values.map Comparison.groupKey)).map fun k =>
          (k.1.outputIndex, (.inl k.2 : String ⊕ Value)) := by
    intro values
    rw [List.map_map, List.zip_map_right, List.map_map]
    refine List.map_congr_left fun k hk => ?_
    obtain ⟨o, ho, hkind⟩ := hkinds k.1 (List.of_mem_zip hk).1
    simp [Plan.shownCell, ho, hkind]
  unfold Plan.shown tuple
  rw [mapIdx_foldl_set, mapIdx_foldl_set, List.map_append, List.map_append, hcells, hcells, h]

/-- The tuples of the same rows in another order are the same, as they are shown. -/
theorem result_perm {tables tables' : Tables} (h : tables.SameRows tables') (specials : Specials) {p : Plan}
    (hcount : ∀ a ∈ p.localAggregates ++ p.subExpressions.flatMap (·.aggregates), IsCount a.function)
    (hkinds : ∀ k ∈ p.groupKeys, ∃ o, p.outputs[k.outputIndex]? = some o ∧ o.kind = .projection)
    {roots roots' : List Row} (hroots : roots.Perm roots') :
    ((Run.result ⟨tables, specials, p⟩ roots).map p.shown).Perm
      ((Run.result ⟨tables', specials, p⟩ roots').map p.shown) := by
  let x : Run := ⟨tables, specials, p⟩
  let x' : Run := ⟨tables', specials, p⟩
  have htotals : ∀ text, x.totals roots text = x'.totals roots' text :=
    totals_of_sameRows h specials hcount hroots
  cases hg : p.isGlobal with
  | true => rw [x.result_of_isGlobal roots hg, x'.result_of_isGlobal roots' hg, htotals]
  | false =>
    rw [x.result_eq_map_groups roots hg, x'.result_eq_map_groups roots' hg, List.map_map, List.map_map]
    refine map_perm_of_keys (fun values => Comparison.groupKey (.array values)) (fun us vs huv => ?_) ?_
    · have hkeys := Comparison.groupKeys_eq_of_array huv
      rw [Comparison.groupKeys_eq_map, Comparison.groupKeys_eq_map] at hkeys
      calc p.shown (tuple p us (x.totals roots (Comparison.groupKey (.array us))))
          = p.shown (tuple p us (x'.totals roots' (Comparison.groupKey (.array vs)))) := by rw [huv, htotals]
        _ = p.shown (tuple p vs (x'.totals roots' (Comparison.groupKey (.array vs)))) :=
            shown_tuple hkinds hkeys _
    · rw [Run.groups, Run.groups, List.map_map, List.map_map]
      exact firsts_perm (groupText p) (bindings_perm h specials p hroots)

/-- Whatever is read from stored rows is read from them in any order. -/
lemma reads_of_sameRows {tables tables' : Tables} (h : tables.SameRows tables') (specials : Specials) (p : Plan)
    (root : Row) : Run.Reads ⟨tables', specials, p⟩ root ↔ Run.Reads ⟨tables, specials, p⟩ root := by
  have hsub : ∀ s, Run.ReadsSub ⟨tables', specials, p⟩ root s ↔ Run.ReadsSub ⟨tables, specials, p⟩ root s := by
    intro s
    refine forall₂_congr fun a _ => forall_congr' fun v => imp_congr_left ?_
    exact ((subRows_perm h specials p s root).map _).symm.mem_iff
  have hmain : ∀ b, b ∈ Run.mainRows ⟨tables', specials, p⟩ root ↔ b ∈ Run.mainRows ⟨tables, specials, p⟩ root :=
    fun b => (mainRows_perm h specials p root).symm.mem_iff
  unfold Run.Reads
  simp only [counts_of_sameRows h specials p, hsub, hmain]

/-- The order of stored rows does not matter for a plan that counts. It can be evaluated in any order of
them or in none, and the tuples are the same but for their order and the values that stand for a group. -/
theorem row_order_irrelevant {catalog : Catalog} {m : Query.Model} {scope : Scope.Resolved}
    {sort : Sorting.Criteria} {p : Plan} (hp : Plan.compile catalog m scope sort = .ok p)
    (hcount : ∀ a ∈ p.localAggregates ++ p.subExpressions.flatMap (·.aggregates), IsCount a.function)
    {tables tables' : Tables} (h : ∀ e, (tables.rows e).Perm (tables'.rows e)) (specials : Specials) :
    ((∃ ts, evaluate tables specials p = .ok ts) ↔ ∃ ts', evaluate tables' specials p = .ok ts') ∧
    ∀ ts ts', evaluate tables specials p = .ok ts → evaluate tables' specials p = .ok ts' →
      (ts.map p.shown).Perm (ts'.map p.shown) := by
  let x : Run := ⟨tables, specials, p⟩
  let x' : Run := ⟨tables', specials, p⟩
  have hany : x.ReadsAnything := fun s hs a ha =>
    (hcount a (List.mem_append_right _ (List.mem_flatMap.2 ⟨s, hs, ha⟩))).not_numeric
  have hiff : ∀ ts, evaluate tables specials p = .ok ts ↔ _ := fun ts => evaluate_eq_ok_iff (x := x) hany
  have hiff' : ∀ ts, evaluate tables' specials p = .ok ts ↔ _ := fun ts => evaluate_eq_ok_iff (x := x') hany
  have hroots : x.roots.Perm x'.roots := h p.root
  have hprepares : x'.Prepares ↔ x.Prepares :=
    ⟨fun hx => ⟨hx.main, hx.semiJoins, hx.subExpressions⟩, fun hx => ⟨hx.main, hx.semiJoins, hx.subExpressions⟩⟩
  have hreads : (∀ root ∈ x'.roots, x'.Reads root) ↔ ∀ root ∈ x.roots, x.Reads root :=
    forall_congr' fun root => imp_congr hroots.symm.mem_iff (reads_of_sameRows h specials p root)
  constructor
  · simp only [hiff, hiff', hprepares, hreads, exists_and_left, exists_eq]
  · intro ts ts' hts hts'
    obtain ⟨-, -, rfl⟩ := (hiff ts).1 hts
    obtain ⟨-, -, rfl⟩ := (hiff' ts').1 hts'
    have hresult := result_perm h specials hcount (fun k hk => Plan.kind_of_groupKey hp hk) hroots
    have hsorted : ∀ us, (SortKey.sort p.sortKeys us).Perm us := fun us => List.mergeSort_perm _ _
    exact ((hsorted _).map _).trans (hresult.trans ((hsorted _).map _).symm)

/-- With all rows of the help desk in the opposite order, the blue team comes first. -/
theorem row_order_irrelevant_helpDesk :
    let m : Query.Model := .perTeam "Team" ["TICKET_ID", "NOTE_ID"] []
    let reversed : Tables := helpDesk.mapValues fun _ rows => rows.reverse
    let red : Tuple := [.string "red", .ofNat 2, .ofNat 3]
    let blue : Tuple := [.string "blue", .ofNat 0, .ofNat 0]
    ∃ catalog p, Catalog.build Catalog.helpDesk = .ok catalog ∧
      Plan.compile catalog m .unrestricted [] = .ok p ∧
      (∀ a ∈ p.localAggregates ++ p.subExpressions.flatMap (·.aggregates), IsCount a.function) ∧
      (∀ e, (helpDesk.rows e).Perm (reversed.rows e)) ∧
      evaluate helpDesk .builtin p = .ok [red, blue] ∧ evaluate reversed .builtin p = .ok [blue, red] ∧
      ([red, blue].map p.shown).Perm ([blue, red].map p.shown) := by
  intro m reversed red blue
  obtain ⟨catalog, hbuild, h⟩ : ∃ catalog, Catalog.build Catalog.helpDesk = .ok catalog ∧
      (Plan.compile catalog m .unrestricted []).toOption.any fun p =>
        Run.gives ⟨helpDesk, .builtin, p⟩ [red, blue] && (Run.gives ⟨reversed, .builtin, p⟩ [blue, red] &&
          decide (∀ a ∈ p.localAggregates ++ p.subExpressions.flatMap (·.aggregates), IsCount a.function)) :=
    Outcome.exists_of_any (by decide +kernel)
  obtain ⟨p, hp, h⟩ := Outcome.exists_of_any h
  obtain ⟨hgives, h⟩ := Bool.and_eq_true_iff.1 h
  obtain ⟨hgives', hcount⟩ := Bool.and_eq_true_iff.1 h
  have hcount := of_decide_eq_true hcount
  have hts := evaluate_of_gives hgives
  have hts' := evaluate_of_gives hgives'
  have hsame : ∀ e, (helpDesk.rows e).Perm (reversed.rows e) := fun e => by
    rw [rows_mapValues helpDesk (fun _ => rfl) e]
    exact (List.reverse_perm _).symm
  exact ⟨catalog, p, hbuild, hp, hcount, hsame, hts, hts',
    (row_order_irrelevant hp hcount hsame .builtin).2 _ _ hts hts'⟩

end Evaluation

end Tabulation
