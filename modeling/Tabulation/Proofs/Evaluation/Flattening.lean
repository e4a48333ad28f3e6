import Tabulation.Proofs.Evaluation.Alike
import Tabulation.Proofs.Evaluation.Merging
import Tabulation.Proofs.Evaluation.Success

/-! A run over multiplied rows beside one that computes its only sub-expression root row by root row.
Where a root row gives the same values to both, counting gives the same results, but for root rows that
are dropped with the rows that they were multiplied to. -/
namespace Tabulation.Evaluation
open Json (Value)
open Plan (Aggregate Join SubExpression)
open Query (AggregateFn)

/-- Counting, with repetitions or without. -/
def IsCount (f : AggregateFn) : Prop := f = .count ∨ f = .countDistinct

instance (f : AggregateFn) : Decidable (IsCount f) := inferInstanceAs (Decidable (_ ∨ _))

lemma IsCount.not_numeric {f : AggregateFn} (h : IsCount f) : f.requiresNumeric = false := by
  rcases h with rfl | rfl <;> rfl

lemma IsCount.mergeable {f : AggregateFn} (h : IsCount f) (parts : List (List (Option Value))) :
    Mergeable f parts := by
  rcases h with rfl | rfl <;> trivial

/-- What is counted are the values that are no nulls. -/
lemma IsCount.tally_eq {f : AggregateFn} (h : IsCount f) {us vs : List (Option Value)}
    (huv : present us = present vs) : tally f us = tally f vs := by
  rcases h with rfl | rfl
  · rw [tally_count, tally_count, huv]
  · rw [tally_countDistinct, tally_countDistinct, huv]

lemma flatMap_filter {α β : Type} (p : α → Bool) (f : α → List β) (xs : List α) :
    (xs.filter p).flatMap f = xs.flatMap fun x => if p x then f x else [] := by
  induction xs with
  | nil => rfl
  | cons x xs ih => by_cases hp : p x <;> simp [hp, ih]

/-- The joins of a sub-expression with all of them left. -/
def leftJoins (joins : List Join) : List Join := joins.map fun j => { j with kind := .left }

namespace Run

/-- Whether every sub-expression has rows for a root row that satisfy its predicates, if rows without
partners may go on. -/
def isMatched (x : Run) (root : Row) : Bool :=
  x.plan.subExpressions.all fun s => !(x.rowsAlong (leftJoins s.joins) s.predicates root).isEmpty

lemma groups_filter_isMatched (y : Run) {roots : List Row}
    (hall : ∀ root ∈ roots, y.counts root → y.mainRows root ≠ [] → y.isMatched root) :
    y.groups (roots.filter y.isMatched) = y.groups roots := by
  have hbindings : y.bindings (roots.filter y.isMatched) = y.bindings roots := by
    simp only [Run.bindings, List.filter_filter, flatMap_filter]
    apply List.flatMap_congr
    intro root hroot
    by_cases hc : y.counts root
    · by_cases hrows : y.mainRows root = []
      · simp [hrows]
      · simp [hc, hall root hroot hc hrows]
    · simp [hc]
  unfold Run.groups
  rw [hbindings]

/-- Whether the groups are the same, and in the same order, without the root rows that are not
matched. -/
def KeepsGroups (x : Run) : Prop :=
  x.plan.isGlobal ∨ x.groups (x.roots.filter x.isMatched) = x.groups x.roots

lemma reads_filter_iff {y : Run} (hany : y.ReadsAnything) {roots : List Row}
    (hall : ∀ root ∈ roots, y.counts root → y.mainRows root ≠ [] → y.isMatched root) :
    (∀ root ∈ roots.filter y.isMatched, y.Reads root) ↔ ∀ root ∈ roots, y.Reads root := by
  refine ⟨fun h root hroot hcounts => ?_, fun h root hroot => h root (List.mem_filter.1 hroot).1⟩
  by_cases hrows : y.mainRows root = []
  · exact ⟨fun s hs => readsSub_of_readsAnything hany hs root, by simp [hrows]⟩
  · exact h root (List.mem_filter.2 ⟨hroot, hall root hroot hcounts hrows⟩) hcounts

/-- A plan that gives what a run gives for the root rows that are matched. -/
structure GivesMatched (p : Plan) (y : Run) : Prop where
  readsAnything : y.ReadsAnything
  evaluate : ∀ ts, Evaluation.evaluate y.tables y.specials p = .ok ts ↔
    y.Prepares ∧ (∀ root ∈ y.roots.filter y.isMatched, y.Reads root) ∧
      ts = SortKey.sort y.plan.sortKeys (y.result (y.roots.filter y.isMatched))
  /-- Whether the root rows that are not matched make a difference is a matter of the groups. -/
  result : y.result (y.roots.filter y.isMatched) = y.result y.roots ↔ y.KeepsGroups

namespace GivesMatched

variable {p : Plan} {y : Run} {ts us : List Tuple} (h : GivesMatched p y)
include h

/-- Where no root row with a joined row is left out, the plan gives what the run gives. -/
lemma evaluate_iff_of_matched
    (hall : ∀ root ∈ y.roots, y.counts root → y.mainRows root ≠ [] → y.isMatched root) :
    Evaluation.evaluate y.tables y.specials p = .ok ts ↔
      Evaluation.evaluate y.tables y.specials y.plan = .ok ts := by
  have hresult := h.result.2 (.inr (y.groups_filter_isMatched hall))
  rw [h.evaluate, Evaluation.evaluate_eq_ok_iff h.readsAnything, hresult,
    reads_filter_iff h.readsAnything hall]

lemma eq_of_keepsGroups (hkeeps : y.KeepsGroups)
    (hts : Evaluation.evaluate y.tables y.specials p = .ok ts)
    (hus : Evaluation.evaluate y.tables y.specials y.plan = .ok us) : ts = us := by
  obtain ⟨-, -, rfl⟩ := (h.evaluate ts).1 hts
  obtain ⟨-, -, rfl⟩ := (Evaluation.evaluate_eq_ok_iff h.readsAnything).1 hus
  rw [h.result.2 hkeeps]

/-- Only another order of the tuples can make up for another order of the groups. -/
lemma keepsGroups_of_eq (hsort : y.plan.sortKeys = [])
    (hts : Evaluation.evaluate y.tables y.specials p = .ok ts)
    (hus : Evaluation.evaluate y.tables y.specials y.plan = .ok us) (heq : ts = us) :
    y.KeepsGroups := by
  obtain ⟨-, -, hts⟩ := (h.evaluate ts).1 hts
  obtain ⟨-, -, hus⟩ := (Evaluation.evaluate_eq_ok_iff h.readsAnything).1 hus
  rw [hsort, sort_nil] at hts hus
  exact h.result.1 (hts.symm.trans (heq.trans hus))

end GivesMatched

lemma givesMatched_self {y : Run} (h : y.plan.subExpressions = []) : GivesMatched y.plan y := by
  have hany : y.ReadsAnything := by simp [ReadsAnything, h]
  have hall : y.roots.filter y.isMatched = y.roots :=
    List.filter_eq_self.2 fun root _ => by simp [isMatched, h]
  refine ⟨hany, fun ts => ?_, ?_⟩
  · rw [hall]
    exact Evaluation.evaluate_eq_ok_iff hany
  · rw [KeepsGroups, hall]
    simp

/-- A run over multiplied rows and one with their aggregates as a sub-expression. -/
structure Flattens (aliases : List String) (x y : Run) (s : SubExpression) : Prop where
  outputs : x.plan.outputs = y.plan.outputs
  groupKeys : x.plan.groupKeys = y.plan.groupKeys
  bound : ∀ k ∈ y.plan.groupKeys, k.column.aliasName ∈ aliases
  locals : x.plan.localAggregates = s.aggregates ∧ y.plan.localAggregates = []
  subs : x.plan.subExpressions = [] ∧ y.plan.subExpressions = [s]
  counting : ∀ a ∈ s.aggregates, IsCount a.function
  prepares : x.Prepares ↔ y.Prepares
  admits : ∀ root, x.admits root = y.admits root
  unmatched : ∀ root, y.isMatched root = false → y.subRows s root = []
  /-- A root row has no joined row, or one, which the multiplied rows go on from. -/
  rows : ∀ root, (x.mainRows root = [] ∧ y.mainRows root = []) ∨
    ∃ c, y.mainRows root = [c] ∧ (∀ b ∈ x.mainRows root, Binding.Agree aliases c b) ∧
      (x.mainRows root ≠ [] ↔ y.isMatched root ∧ y.keeps root s) ∧
      ∀ a ∈ s.aggregates, present (valuesOf a (x.mainRows root)) = present (valuesOf a (y.subRows s root))

namespace Flattens

variable {aliases : List String} {x y : Run} {s : SubExpression} (h : Flattens aliases x y s)
  {b c : Binding} {root : Row}
include h

lemma groupValues_eq (hb : Binding.Agree aliases c b) : groupValues x.plan b = groupValues y.plan c := by
  unfold groupValues
  rw [h.groupKeys]
  apply List.map_congr_left
  intro k hk
  rw [hb.value?_eq (h.bound k hk)]

lemma groupText_eq (hb : Binding.Agree aliases c b) : groupText x.plan b = groupText y.plan c := by
  unfold groupText
  rw [h.groupValues_eq hb]

lemma counts (root : Row) : x.counts root = y.admits root := by
  rw [Run.counts, h.subs.1, h.admits]
  simp

lemma counts' (root : Row) : y.counts root = (y.admits root && y.keeps root s) := by
  rw [Run.counts, h.subs.2]
  simp

lemma forall₂_firsts_rows (root : Row) :
    List.Forall₂ (fun b c => Binding.Agree aliases c b)
      (firsts (groupText x.plan) (if x.counts root then x.mainRows root else []))
      (if y.isMatched root && y.counts root then y.mainRows root else []) := by
  rw [h.counts, h.counts']
  rcases h.rows root with ⟨hx, hy⟩ | ⟨c, hy, hagree, hsome, -⟩
  · simp [hx, hy, firsts]
  · cases hrows : x.mainRows root with
    | nil =>
      have hnone : ¬ (y.isMatched root = true ∧ y.keeps root s = true) := fun hk => hsome.2 hk hrows
      have hcond : (y.isMatched root && (y.admits root && y.keeps root s)) = false := by
        rw [Bool.eq_false_iff]
        simp only [ne_eq, Bool.and_eq_true]
        tauto
      simp [hcond, firsts]
    | cons b bs =>
      obtain ⟨hmatched, hkeeps⟩ := hsome.1 (by simp [hrows])
      have hsame : ∀ d ∈ bs, groupText x.plan d = groupText x.plan b := by
        intro d hd
        rw [h.groupText_eq (hagree d (by simp [hrows, hd])), h.groupText_eq (hagree b (by simp [hrows]))]
      rw [hmatched, hkeeps, Bool.true_and, Bool.and_true, hy]
      cases y.admits root with
      | false => exact .nil
      | true =>
        rw [if_pos rfl, if_pos rfl, firsts_of_same hsame]
        exact .cons (hagree b (by simp [hrows])) .nil

/-- The groups are those of the root rows that are matched. -/
theorem forall₂_firsts (roots : List Row) :
    List.Forall₂ (fun b c => Binding.Agree aliases c b)
      (firsts (groupText x.plan) (x.bindings roots))
      (firsts (groupText y.plan) (y.bindings (roots.filter y.isMatched))) := by
  have hx : x.bindings roots = roots.flatMap fun root => if x.counts root then x.mainRows root else [] := by
    rw [Run.bindings, flatMap_filter]
  have hy : y.bindings (roots.filter y.isMatched) =
      roots.flatMap fun root => if y.isMatched root && y.counts root then y.mainRows root else [] := by
    rw [Run.bindings, List.filter_filter, flatMap_filter]
    simp only [Bool.and_comm]
  rw [hx, hy, ← firsts_flatMap_firsts]
  refine Evaluation.forall₂_firsts (fun b c hb => h.groupText_eq hb) ?_
  refine forall₂_flatMap (List.forall₂_same.2 fun root _ => rfl) ?_
  rintro root - _ - rfl
  exact h.forall₂_firsts_rows root

lemma present_rows {a : Aggregate} (ha : a ∈ s.aggregates) (root : Row) (text : String) :
    present (valuesOf a ((if x.counts root then x.mainRows root else []).filter fun b =>
        groupText x.plan b = text)) =
      if (y.isMatched root && y.counts root) && (y.mainRows root).any fun b => groupText y.plan b = text
      then present (valuesOf a (y.subRows s root)) else [] := by
  rw [h.counts, h.counts']
  rcases h.rows root with ⟨hx, hy⟩ | ⟨c, hy, hagree, hsome, hvalues⟩
  · simp [hx, hy, valuesOf, present]
  · have hfilter : (x.mainRows root).filter (fun b => groupText x.plan b = text) =
        if groupText y.plan c = text then x.mainRows root else [] := by
      have hall : ∀ b ∈ x.mainRows root, (decide (groupText x.plan b = text)) =
          decide (groupText y.plan c = text) := fun b hb => by rw [h.groupText_eq (hagree b hb)]
      rw [List.filter_congr hall]
      split_ifs with ht <;> simp [ht]
    rw [hy, List.any_cons, List.any_nil, Bool.or_false]
    cases hadmits : y.admits root with
    | false => simp [valuesOf, present]
    | true =>
      rw [if_pos rfl, hfilter]
      by_cases ht : groupText y.plan c = text
      · by_cases hk : y.isMatched root = true ∧ y.keeps root s = true
        · simp [ht, hk, hvalues a ha]
        · have hnil : x.mainRows root = [] := by
            by_contra hne
            exact hk (hsome.1 hne)
          have hcond : (y.isMatched root && y.keeps root s) = false := by
            rw [Bool.eq_false_iff]
            simpa using hk
          simp [ht, hcond, hnil, valuesOf, present]
      · simp [ht, valuesOf, present]

/-- An aggregate over multiplied rows is the aggregate of the sub-expression. -/
theorem localCell_eq {a : Aggregate} (ha : a ∈ s.aggregates) (roots : List Row) (text : String) :
    x.localCell roots text a = y.subCell (roots.filter y.isMatched) text s a := by
  have hcount := h.counting a ha
  have hmerge := foldl_merge_tally (hcount.mergeable
    ((y.members (roots.filter y.isMatched) text).map fun root => valuesOf a (y.subRows s root)))
  rw [List.map_map] at hmerge
  have hmembers : y.members (roots.filter y.isMatched) text = roots.filter fun root =>
      (y.isMatched root && y.counts root) && (y.mainRows root).any fun b => groupText y.plan b = text := by
    rw [Run.members, List.filter_filter, List.filter_filter]
    apply List.filter_congr
    intro root _
    rw [Bool.and_comm, Bool.and_assoc, Bool.and_comm (y.counts root)]
  have hpresent : present (valuesOf a ((x.bindings roots).filter fun b => groupText x.plan b = text)) =
      present ((y.members (roots.filter y.isMatched) text).map fun root =>
        valuesOf a (y.subRows s root)).flatten := by
    calc present (valuesOf a ((x.bindings roots).filter fun b => groupText x.plan b = text))
        = roots.flatMap fun root => present (valuesOf a
            ((if x.counts root then x.mainRows root else []).filter fun b =>
              groupText x.plan b = text)) := by
          rw [Run.bindings, flatMap_filter, List.filter_flatMap]
          simp only [valuesOf, present, List.map_flatMap, List.filterMap_flatMap]
      _ = roots.flatMap fun root =>
            if (y.isMatched root && y.counts root) &&
              (y.mainRows root).any fun b => groupText y.plan b = text
            then present (valuesOf a (y.subRows s root)) else [] :=
          List.flatMap_congr fun root _ => h.present_rows ha root text
      _ = _ := by
          rw [hmembers, ← List.flatMap_def, present, List.filterMap_flatMap, flatMap_filter]
          rfl
  unfold localCell subCell
  rw [hcount.tally_eq hpresent, ← hmerge]
  rfl

lemma tuple_eq (hb : Binding.Agree aliases c b) (roots : List Row) (text : String) :
    tuple x.plan (groupValues x.plan b) (x.totals roots text) =
      tuple y.plan (groupValues y.plan c) (y.totals (roots.filter y.isMatched) text) := by
  have hcells : (x.totals roots text).cells x.plan =
      (y.totals (roots.filter y.isMatched) text).cells y.plan := by
    rw [cells_totals, cells_totals, h.locals.1, h.locals.2, h.subs.1, h.subs.2]
    simp only [List.flatMap_nil, List.append_nil, List.map_nil, List.nil_append, List.flatMap_cons]
    exact List.map_congr_left fun a ha => h.localCell_eq ha roots text
  unfold tuple
  rw [hcells, h.groupValues_eq hb, h.groupKeys, h.outputs]

/-- The run over multiplied rows gives what the other one gives for the root rows that are matched. -/
theorem result_eq (roots : List Row) : x.result roots = y.result (roots.filter y.isMatched) := by
  have hfirsts := h.forall₂_firsts roots
  have hglobal : x.plan.isGlobal = y.plan.isGlobal := by
    unfold Plan.isGlobal
    rw [h.groupKeys]
  unfold Run.result
  generalize firsts (groupText x.plan) (x.bindings roots) = bs at hfirsts ⊢
  generalize firsts (groupText y.plan) (y.bindings (roots.filter y.isMatched)) = cs at hfirsts ⊢
  cases hfirsts with
  | nil =>
    simp only [hglobal]
    split_ifs with hg
    · have hnil : y.plan.groupKeys = [] := List.isEmpty_iff.1 hg
      have hzero := h.tuple_eq (b := []) (c := []) (fun _ _ => rfl) [] ""
      simp only [groupValues, h.groupKeys, hnil, List.map_nil] at hzero
      exact congrArg (fun t => [t]) hzero
    · rfl
  | cons hb hrest =>
    simp only
    rw [← List.forall₂_eq_eq_eq, List.forall₂_map_left_iff, List.forall₂_map_right_iff]
    refine (List.Forall₂.cons (R := fun b c => Binding.Agree aliases c b) hb hrest).imp
      fun b c hb => ?_
    rw [h.groupText_eq hb]
    exact h.tuple_eq hb roots _

lemma totals_eq (roots : List Row) (text : String) :
    y.totals (roots.filter y.isMatched) text = y.totals roots text := by
  have hmembers : y.members (roots.filter y.isMatched) text =
      (y.members roots text).filter y.isMatched := by
    simp only [Run.members, List.filter_filter]
    apply List.filter_congr
    intro root _
    rw [Bool.eq_iff_iff]
    simp only [Bool.and_eq_true]
    tauto
  have hmerged : mergedTallies s.aggregates ((y.members (roots.filter y.isMatched) text).map (y.subRows s)) =
      mergedTallies s.aggregates ((y.members roots text).map (y.subRows s)) := by
    apply List.map_congr_left
    intro a ha
    have hmerge : ∀ roots : List Row, ((roots.map (y.subRows s)).map fun rows =>
        tally a.function (valuesOf a rows)).foldl Accumulator.merge (.new a.function) =
          tally a.function (roots.flatMap fun root => valuesOf a (y.subRows s root)) := by
      intro roots
      have := foldl_merge_tally ((h.counting a ha).mergeable
        (roots.map fun root => valuesOf a (y.subRows s root)))
      rw [List.flatMap_def, ← this]
      simp [Function.comp_def]
    rw [hmerge, hmerge, hmembers, flatMap_filter]
    congr 1
    apply List.flatMap_congr
    intro root _
    by_cases hm : y.isMatched root
    · rw [if_pos hm]
    · rw [if_neg hm, h.unmatched root (by simpa using hm)]
      rfl
  unfold Run.totals
  rw [h.locals.2, h.subs.2, List.map_singleton, List.map_singleton, hmerged]
  rfl

/-- Whether the root rows that are not matched make a difference is a matter of the groups. -/
theorem result_filter_eq_iff (hy : y.plan.filled.Perm (List.range y.plan.outputs.length))
    (roots : List Row) :
    y.result (roots.filter y.isMatched) = y.result roots ↔
      y.plan.isGlobal ∨ y.groups (roots.filter y.isMatched) = y.groups roots := by
  cases hg : y.plan.isGlobal with
  | true =>
    rw [y.result_of_isGlobal _ hg, y.result_of_isGlobal _ hg, h.totals_eq]
    simp
  | false =>
    simp only [Bool.false_eq_true, false_or]
    constructor
    · intro hresult
      rw [← y.map_result _ hy hg, ← y.map_result _ hy hg, hresult]
    · intro hgroups
      rw [y.result_eq_map_groups _ hg, y.result_eq_map_groups _ hg, hgroups]
      simp only [h.totals_eq]

lemma contributes_iff (hb : Binding.Agree aliases c b) :
    Contributes x.plan b ↔ Contributes y.plan c := by
  have hkeys : (∀ k ∈ x.plan.groupKeys, ∃ v, groupValue k.bucket (b.value? k.column) = .ok v) ↔
      ∀ k ∈ y.plan.groupKeys, ∃ v, groupValue k.bucket (c.value? k.column) = .ok v := by
    rw [h.groupKeys]
    exact forall₂_congr fun k hk => by rw [hb.value?_eq (h.bound k hk)]
  unfold Contributes
  rw [hkeys, h.locals.1, h.locals.2]
  simp only [List.not_mem_nil, false_imp_iff, implies_true, and_true, and_iff_left_iff_imp]
  exact fun _ a ha => readable_of_not_numeric (h.counting a ha).not_numeric _

lemma readsAnything : x.ReadsAnything ∧ y.ReadsAnything := by
  unfold ReadsAnything
  rw [h.subs.1, h.subs.2]
  refine ⟨by simp, fun t ht a ha => ?_⟩
  rw [List.mem_singleton.1 ht] at ha
  exact (h.counting a ha).not_numeric

lemma reads_iff (root : Row) : x.Reads root ↔ (y.isMatched root → y.Reads root) := by
  have hx : x.Reads root ↔ (y.admits root → ∀ b ∈ x.mainRows root, Contributes x.plan b) := by
    rw [Run.Reads, h.counts]
    simp [h.subs.1]
  have hy : y.Reads root ↔
      (y.admits root → y.keeps root s → ∀ c ∈ y.mainRows root, Contributes y.plan c) := by
    rw [Run.Reads, h.counts', Bool.and_eq_true, and_imp]
    exact forall₂_congr fun _ _ =>
      ⟨And.right, fun hc => ⟨fun t ht => readsSub_of_readsAnything h.readsAnything.2 ht root, hc⟩⟩
  rw [hx, hy]
  rcases h.rows root with ⟨hnil, hnil'⟩ | ⟨c, hc, hagree, hsome, -⟩
  · simp [hnil, hnil']
  · rw [hc]
    constructor
    · intro hreads hmatched hadmits hkeeps c' hc'
      obtain ⟨b, hb⟩ := List.exists_mem_of_ne_nil _ (hsome.2 ⟨hmatched, hkeeps⟩)
      rw [List.mem_singleton.1 hc']
      exact (h.contributes_iff (hagree b hb)).1 (hreads hadmits b hb)
    · intro hreads hadmits b hb
      obtain ⟨hmatched, hkeeps⟩ := hsome.1 (List.ne_nil_of_mem hb)
      exact (h.contributes_iff (hagree b hb)).2 (hreads hmatched hadmits hkeeps c (by simp))

/-- Running over multiplied rows is running for the root rows that are matched. -/
theorem givesMatched (htables : x.tables = y.tables) (hspecials : x.specials = y.specials)
    (hroot : x.plan.root = y.plan.root) (hsort : x.plan.sortKeys = y.plan.sortKeys)
    (hfilled : y.plan.filled.Perm (List.range y.plan.outputs.length)) : GivesMatched x.plan y := by
  refine ⟨h.readsAnything.2, fun ts => ?_, h.result_filter_eq_iff hfilled y.roots⟩
  have hroots : x.roots = y.roots := by unfold Run.roots; rw [htables, hroot]
  rw [← htables, ← hspecials, Evaluation.evaluate_eq_ok_iff h.readsAnything.1, h.prepares,
    h.result_eq, hroots, hsort]
  simp only [h.reads_iff, List.mem_filter, and_imp]

end Flattens

end Run

end Tabulation.Evaluation
