import Tabulation.Proofs.Evaluation.Cells
import Tabulation.Proofs.Evaluation.Expansion

/-! Two runs side by side. Where the same root rows count and the joined rows agree on what they are
grouped by, the groups are the same and come in the same order, and so are the cells of all aggregates
that see the same values. -/
namespace Tabulation.Evaluation
open Plan (Aggregate ColumnRef GroupKey Predicate)

variable {aliases : List String} {b b' : Binding}

lemma Binding.Agree.value?_eq (h : Binding.Agree aliases b b') {c : ColumnRef}
    (hc : c.aliasName ∈ aliases) : b.value? c = b'.value? c := by
  unfold Binding.value?
  rw [h _ hc]

lemma column_of_prepare {specials : Specials} {q : Predicate} {c : Condition}
    (h : Condition.prepare specials q = .ok c) : c.column = q.column := by
  unfold Condition.prepare at h
  split at h
  · split at h
    · split at h
      · cases h
        rfl
      · cases h
    · cases h
  · split at h
    · obtain ⟨test, -, rfl⟩ := Outcome.map_eq_ok.1 h
      rfl
    · cases h
  · cases h
    rfl

lemma Binding.Agree.satisfies_eq (h : Binding.Agree aliases b b') (specials : Specials)
    {predicates : List Predicate} (hp : ∀ q ∈ predicates, q.column.aliasName ∈ aliases) :
    satisfies specials predicates b = satisfies specials predicates b' := by
  refine all_congr fun q hq => ?_
  cases hc : Condition.prepare specials q with
  | error e => rfl
  | ok c =>
    have hcolumn := h.value?_eq (hp q hq)
    rw [← column_of_prepare hc] at hcolumn
    simp only [Except.map, hcolumn]

lemma satisfies_append (specials : Specials) (xs ys : List Predicate) (b : Binding) :
    satisfies specials (xs ++ ys) b = (satisfies specials xs b && satisfies specials ys b) :=
  List.all_append

lemma row?_of_satisfies {specials : Specials} {predicates : List Predicate}
    (h : satisfies specials predicates b) {q : Predicate} (hq : q ∈ predicates) :
    (b.row? q.column.aliasName).isSome := by
  have hholds := List.all_eq_true.1 h q hq
  cases hc : Condition.prepare specials q with
  | error e => simp [hc, Except.map, Outcome.getD] at hholds
  | ok c =>
    rw [← column_of_prepare hc]
    cases hrow : b.row? c.column.aliasName with
    | some row => rfl
    | none => simp [hc, Except.map, Outcome.getD, Binding.value?, hrow, Condition.holds] at hholds

lemma forall₂_filter_satisfies {bs bs' : List Binding}
    (h : List.Forall₂ (Binding.Agree aliases) bs bs') (specials : Specials)
    {predicates : List Predicate} (hp : ∀ q ∈ predicates, q.column.aliasName ∈ aliases) :
    List.Forall₂ (Binding.Agree aliases) (bs.filter (satisfies specials predicates))
      (bs'.filter (satisfies specials predicates)) :=
  List.rel_filter (fun b b' hb => by simp [hb.satisfies_eq specials hp]) h

lemma valuesOf_eq {a : Aggregate} {bs bs' : List Binding}
    (h : List.Forall₂ (Binding.Agree aliases) bs bs') (ha : a.column.aliasName ∈ aliases) :
    valuesOf a bs = valuesOf a bs' := by
  unfold valuesOf
  rw [← List.forall₂_eq_eq_eq, List.forall₂_map_left_iff, List.forall₂_map_right_iff]
  exact h.imp fun b b' hb => hb.value?_eq ha

lemma any_eq_of_forall₂ {α β : Type} {R : α → β → Prop} {p : α → Bool} {q : β → Bool} {xs : List α}
    {ys : List β} (h : List.Forall₂ R xs ys) (hpq : ∀ x y, R x y → p x = q y) :
    xs.any p = ys.any q := by
  induction h with
  | nil => rfl
  | cons hr _ ih => rw [List.any_cons, List.any_cons, hpq _ _ hr, ih]

namespace Run

/-- Two runs in which the same root rows count, and whose joined rows agree on aliases, among them
those of the columns that they are grouped by. -/
structure Alike (aliases : List String) (x y : Run) : Prop where
  counts : ∀ root, y.counts root = x.counts root
  groupKeys : y.plan.groupKeys = x.plan.groupKeys
  bound : ∀ k ∈ x.plan.groupKeys, k.column.aliasName ∈ aliases
  rows : ∀ root, List.Forall₂ (Binding.Agree aliases) (x.mainRows root) (y.mainRows root)

/-- An aggregate that sees the same values in two runs. -/
def SeenAlike (aliases : List String) (x y : Run) (a : Aggregate) : Prop :=
  (a ∈ x.plan.localAggregates ∧ a ∈ y.plan.localAggregates ∧ a.column.aliasName ∈ aliases) ∨
    ∃ s ∈ x.plan.subExpressions, ∃ s' ∈ y.plan.subExpressions, a ∈ s.aggregates ∧
      a ∈ s'.aggregates ∧ ∀ root, valuesOf a (x.subRows s root) = valuesOf a (y.subRows s' root)

namespace Alike

variable {x y : Run} (h : Alike aliases x y)
include h

lemma groupValues_eq (hb : Binding.Agree aliases b b') :
    groupValues y.plan b' = groupValues x.plan b := by
  unfold groupValues
  rw [h.groupKeys]
  apply List.map_congr_left
  intro k hk
  rw [hb.value?_eq (h.bound k hk)]

lemma groupText_eq (hb : Binding.Agree aliases b b') : groupText y.plan b' = groupText x.plan b := by
  unfold groupText
  rw [h.groupValues_eq hb]

lemma counts_eq : y.counts = x.counts := funext h.counts

lemma bindings (roots : List Row) :
    List.Forall₂ (Binding.Agree aliases) (x.bindings roots) (y.bindings roots) := by
  unfold Run.bindings
  rw [h.counts_eq]
  refine forall₂_flatMap (List.forall₂_same.2 fun root _ => rfl) ?_
  rintro root - _ - rfl
  exact h.rows root

theorem members_eq (roots : List Row) (text : String) :
    y.members roots text = x.members roots text := by
  unfold Run.members
  rw [h.counts_eq]
  apply List.filter_congr
  intro root _
  refine (any_eq_of_forall₂ (h.rows root) fun b b' hb => ?_).symm
  rw [h.groupText_eq hb]

lemma valuesOf_eq {a : Aggregate} (ha : a.column.aliasName ∈ aliases) (roots : List Row)
    (text : String) :
    valuesOf a ((x.bindings roots).filter fun b => groupText x.plan b = text) =
      valuesOf a ((y.bindings roots).filter fun b => groupText y.plan b = text) := by
  refine Evaluation.valuesOf_eq (List.rel_filter (fun b b' hb => ?_) (h.bindings roots)) ha
  simp [h.groupText_eq hb]

theorem getElem?_aggregate (hx : x.plan.filled.Perm (List.range x.plan.outputs.length))
    (hy : y.plan.filled.Perm (List.range y.plan.outputs.length)) {a : Aggregate}
    (ha : SeenAlike aliases x y a) (roots : List Row) (text : String) (b b' : Binding) :
    ∃ v, (tuple x.plan (groupValues x.plan b) (x.totals roots text))[a.outputIndex]? = some v ∧
      (tuple y.plan (groupValues y.plan b') (y.totals roots text))[a.outputIndex]? = some v := by
  rcases ha with ⟨hmem, hmem', halias⟩ | ⟨s, hs, s', hs', hmem, hmem', hrows⟩
  · refine ⟨(x.localCell roots text a).2, x.getElem?_tuple_totals _ _ hx b ?_,
      y.getElem?_tuple_totals _ _ hy b' ?_⟩
    · rw [filling, cells_totals]
      exact List.mem_append_right _ (List.mem_append_left _ (List.mem_map.2 ⟨a, hmem, rfl⟩))
    · rw [filling, cells_totals]
      refine List.mem_append_right _ (List.mem_append_left _ (List.mem_map.2 ⟨a, hmem', ?_⟩))
      unfold localCell
      rw [h.valuesOf_eq halias]
  · refine ⟨(x.subCell roots text s a).2, x.getElem?_tuple_totals _ _ hx b ?_,
      y.getElem?_tuple_totals _ _ hy b' ?_⟩
    · rw [filling, cells_totals]
      exact List.mem_append_right _ (List.mem_append_right _
        (List.mem_flatMap.2 ⟨s, hs, List.mem_map.2 ⟨a, hmem, rfl⟩⟩))
    · rw [filling, cells_totals]
      refine List.mem_append_right _ (List.mem_append_right _
        (List.mem_flatMap.2 ⟨s', hs', List.mem_map.2 ⟨a, hmem', ?_⟩⟩))
      unfold subCell
      simp only [h.members_eq, hrows]

theorem getElem?_groupKey (hx : x.plan.filled.Perm (List.range x.plan.outputs.length))
    (hy : y.plan.filled.Perm (List.range y.plan.outputs.length)) {k : GroupKey}
    (hk : k ∈ x.plan.groupKeys) (hb : Binding.Agree aliases b b') (roots : List Row)
    (text : String) :
    ∃ v, (tuple x.plan (groupValues x.plan b) (x.totals roots text))[k.outputIndex]? = some v ∧
      (tuple y.plan (groupValues y.plan b') (y.totals roots text))[k.outputIndex]? = some v := by
  refine ⟨Outcome.getD (groupValue k.bucket (b.value? k.column)) .null,
    x.getElem?_tuple_totals _ _ hx b ?_, y.getElem?_tuple_totals _ _ hy b' ?_⟩
  · rw [filling, groupValues, zip_map_self, List.map_map]
    exact List.mem_append_left _ (List.mem_map.2 ⟨k, hk, rfl⟩)
  · rw [filling, h.groupValues_eq hb, h.groupKeys, groupValues, zip_map_self, List.map_map]
    exact List.mem_append_left _ (List.mem_map.2 ⟨k, hk, rfl⟩)

/-- What holds of the tuples of a group in two runs holds of their results. -/
theorem result {T : Tuple → Tuple → Prop}
    (hT : ∀ roots text b b', Binding.Agree aliases b b' →
      T (tuple x.plan (groupValues x.plan b) (x.totals roots text))
        (tuple y.plan (groupValues y.plan b') (y.totals roots text))) (roots : List Row) :
    List.Forall₂ T (x.result roots) (y.result roots) := by
  have hfirsts := forall₂_firsts (R := Binding.Agree aliases) (fun b b' hb => (h.groupText_eq hb).symm)
    (h.bindings roots)
  have hglobal : y.plan.isGlobal = x.plan.isGlobal := by
    unfold Plan.isGlobal
    rw [h.groupKeys]
  unfold Run.result
  generalize firsts (groupText x.plan) (x.bindings roots) = bs at hfirsts ⊢
  generalize firsts (groupText y.plan) (y.bindings roots) = bs' at hfirsts ⊢
  cases hfirsts with
  | nil =>
    simp only [hglobal]
    split_ifs with hg
    · -- the only group has no values, and its accumulators are those of no root rows
      have hnil : x.plan.groupKeys = [] := List.isEmpty_iff.1 hg
      have hzero := hT [] "" [] [] fun _ _ => rfl
      simp only [groupValues, h.groupKeys, hnil, List.map_nil] at hzero
      exact .cons hzero .nil
    · exact .nil
  | cons hb hrest =>
    simp only
    rw [List.forall₂_map_left_iff, List.forall₂_map_right_iff]
    refine (List.Forall₂.cons hb hrest).imp fun b b' hb => ?_
    rw [h.groupText_eq hb]
    exact hT roots _ b b' hb

end Alike

end Run

end Tabulation.Evaluation
