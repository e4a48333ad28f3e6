import Tabulation.Proofs.Evaluation.Groups
import Tabulation.Proofs.Plan.Outputs

/-! The cells of result tuples. In the tuples of a compiled plan each of them holds the value of one
group key or of one aggregate. -/
namespace Tabulation.Evaluation
open Json (Value)
open Plan (Aggregate SubExpression)

/-- The values that go into a tuple, with their places. -/
def filling (p : Plan) (key : List Value) (totals : Totals) : List (Nat × Value) :=
  (p.groupKeys.zip key).map (fun k => (k.1.outputIndex, k.2)) ++ totals.cells p

lemma length_foldl_set (cells : List (Nat × Value)) (t : Tuple) :
    (cells.foldl (fun t cell => t.set cell.1 cell.2) t).length = t.length := by
  induction cells generalizing t with
  | nil => rfl
  | cons cell cells ih => rw [List.foldl_cons, ih, List.length_set]

lemma length_tuple (p : Plan) (key : List Value) (totals : Totals) :
    (tuple p key totals).length = p.outputs.length := by
  simp [tuple, length_foldl_set]

lemma getElem?_foldl_set_of_not_mem {cells : List (Nat × Value)} {i : Nat}
    (h : i ∉ cells.map (·.1)) (t : Tuple) :
    (cells.foldl (fun t cell => t.set cell.1 cell.2) t)[i]? = t[i]? := by
  induction cells generalizing t with
  | nil => rfl
  | cons cell cells ih =>
    rw [List.map_cons, List.mem_cons, not_or] at h
    rw [List.foldl_cons, ih h.2, List.getElem?_set_ne (Ne.symm h.1)]

lemma getElem?_foldl_set {cells : List (Nat × Value)} {t : Tuple} {i : Nat} {v : Value}
    (hnodup : (cells.map (·.1)).Nodup) (h : (i, v) ∈ cells) (hi : i < t.length) :
    (cells.foldl (fun t cell => t.set cell.1 cell.2) t)[i]? = some v := by
  induction cells generalizing t with
  | nil => simp at h
  | cons cell cells ih =>
    rw [List.map_cons, List.nodup_cons] at hnodup
    rw [List.foldl_cons]
    rcases List.mem_cons.1 h with rfl | h
    · rw [getElem?_foldl_set_of_not_mem hnodup.1, List.getElem?_set_self hi]
    · exact ih hnodup.2 h (by rwa [List.length_set])

/-- A value that goes into a tuple is found at its place, unless another one goes there, too. -/
theorem getElem?_tuple {p : Plan} {key : List Value} {totals : Totals} {i : Nat} {v : Value}
    (hnodup : ((filling p key totals).map (·.1)).Nodup) (h : (i, v) ∈ filling p key totals)
    (hi : i < p.outputs.length) : (tuple p key totals)[i]? = some v :=
  getElem?_foldl_set hnodup h (by simpa using hi)

lemma zip_map_self {α β : Type} (xs : List α) (f : α → β) :
    xs.zip (xs.map f) = xs.map fun x => (x, f x) :=
  List.map_prod_left_eq_zip.symm

namespace Run

variable (x : Run) (roots : List Row) (text : String)

/-- A finished aggregate of the joined rows under a text, with its place. -/
def localCell (a : Aggregate) : Nat × Value :=
  (a.outputIndex, (tally a.function
    (valuesOf a ((x.bindings roots).filter fun b => groupText x.plan b = text))).finish)

/-- A finished aggregate of a sub-expression, with its place. -/
def subCell (s : SubExpression) (a : Aggregate) : Nat × Value :=
  (a.outputIndex, (((x.members roots text).map fun root =>
    tally a.function (valuesOf a (x.subRows s root))).foldl Accumulator.merge
      (.new a.function)).finish)

theorem cells_totals :
    (x.totals roots text).cells x.plan =
      x.plan.localAggregates.map (x.localCell roots text) ++
        x.plan.subExpressions.flatMap fun s => s.aggregates.map (x.subCell roots text s) := by
  unfold Totals.cells totals
  simp only [tallies, mergedTallies, zip_map_self, List.map_map, List.flatMap_map]
  rfl

lemma map_fst_filling (b : Binding) :
    (filling x.plan (groupValues x.plan b) (x.totals roots text)).map (·.1) = x.plan.filled := by
  unfold filling Plan.filled
  rw [cells_totals]
  simp only [groupValues, zip_map_self, List.map_append, List.map_map, List.map_flatMap]
  rfl

/-- In the tuples of a plan that fills every result column once, each value is found at its place. -/
theorem getElem?_tuple_totals (h : x.plan.filled.Perm (List.range x.plan.outputs.length))
    (b : Binding) {i : Nat} {v : Value}
    (hv : (i, v) ∈ filling x.plan (groupValues x.plan b) (x.totals roots text)) :
    (tuple x.plan (groupValues x.plan b) (x.totals roots text))[i]? = some v := by
  have hplaces := x.map_fst_filling roots text b
  refine getElem?_tuple (hplaces ▸ h.nodup_iff.2 List.nodup_range) hv ?_
  have hi : i ∈ x.plan.filled := hplaces ▸ List.mem_map.2 ⟨(i, v), hv, rfl⟩
  exact List.mem_range.1 (h.subset hi)

/-- The values of all groups, in their order. -/
def groups : List (List Value) :=
  (firsts (groupText x.plan) (x.bindings roots)).map (groupValues x.plan)

/-- In a result that is grouped, tuples tell the values of their groups. -/
theorem map_result (h : x.plan.filled.Perm (List.range x.plan.outputs.length))
    (hg : x.plan.isGlobal = false) :
    (x.result roots).map (fun t => x.plan.groupKeys.map fun k => t[k.outputIndex]?.getD .null) =
      x.groups roots := by
  have htuple : ∀ b, (x.plan.groupKeys.map fun k =>
      (tuple x.plan (groupValues x.plan b) (x.totals roots (groupText x.plan b)))[k.outputIndex]?.getD
        .null) = groupValues x.plan b := by
    intro b
    apply List.map_congr_left
    intro k hk
    have hmem : (k.outputIndex, Outcome.getD (groupValue k.bucket (b.value? k.column)) .null) ∈
        filling x.plan (groupValues x.plan b) (x.totals roots (groupText x.plan b)) := by
      rw [filling, groupValues, zip_map_self, List.map_map]
      exact List.mem_append_left _ (List.mem_map.2 ⟨k, hk, rfl⟩)
    rw [x.getElem?_tuple_totals roots _ h b hmem]
    rfl
  unfold result groups
  generalize firsts (groupText x.plan) (x.bindings roots) = bs
  cases bs with
  | nil => simp [hg]
  | cons b bs => simp only [List.map_map, Function.comp_def, htuple]

lemma result_eq_map_groups (hg : x.plan.isGlobal = false) :
    x.result roots = (x.groups roots).map fun values =>
      tuple x.plan values (x.totals roots (Comparison.groupKey (.array values))) := by
  unfold result groups
  cases firsts (groupText x.plan) (x.bindings roots) with
  | nil => simp [hg]
  | cons b bs => simp only [List.map_map]; rfl

lemma result_of_isGlobal (hg : x.plan.isGlobal = true) :
    x.result roots = [tuple x.plan [] (x.totals roots (Comparison.groupKey (.array [])))] := by
  have hnil : x.plan.groupKeys = [] := List.isEmpty_iff.1 hg
  have hvalues : ∀ b, groupValues x.plan b = [] := fun b => by rw [groupValues, hnil, List.map_nil]
  have htext : ∀ b, groupText x.plan b = Comparison.groupKey (.array []) := fun b => by
    rw [groupText, hvalues]
  unfold result
  cases hbs : x.bindings roots with
  | nil =>
    have hmembers : x.members roots (Comparison.groupKey (.array [])) = [] := by
      rw [members, List.filter_eq_nil_iff]
      intro root hroot hany
      obtain ⟨b, hb, -⟩ := List.any_eq_true.1 hany
      have hmem : b ∈ x.bindings roots := List.mem_flatMap.2 ⟨root, hroot, hb⟩
      simp [hbs] at hmem
    have hzero : x.totals roots (Comparison.groupKey (.array [])) = .zero x.plan := by
      rw [totals, hbs, hmembers]
      rfl
    simp [firsts, hg, hzero]
  | cons b bs =>
    rw [firsts_of_same fun d _ => (htext d).trans (htext b).symm]
    simp [hvalues, htext]

end Run

end Tabulation.Evaluation
