import Mathlib.Data.List.Perm.Basic
import Tabulation.Proofs.Plan.Layout

/-! Where the values of a result go: every column of a plan's result has one source. -/
namespace Tabulation
open Catalog (FanOutKey)
open Query (Model)
open Outcome

namespace Plan

/-- The result columns that group keys and aggregates fill. -/
def filled (p : Plan) : List Nat :=
  p.groupKeys.map (·.outputIndex) ++ (p.localAggregates.map (·.outputIndex) ++
    p.subExpressions.flatMap fun s => s.aggregates.map (·.outputIndex))

lemma map_outputIndex_aggregates (offset : Nat) (part : Partition) :
    (aggregates offset part).map (·.outputIndex) = (part.map (·.1)).map (offset + ·) := by
  simp [aggregates, Function.comp_def]

namespace Layout

variable {l : Layout} {catalog : Catalog} {c : Checked} {scope : Scope.Resolved}
  {os : List (Nat × Sorting.SortOrder)}

lemma filled_plan (l : Layout) (catalog : Catalog) (c : Checked) (scope : Scope.Resolved)
    (os : List (Nat × Sorting.SortOrder)) :
    (l.plan catalog c scope os).filled = List.range l.projections.length ++
      ((l.near ++ l.far.flatMap (·.2)).map (·.1)).map (l.projections.length + ·) := by
  have hkeys : (l.plan catalog c scope os).groupKeys.map (·.outputIndex) =
      List.range l.projections.length := by
    simp [plan, Function.comp_def, List.zipIdx_map_snd, List.range_eq_range']
  unfold filled
  rw [hkeys]
  congr 1
  by_cases hflat : c.strategy = .flat
  · simp [plan, hflat, map_outputIndex_aggregates, List.map_flatMap, Function.comp_def]
  · simp [plan, hflat, subExpression, map_outputIndex_aggregates, List.map_flatMap,
      List.flatMap_map, Function.comp_def]

lemma near_append_far_perm (l : Layout) :
    (l.near ++ l.far.flatMap (·.2)).Perm (l.parts.entries.flatMap (·.2)) := by
  unfold near far
  rw [← List.flatMap_append]
  have hperm := List.filter_append_perm (fun part : FanOutKey × Partition => part.1.isRoot)
    l.parts.entries
  refine List.Perm.flatMap_right _ ?_
  simpa using hperm

lemma Of.length_projections (h : Of catalog c l) : l.projections.length = c.projections.length :=
  (mapM_eq_ok.1 (path?_of_chooseRoot h.root)).length_eq.symm

end Layout

/-- Every result column is filled, and by one group key or aggregate only. -/
theorem filled_perm {catalog : Catalog} {m : Model} {scope : Scope.Resolved}
    {sort : Sorting.Criteria} {p : Plan} (h : compile catalog m scope sort = .ok p) :
    p.filled.Perm (List.range p.outputs.length) := by
  obtain ⟨c, l, os, -, hl, -, rfl⟩ := layout_of_compile h
  obtain ⟨placed, hplaced, hparts, -⟩ := partition_eq_ok.1 hl.parts
  have hlength := (mapM_eq_ok.1 hplaced).length_eq
  have houtputs : (l.plan catalog c scope os).outputs.length =
      l.projections.length + placed.length := by
    simp [Layout.plan, Checked.outputs, hl.length_projections, hlength]
  rw [Layout.filled_plan, houtputs, List.range_add]
  refine List.Perm.append_left _ (List.Perm.map _ ?_)
  refine (l.near_append_far_perm.map _).trans ?_
  rw [hparts]
  exact places_partsOf placed

/-- The result columns that group keys fill are projections. -/
lemma kind_of_groupKey {catalog : Catalog} {m : Model} {scope : Scope.Resolved} {sort : Sorting.Criteria}
    {p : Plan} (h : compile catalog m scope sort = .ok p) {k : GroupKey} (hk : k ∈ p.groupKeys) :
    ∃ o, p.outputs[k.outputIndex]? = some o ∧ o.kind = .projection := by
  obtain ⟨c, l, os, -, hl, -, rfl⟩ := layout_of_compile h
  obtain ⟨x, hx, rfl⟩ := List.mem_map.1 hk
  have hplace : x.2 < c.projections.length := by
    rw [← hl.length_projections]
    simpa using (List.mem_zipIdx hx).2.1
  refine ⟨⟨c.projections[x.2].use.label, c.projections[x.2].use.label, .projection⟩, ?_, rfl⟩
  simp only [Layout.plan, Checked.outputs]
  rw [List.getElem?_append_left (by simpa using hplace), List.getElem?_map, List.getElem?_eq_getElem hplace]
  rfl

end Plan

end Tabulation
