import Tabulation.Plan.Explanation
import Tabulation.Proofs.Evaluation.Cells
import Tabulation.Proofs.Evaluation.Success
import Tabulation.Proofs.Plan.WellFormed

/-! What becomes of a compiled plan's result columns: a tuple has one value for each, and a statement
selects each once. -/
namespace Tabulation

lemma filterMap_range_getElem? {α : Type} (xs : List α) :
    (List.range xs.length).filterMap (xs[·]?) = xs := by
  have hmap : (List.range xs.length).map (xs[·]?) = xs.map some :=
    List.ext_getElem (by simp) fun i hi _ => by
      rw [List.length_map, List.length_range] at hi
      simp [hi]
  calc (List.range xs.length).filterMap (xs[·]?)
      = ((List.range xs.length).map (xs[·]?)).filterMap id := by
        rw [List.filterMap_map, Function.id_comp]
    _ = xs := by rw [hmap]; simp

namespace Plan

/-- The expressions that a statement selects, each with its result column. -/
def selected (p : Plan) : List (String × Nat) :=
  p.groupKeys.map (fun k => (k.render, k.outputIndex)) ++
    (p.localAggregates.map (fun a => (a.render, a.outputIndex)) ++
      p.subExpressions.zipIdx.flatMap fun s =>
        s.1.aggregates.map fun a => (a.renderMerge (subName s.2), a.outputIndex))

lemma map_snd_selected (p : Plan) : p.selected.map (·.2) = p.filled := by
  have hsubs : (p.subExpressions.zipIdx.flatMap fun s => s.1.aggregates.map (·.outputIndex)) =
      p.subExpressions.flatMap fun s => s.aggregates.map (·.outputIndex) := by
    conv_rhs => rw [← List.zipIdx_map_fst 0 p.subExpressions, List.flatMap_map]
  simp only [selected, filled, List.map_append, List.map_map, List.map_flatMap, Function.comp_def,
    hsubs]

lemma head?_statementLines (p : Plan) : (statementLines p).head? =
    some ("SELECT " ++ join ", " (p.selected.map fun s => renderNamed p s.1 s.2)) := by
  simp [statementLines, selected, List.map_append, List.map_flatMap, Function.comp_def,
    List.append_assoc]

/-- Where all columns are filled once, a statement selects each of them once, under its name. -/
theorem statement_selects {p : Plan} (h : p.filled.Perm (List.range p.outputs.length)) :
    ∃ named : List (String × Output), (named.map (·.2)).Perm p.outputs ∧
      (statementLines p).head? =
        some ("SELECT " ++ join ", " (named.map fun n => s!"{n.1} AS \"{n.2.name}\"")) := by
  refine ⟨p.selected.filterMap fun s => p.outputs[s.2]?.map fun o => (s.1, o), ?_, ?_⟩
  · have hperm := h.filterMap (p.outputs[·]?)
    rw [filterMap_range_getElem?, ← map_snd_selected, List.filterMap_map] at hperm
    rw [List.map_filterMap]
    simpa [Function.comp_def] using hperm
  · rw [head?_statementLines, List.map_filterMap, ← List.filterMap_eq_map]
    congr 3
    refine List.filterMap_congr fun s hs => ?_
    have hlt : s.2 < p.outputs.length := by
      have hmem : s.2 ∈ p.filled := p.map_snd_selected ▸ List.mem_map_of_mem hs
      exact List.mem_range.1 (h.subset hmem)
    simp [renderNamed, hlt]

end Plan

namespace Evaluation
open Json (Value)
open Query (Model)
open Plan (Output compile statementLines join)

lemma Run.mem_result {x : Run} {roots : List Row} {t : Tuple} (h : t ∈ x.result roots) :
    ∃ b text, t = tuple x.plan (groupValues x.plan b) (x.totals roots text) := by
  cases hg : x.plan.isGlobal with
  | true =>
    have hnil : x.plan.groupKeys = [] := List.isEmpty_iff.1 hg
    rw [x.result_of_isGlobal roots hg, List.mem_singleton] at h
    exact ⟨[], _, by rw [h, groupValues, hnil, List.map_nil]⟩
  | false =>
    rw [x.result_eq_map_groups roots hg] at h
    obtain ⟨values, hvalues, rfl⟩ := List.mem_map.1 h
    obtain ⟨b, -, rfl⟩ := List.mem_map.1 hvalues
    exact ⟨b, _, rfl⟩

/-- Each tuple of a plan that fills every column once is written cell by cell, without any left out or
written twice. -/
theorem tuple_filled {tables : Tables} {specials : Specials} {p : Plan} {ts : List Tuple}
    (h : p.filled.Perm (List.range p.outputs.length)) (hts : evaluate tables specials p = .ok ts)
    {t : Tuple} (ht : t ∈ ts) : ∃ key totals, t = tuple p key totals ∧ t.length = p.outputs.length ∧
      ((filling p key totals).map (·.1)).Perm (List.range p.outputs.length) ∧
      ∀ cell ∈ filling p key totals, t[cell.1]? = some cell.2 := by
  let x : Run := ⟨tables, specials, p⟩
  obtain ⟨-, -, hsort⟩ := evaluate_eq_ok (x := x) hts
  have hmem : t ∈ x.result x.roots := by
    rw [hsort] at ht
    exact (List.mergeSort_perm _ _).subset ht
  obtain ⟨b, text, rfl⟩ := Run.mem_result hmem
  have hplaces := x.map_fst_filling x.roots text b
  exact ⟨_, _, rfl, length_tuple .., hplaces ▸ h,
    fun cell hcell => x.getElem?_tuple_totals x.roots text h b hcell⟩

/-- Compiled plans are well-formed. Their tuples have one cell for every result column, each written
once, and their statements select every result column once. -/
theorem compile_wellFormed {declarations : Catalog.Declarations} {catalog : Catalog} {m : Model}
    {scope : Scope.Resolved} {sort : Sorting.Criteria} {p : Plan}
    (hbuild : Catalog.build declarations = .ok catalog) (hp : compile catalog m scope sort = .ok p) :
    p.WellFormed ∧
    (∀ tables specials ts, evaluate tables specials p = .ok ts → ∀ t ∈ ts, ∃ key totals,
      t = tuple p key totals ∧ t.length = p.outputs.length ∧
        ((filling p key totals).map (·.1)).Perm (List.range p.outputs.length) ∧
        ∀ cell ∈ filling p key totals, t[cell.1]? = some cell.2) ∧
    ∃ named : List (String × Output), (named.map (·.2)).Perm p.outputs ∧
      (statementLines p).head? =
        some ("SELECT " ++ join ", " (named.map fun n => s!"{n.1} AS \"{n.2.name}\"")) := by
  have hwell := Plan.wellFormed_of_compile (Catalog.wellFormed_build hbuild) hp
  exact ⟨hwell, fun tables specials ts hts t ht => tuple_filled hwell.filled hts ht,
    Plan.statement_selects hwell.filled⟩

/-- Tickets and notes per team: a name and two counts. -/
theorem compile_wellFormed_helpDesk :
    let m : Model := .perTeam "Team" ["TICKET_ID", "NOTE_ID"] [⟨"TICKET_STATE", .equals, [.string "open"]⟩]
    let t : Tuple := [.string "red", .ofNat 1, .ofNat 1]
    ∃ catalog p, Catalog.build Catalog.helpDesk = .ok catalog ∧
      compile catalog m .unrestricted [] = .ok p ∧ p.WellFormed ∧
      evaluate helpDesk .builtin p = .ok [t] ∧ (∃ cells : List (Nat × Value),
        (cells.map (·.1)).Perm [0, 1, 2] ∧ ∀ cell ∈ cells, t[cell.1]? = some cell.2) ∧
      ∃ named : List (String × Output), (named.map (·.2)).Perm p.outputs ∧
        (statementLines p).head? =
          some ("SELECT " ++ join ", " (named.map fun n => s!"{n.1} AS \"{n.2.name}\"")) := by
  intro m t
  obtain ⟨catalog, hbuild, h⟩ : ∃ catalog, Catalog.build Catalog.helpDesk = .ok catalog ∧
      ((compile catalog m .unrestricted []).toOption.any fun p =>
        Run.gives ⟨helpDesk, .builtin, p⟩ [t] && p.outputs.length = 3) :=
    Outcome.exists_of_any (by decide +kernel)
  obtain ⟨p, hp, h⟩ := Outcome.exists_of_any h
  obtain ⟨hgives, hlength⟩ := Bool.and_eq_true_iff.1 h
  have hts := evaluate_of_gives hgives
  obtain ⟨hwell, hcells, hnamed⟩ := compile_wellFormed hbuild hp
  obtain ⟨key, totals, -, -, hplaces, hvalues⟩ := hcells helpDesk .builtin [t] hts t List.mem_cons_self
  rw [of_decide_eq_true hlength] at hplaces
  exact ⟨catalog, p, hbuild, hp, hwell, hts, ⟨_, hplaces, hvalues⟩, hnamed⟩

end Evaluation

end Tabulation
