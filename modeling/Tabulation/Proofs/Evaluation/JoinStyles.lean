import Tabulation.Proofs.Evaluation.Omission
import Tabulation.Proofs.Plan.Acceptance
import Tabulation.Proofs.Plan.ActiveFilters
import Tabulation.Proofs.Plan.WellFormed

/-! The inner and the outer plan of one partitioned query. They differ in one thing, which is what becomes
of a root row that some sub-expression has no rows for: the inner plan passes over it. -/
namespace Tabulation
open Query (Model JoinStyle)
open Outcome

namespace Query.Model

/-- The query in a join style. -/
def joined (m : Model) (style : JoinStyle) : Model := { m with joinStyle := style }

end Query.Model

namespace Plan

def SubExpression.withKind (kind : JoinKind) (s : SubExpression) : SubExpression := { s with joinKind := kind }

/-- The plan with all sub-expressions joined in one way. -/
def withKind (kind : JoinKind) (p : Plan) : Plan :=
  { p with subExpressions := p.subExpressions.map (·.withKind kind) }

section

variable {catalog : Catalog} {m : Model} {style : JoinStyle} {c : Checked} {scope : Scope.Resolved}
  {sort : Sorting.Criteria} {p : Plan}

/-- The check has nothing to do with the join style. -/
lemma check_joined (h : check catalog (m.joined style) = .ok c) (style' : JoinStyle) :
    check catalog (m.joined style') = .ok { c with joinStyle := style' } := by
  obtain ⟨hnonempty, hprojection, haggregation, hfilter, hordering⟩ := exists_check_iff.1 ⟨c, h⟩
  obtain ⟨c', hc'⟩ : ∃ c', check catalog (m.joined style') = .ok c' :=
    exists_check_iff.2 ⟨hnonempty, hprojection, haggregation, hfilter, hordering⟩
  have hm := of_check h
  have hm' := of_check hc'
  have hstrategy := hm'.strategy.trans hm.strategy.symm
  have hstyle : c'.joinStyle = style' := hm'.joinStyle
  have hroot := hm'.root.trans hm.root.symm
  have hprojections := Except.ok.inj (hm'.projections.symm.trans hm.projections)
  have haggregations := Except.ok.inj (hm'.aggregations.symm.trans hm.aggregations)
  have hfilters := hm'.finds_filters.unique hm.finds_filters
  have horderings := Except.ok.inj (hm'.orderings.symm.trans hm.orderings)
  rw [hc', ← hstrategy, ← hstyle, ← hroot, ← hprojections, ← haggregations, ← hfilters, ← horderings]

/-- In another join style, a partitioned query is compiled to the same plan but for how its
sub-expressions are joined. -/
theorem compile_joined (hm : m.strategy = .partitioned)
    (hp : compile catalog (m.joined style) scope sort = .ok p) (style' : JoinStyle) :
    compile catalog (m.joined style') scope sort = .ok (p.withKind (joinKind style')) := by
  obtain ⟨c, l, os, hc, hl, hos, rfl⟩ := layout_of_compile hp
  have hpartitioned : c.strategy = .partitioned := (of_check hc).strategy.trans hm
  rw [compile_of_layout (check_joined hc style') ⟨hl.root, hl.parts, hl.filters⟩ hos]
  simp [Layout.plan, withKind, hpartitioned, subExpression, SubExpression.withKind,
    Checked.outputs]

end

end Plan

namespace Evaluation
open Plan (SubExpression JoinKind)
open Storage (Fault)

def ReadySub.withKind (kind : JoinKind) (s : ReadySub) : ReadySub := { s with sub := s.sub.withKind kind }

/-- Whether every sub-expression has rows for a root row. -/
def Run.hasSubRows (x : Run) (root : Row) : Bool :=
  x.plan.subExpressions.all fun s => !(x.subRows s root).isEmpty

variable {tables : Tables} {specials : Specials} {p : Plan}

/-- What is made ready for a run is so for the plan with other join kinds, on whatever tables. -/
lemma Ready.Of.withKind {r : Ready} (h : r.Of ⟨tables, specials, p⟩) (tables' : Tables) (kind : JoinKind) :
    ∃ r' : Ready, r'.Of ⟨tables', specials, p.withKind kind⟩ ∧
      r'.subExpressions = r.subExpressions.map (·.withKind kind) := by
  refine ⟨⟨p.withKind kind, _, r.conditions, r.semiJoins, r.subExpressions.map (·.withKind kind)⟩,
    ⟨rfl, rfl, h.conditions, h.semiJoins, ?_⟩, rfl⟩
  have hsubs := mapM_eq_ok.1 h.subExpressions
  simp only [Plan.withKind, mapM_eq_ok, List.forall₂_map_left_iff, List.forall₂_map_right_iff]
  refine hsubs.imp fun s t hst => ?_
  obtain ⟨cs, hcs, rfl⟩ := map_eq_ok.1 hst
  exact map_eq_ok.2 ⟨cs, hcs, rfl⟩

/-- A root row that every sub-expression has rows for shares the same whatever the join kinds are. -/
theorem shares_withKind {tables' : Tables} {kind : JoinKind} {r r' : Ready} {root : Row}
    (h : r.Of ⟨tables, specials, p⟩) (h' : r'.Of ⟨tables', specials, p.withKind kind⟩)
    (hsubs : r'.subExpressions = r.subExpressions.map (·.withKind kind))
    (hreach : ∀ joins ⊆ allJoins p, tables'.reach p.rootAlias joins = tables.reach p.rootAlias joins)
    (hadmits : Run.admits ⟨tables', specials, p.withKind kind⟩ root = Run.admits ⟨tables, specials, p⟩ root)
    (hrows : Run.hasSubRows ⟨tables, specials, p⟩ root) : r'.shares root = r.shares root := by
  refine h.shares_congr h' rfl rfl hadmits ?_ ?_
  · have hmain := hreach _ (joins_subset_allJoins p)
    simp only [Run.mainRows, Run.rowsAlong, Plan.withKind, hmain]
  · rw [hsubs, List.forall₂_map_right_iff, List.forall₂_same]
    intro s hs
    have hmem : s.sub ∈ p.subExpressions := by
      have hmap := List.mem_map_of_mem (f := (·.sub)) hs
      rwa [h.map_sub] at hmap
    have hrows' : Run.subRows ⟨tables', specials, p.withKind kind⟩ (s.sub.withKind kind) root =
        Run.subRows ⟨tables, specials, p⟩ s.sub root := by
      have hsub := hreach _ (subJoins_subset_allJoins hmem)
      simp only [Run.subRows, Run.rowsAlong, Plan.withKind, SubExpression.withKind, hsub]
    have hsome : (Run.subRows ⟨tables, specials, p⟩ s.sub root).isEmpty = false := by
      simpa using List.all_eq_true.1 hrows s.sub hmem
    have hmem' : s.withKind kind ∈ r'.subExpressions := hsubs ▸ List.mem_map_of_mem hs
    rw [h'.partials_eq hmem', h.partials_eq hs]
    simp only [ReadySub.withKind, hrows', hsome, Bool.false_eq_true, false_and, if_false]
    rfl

/-- A root row shares nothing when an inner sub-expression has no rows for it. -/
lemma shares_of_not_hasSubRows {r : Ready} {root : Row} (h : r.Of ⟨tables, specials, p⟩)
    (hinner : ∀ s ∈ p.subExpressions, s.joinKind = .inner)
    (hrows : Run.hasSubRows ⟨tables, specials, p⟩ root = false) {ss : List Share}
    (hss : r.shares root = .ok ss) : ss = [] := by
  obtain ⟨rfl, -⟩ := h.shares_eq_ok hss
  obtain ⟨s, hs, hempty⟩ := List.all_eq_false.1 hrows
  have hdropped : Run.counts ⟨tables, specials, p⟩ root = false := by
    refine Bool.and_eq_false_iff.2 (.inr (List.all_eq_false.2 ⟨s, hs, ?_⟩))
    simpa [Run.keeps, hinner s hs] using hempty
  rw [Run.rootShares, if_neg (by simp [hdropped])]

/-- The inner plan of a partitioned query gives what the outer plan gives without the root rows that some
sub-expression has no rows for. -/
theorem inner_is_outer_without_childless {d : Catalog.Declarations} {catalog : Catalog}
    (hbuild : Catalog.build d = .ok catalog) {m : Model} (hm : m.strategy = .partitioned)
    {scope : Scope.Resolved} {sort : Sorting.Criteria}
    (hp : Plan.compile catalog (m.joined .inner) scope sort = .ok p) {ts : List Tuple}
    (hts : evaluate tables specials p = .ok ts) :
    ∃ q, Plan.compile catalog (m.joined .outer) scope sort = .ok q ∧
      evaluate (tables.keep p.root (Run.hasSubRows ⟨tables, specials, p⟩)) specials q = .ok ts := by
  refine ⟨p.withKind .left, Plan.compile_joined hm hp .outer, ?_⟩
  let x : Run := ⟨tables, specials, p⟩
  let kept := tables.keep p.root x.hasSubRows
  have htarget : ∀ j ∈ allJoins p, j.step.target ≠ p.root := by
    have hc := Catalog.wellFormed_build hbuild
    obtain ⟨c, l, os, -, -, hs, -, rfl⟩ := Plan.exists_layout hc hp
    exact hs.target_ne_root hc c scope os
  obtain ⟨r, hready, h⟩ := bind_eq_ok.1 hts
  obtain ⟨shares, hshares, -⟩ := bind_eq_ok.1 h
  have hr : r.Of x := ofPlan_eq_ok.1 hready
  obtain ⟨r', hr', hsubs⟩ := hr.withKind kept .left
  have hreach : ∀ joins ⊆ allJoins p, kept.reach p.rootAlias joins = tables.reach p.rootAlias joins :=
    fun joins hjoins => reach_keep (fun j hj => htarget j (hjoins hj)) tables x.hasSubRows p.rootAlias
  have hadmits : Run.admits ⟨kept, specials, p.withKind .left⟩ = x.admits := by
    have hrows : Run.admits ⟨kept, specials, p⟩ = x.admits :=
      Run.admits_of_rows specials fun j hj => by rw [rows_keep, if_neg (htarget j hj)]
    rw [← hrows]
    funext root
    exact Run.admits_congr rfl rfl rfl root
  have htuples : tuples (p.withKind .left) = tuples p := by
    refine tuples_congr rfl rfl ?_ rfl
    rw [Plan.withKind, List.map_map]
    rfl
  rw [← hts, eq_comm]
  refine evaluate_keep_eq_of_shares hr hr' rfl rfl htuples (fun root _ hrows => ?_) fun root hmem hrows => ?_
  · exact shares_withKind hr hr' hsubs hreach (congrFun hadmits root) hrows
  · obtain ⟨ss, -, hss⟩ := exists_mem_of_mapM hshares hmem
    rw [hss, shares_of_not_hasSubRows hr (Plan.joinKind_of_compile hp) hrows hss]

/-- The notes on tickets of each team, and its tickets. The blue team has neither, and is left out. -/
theorem inner_is_outer_without_childless_helpDesk :
    let m : Model := .perTeam "Team" ["TICKET_ID", "NOTE_ID"] []
    let ts : List Tuple := [[.string "red", .ofNat 2, .ofNat 3]]
    ∃ catalog p q, Catalog.build Catalog.helpDesk = .ok catalog ∧
      Plan.compile catalog (m.joined .inner) .unrestricted [] = .ok p ∧
      Plan.compile catalog (m.joined .outer) .unrestricted [] = .ok q ∧
      helpDesk.rows p.root ≠ (helpDesk.rows p.root).filter (Run.hasSubRows ⟨helpDesk, .builtin, p⟩) ∧
      evaluate helpDesk .builtin p = .ok ts ∧
      evaluate (helpDesk.keep p.root (Run.hasSubRows ⟨helpDesk, .builtin, p⟩)) .builtin q = .ok ts := by
  intro m ts
  obtain ⟨catalog, hbuild, h⟩ : ∃ catalog, Catalog.build Catalog.helpDesk = .ok catalog ∧
      (Plan.compile catalog (m.joined .inner) .unrestricted []).toOption.any fun p =>
        Run.gives ⟨helpDesk, .builtin, p⟩ ts && decide (helpDesk.rows p.root ≠
          (helpDesk.rows p.root).filter (Run.hasSubRows ⟨helpDesk, .builtin, p⟩)) :=
    exists_of_any (by decide +kernel)
  obtain ⟨p, hp, h⟩ := exists_of_any h
  obtain ⟨hgives, hchildless⟩ := Bool.and_eq_true_iff.1 h
  have hts := evaluate_of_gives hgives
  obtain ⟨q, hq, hkept⟩ := inner_is_outer_without_childless hbuild rfl hp hts
  exact ⟨catalog, p, q, hbuild, hp, hq, of_decide_eq_true hchildless, hts, hkept⟩

end Evaluation
end Tabulation
