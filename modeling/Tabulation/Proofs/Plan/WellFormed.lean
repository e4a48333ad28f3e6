import Tabulation.Proofs.Plan.Binding
import Tabulation.Proofs.Plan.Checking
import Tabulation.Proofs.Plan.Outputs

/-! Well-formed plans, and that compiling gives no others. -/
namespace Tabulation.Plan
open Catalog (FanOutKey)
open Query (Model)
open Sorting (Criteria SortOrder TypedOrdering)
open Outcome

/-- Nested joins along which the columns can be read. -/
structure Serves (rootAlias : String) (joins : List Join) (columns : List ColumnRef) : Prop where
  nested : Nested rootAlias joins
  bound : ∀ c ∈ columns, Bound rootAlias joins c.aliasName

structure WellFormed (p : Plan) : Prop where
  main : Serves p.rootAlias p.joins (p.groupKeys.map (·.column) ++ p.localAggregates.map (·.column) ++
    p.predicates.map (·.column))
  subExpression : ∀ s ∈ p.subExpressions, Serves p.rootAlias s.joins
    (s.aggregates.map (·.column) ++ s.predicates.map (·.column))
  semiJoin : ∀ s ∈ p.semiJoins, Serves p.rootAlias s.joins (s.predicates.map (·.column))
  branch : ∀ b ∈ p.scope.getD [], Serves p.rootAlias b.joins [b.key]
  /-- Every result column is filled by one group key or one aggregate. -/
  filled : p.filled.Perm (List.range p.outputs.length)
  keysFirst : p.groupKeys.map (·.outputIndex) = List.range p.groupKeys.length
  fansOut : ∀ s ∈ p.subExpressions, s.key.hops ≠ []
  ascending : p.subExpressions.Pairwise fun s s' => compare s.key s'.key = .lt
  ordering : p.orderColumns.length = p.ordering.exprs.length
  inRange : ∀ i ∈ p.orderColumns, i < p.outputs.length

lemma length_exprs_ofCriteria (root : EntityType) (criteria : Criteria) :
    (TypedOrdering.ofCriteria root criteria).exprs.length = criteria.length := by
  cases criteria <;> simp [TypedOrdering.ofCriteria, TypedOrdering.exprs]

/-- Results are ordered by columns that they have. -/
lemma lt_of_orders {c : Checked} {outputs : List Output} {sort : Criteria} {os : List (Nat × SortOrder)}
    (h : orders c outputs sort = .ok os) (hc : ∀ o ∈ c.orderings, o.1 < outputs.length) :
    ∀ o ∈ os, o.1 < outputs.length := by
  obtain ⟨places, hplaces, h⟩ := bind_eq_ok.1 h
  cases h
  intro o ho
  rcases List.mem_append.1 ho with ho | ho
  · obtain ⟨x, hx, rfl⟩ := List.mem_map.1 ho
    exact hc x hx
  · obtain ⟨x, -, hx⟩ := exists_of_mem_mapM hplaces ho
    unfold sortColumn at hx
    split at hx
    · rename_i place hplace
      cases hx
      rcases Option.or_eq_some_iff.1 hplace with hplace | ⟨-, hplace⟩
      · exact (List.findIdx?_eq_some_iff_getElem.1 hplace).1
      · exact (List.findIdx?_eq_some_iff_getElem.1 hplace).1
    · cases hx

lemma Checked.Of.length_outputs {catalog : Catalog} {m : Model} {c : Checked} (h : Checked.Of catalog m c) :
    c.outputs.length = (m.projections.map (·.label) ++ m.aggregations.map (·.label)).length := by
  simp [h.outputs_eq]

lemma Checked.Of.ordering_lt {catalog : Catalog} {m : Model} {c : Checked} (h : Checked.Of catalog m c) :
    ∀ o ∈ c.orderings, o.1 < c.outputs.length := by
  intro o ho
  obtain ⟨x, -, hx⟩ := exists_of_mem_mapM h.orderings ho
  obtain ⟨-, -, hx⟩ := bind_eq_ok.1 hx
  split at hx
  · rename_i place hplace
    cases hx
    rw [h.length_outputs]
    exact (List.idxOf?_eq_some_iff.1 hplace).1
  · cases hx

/-- Joins that lead to columns serve to read them. -/
lemma LeadsTo.serves {catalog : Catalog} {root : EntityType} {joins : List Join} {columns : List ColumnRef}
    (h : LeadsTo catalog root joins columns) (hc : catalog.WellFormed) : Serves root.aliasName joins columns :=
  ⟨h.covers.nested, fun _ hcolumn => h.bound hc hcolumn⟩

namespace Layout

variable {catalog : Catalog} {c : Checked} {scope : Scope.Resolved} {os : List (Nat × SortOrder)}

lemma keys_ascending (l : Layout) :
    (l.plan catalog c scope os).subExpressions.Pairwise fun s s' => compare s.key s'.key = .lt := by
  simp only [plan]
  split_ifs
  · exact .nil
  · exact List.pairwise_map.2 (l.parts.ascending.filter _)

lemma key_fansOut (l : Layout) : ∀ s ∈ (l.plan catalog c scope os).subExpressions, s.key.hops ≠ [] := by
  intro s hs
  simp only [plan] at hs
  split_ifs at hs
  · simp at hs
  · obtain ⟨part, hpart, rfl⟩ := List.mem_map.1 hs
    have hroot := (List.mem_filter.1 hpart).2
    simpa [FanOutKey.isRoot, subExpression] using hroot

end Layout

/-- Compiling gives well-formed plans. -/
theorem wellFormed_of_compile {catalog : Catalog} (hc : catalog.WellFormed) {m : Model}
    {scope : Scope.Resolved} {sort : Criteria} {p : Plan} (h : compile catalog m scope sort = .ok p) :
    p.WellFormed := by
  have hfilled := filled_perm h
  obtain ⟨c, l, os, hm, -, hl, hos, rfl⟩ := exists_layout hc h
  have hlt := lt_of_orders hos hm.ordering_lt
  have hserves : ∀ list ∈ (l.plan catalog c scope os).joinLists,
      Serves l.root.aliasName list.1 list.2 := fun list hlist => (hl.leadsTo_joinLists hc list hlist).serves hc
  obtain ⟨hmain, hrest⟩ := List.forall_mem_cons.1 hserves
  simp only [List.forall_mem_append, List.forall_mem_map] at hrest
  obtain ⟨⟨hsubs, hsemi⟩, hbranches⟩ := hrest
  exact {
    main := ⟨hmain.nested, fun x hx => hmain.bound x (List.mem_cons_of_mem _ hx)⟩
    subExpression := hsubs
    semiJoin := hsemi
    branch := hbranches
    filled := hfilled
    keysFirst := by simp [Layout.plan, Function.comp_def, List.zipIdx_map_snd, List.range_eq_range']
    fansOut := l.key_fansOut
    ascending := l.keys_ascending
    ordering := by simp [Layout.plan, length_exprs_ofCriteria]
    inRange := fun i hi => by
      obtain ⟨o, ho, rfl⟩ := List.mem_map.1 hi
      exact hlt o ho }

end Tabulation.Plan
