import Tabulation.Proofs.Plan.Layout

/-! The check of a query against the catalog: which queries pass it, and what it finds of their
columns. -/
namespace Tabulation.Plan
open Catalog (Column ColumnRole DataKind)
open Query (Model Involved Projection Aggregation Filter OrderingColumn Operation)
open Outcome

/-- An entity type takes part in a query for columns in a role. -/
def TakesPart (involved : Involved) (entity : EntityType) : ColumnRole → Prop
  | .projection => involved.contains .axis entity
  | .aggregation => involved.contains .measure entity
  | .filter => involved.contains .filter entity
  | .ordering => involved.contains .axis entity ∨ involved.contains .measure entity

/-- The label names a column that may be used in the role. -/
structure Usable (catalog : Catalog) (involved : Involved) (role : ColumnRole) (label : String)
    (column : Column) : Prop where
  named : catalog.column? label = some column
  supports : column.supports role
  takesPart : TakesPart involved column.entity role

/-- A query of columns that may be used as they are. -/
structure Checkable (catalog : Catalog) (m : Model) : Prop where
  nonempty : m.projections ≠ [] ∨ m.aggregations ≠ []
  projection : ∀ p ∈ m.projections, ∃ column,
    Usable catalog m.involved .projection p.label column ∧ (p.bucket.isSome → column.kind = .date)
  aggregation : ∀ a ∈ m.aggregations, ∃ column,
    Usable catalog m.involved .aggregation a.label column ∧
      (a.function = .sum ∨ a.function = .avg → column.kind = .numeric)
  filter : ∀ f ∈ m.filters, ∃ column, Usable catalog m.involved .filter f.label column ∧
    (f.operation = .like → column.kind = .text ∨ column.kind = .enumerated) ∧
    (f.operation.isOrderedComparison → column.kind ≠ .boolean) ∧
    (f.isActive → f.operation.acceptsArity f.values.length)
  ordering : ∀ o ∈ m.orderings, ∃ column, Usable catalog m.involved .ordering o.label column ∧
    ((∃ p ∈ m.projections, p.label = o.label) ∨ ∃ a ∈ m.aggregations, a.label = o.label)

variable {catalog : Catalog} {m : Model} {c : Checked}

lemma takesPart_iff {involved : Involved} {entity : EntityType} {role : ColumnRole} :
    TakesPart involved entity role ↔ (involvedRoles role).any (involved.contains · entity) := by
  cases role <;> simp [TakesPart, involvedRoles]

lemma lookUp_eq_ok_iff {involved : Involved} {role : ColumnRole} {label : String} {column : Column} :
    lookUp catalog involved role label = .ok column ↔ Usable catalog involved role label column := by
  constructor
  · intro h
    have hnamed := lookUp_eq_ok h
    simp only [lookUp, hnamed] at h
    split_ifs at h with hsupports hinvolved
    exact ⟨hnamed, hsupports, takesPart_iff.2 hinvolved⟩
  · intro h
    have hinvolved := takesPart_iff.1 h.takesPart
    simp [lookUp, h.named, h.supports, hinvolved]

lemma fits_iff {op : Operation} {kind : DataKind} : fits op kind ↔
    (op = .like → kind = .text ∨ kind = .enumerated) ∧
      (op.isOrderedComparison → kind ≠ .boolean) := by
  have hordered : kind.isOrdered ↔ kind ≠ .boolean := by cases kind <;> decide
  unfold fits
  split
  · simp [Operation.isOrderedComparison]
  · rename_i hlike
    simp only [decide_eq_true_eq, hordered, ← imp_iff_not_or]
    exact ⟨fun h => ⟨fun he => absurd he hlike, h⟩, And.right⟩

lemma exists_checkProjection_iff {p : Projection} :
    (∃ f, checkProjection catalog m.involved p = .ok f) ↔ ∃ column,
      Usable catalog m.involved .projection p.label column ∧
        (p.bucket.isSome → column.kind = .date) := by
  simp only [checkProjection, exists_bind_eq_ok, exists_unless_eq_ok, lookUp_eq_ok_iff, not_and,
    not_not]

lemma exists_checkAggregation_iff {a : Aggregation} :
    (∃ f, checkAggregation catalog m.involved a = .ok f) ↔ ∃ column,
      Usable catalog m.involved .aggregation a.label column ∧
        (a.function = .sum ∨ a.function = .avg → column.kind = .numeric) := by
  have hfunction : a.function.requiresNumeric ↔ a.function = .sum ∨ a.function = .avg := by
    cases a.function <;> simp [Query.AggregateFn.requiresNumeric]
  simp only [checkAggregation, exists_bind_eq_ok, exists_unless_eq_ok, lookUp_eq_ok_iff, hfunction,
    not_and, not_not]

lemma exists_checkFilter_iff {f : Filter} :
    (∃ x, checkFilter catalog m.involved f = .ok x) ↔ ∃ column,
      Usable catalog m.involved .filter f.label column ∧
        (f.operation = .like → column.kind = .text ∨ column.kind = .enumerated) ∧
        (f.operation.isOrderedComparison → column.kind ≠ .boolean) ∧
        (f.isActive → f.operation.acceptsArity f.values.length) := by
  simp only [checkFilter, exists_bind_eq_ok, lookUp_eq_ok_iff]
  refine exists_congr fun column => and_congr_right fun _ => ?_
  rw [← and_assoc, ← fits_iff]
  by_cases hfits : fits f.operation column.kind
  · simp only [hfits, not_true, if_false, exists_unless_eq_ok, not_and, not_not, true_and]
  · simp [hfits]

lemma exists_checkOrdering_iff {labels : List String} {o : OrderingColumn} :
    (∃ x, checkOrdering catalog m.involved labels o = .ok x) ↔
      ∃ column, Usable catalog m.involved .ordering o.label column ∧ o.label ∈ labels := by
  simp only [checkOrdering, exists_bind_eq_ok, lookUp_eq_ok_iff]
  refine exists_congr fun column => and_congr_right fun _ => ?_
  cases hplace : labels.idxOf? o.label with
  | none => simpa using List.idxOf?_eq_none_iff.1 hplace
  | some place => simpa using List.isSome_idxOf?.1 (hplace ▸ rfl)

/-- The check passes the queries whose columns may be used as they are. -/
theorem exists_check_iff : (∃ c, check catalog m = .ok c) ↔ Checkable catalog m := by
  have hlabels : ∀ label, label ∈ m.projections.map (·.label) ++ m.aggregations.map (·.label) ↔
      (∃ p ∈ m.projections, p.label = label) ∨ ∃ a ∈ m.aggregations, a.label = label := by simp
  constructor
  · rintro ⟨c, h⟩
    have hm := of_check h
    obtain ⟨filters, hfilters, -⟩ := hm.filters
    refine ⟨?_, fun p hp => ?_, fun a ha => ?_, fun f hf => ?_, fun o ho => ?_⟩
    · by_contra hempty
      have hnil : m.projections.isEmpty ∧ m.aggregations.isEmpty := by simpa using hempty
      simp only [check, if_pos hnil] at h
      cases h
    · exact exists_checkProjection_iff.1 (exists_mapM_eq_ok.1 ⟨_, hm.projections⟩ p hp)
    · exact exists_checkAggregation_iff.1 (exists_mapM_eq_ok.1 ⟨_, hm.aggregations⟩ a ha)
    · exact exists_checkFilter_iff.1 (exists_mapM_eq_ok.1 ⟨_, hfilters⟩ f hf)
    · simp only [← hlabels]
      exact exists_checkOrdering_iff.1 (exists_mapM_eq_ok.1 ⟨_, hm.orderings⟩ o ho)
  · intro h
    obtain ⟨projections, hprojections⟩ := exists_mapM_eq_ok.2 fun p hp =>
      exists_checkProjection_iff.2 (h.projection p hp)
    obtain ⟨aggregations, haggregations⟩ := exists_mapM_eq_ok.2 fun a ha =>
      exists_checkAggregation_iff.2 (h.aggregation a ha)
    obtain ⟨filters, hfilters⟩ := exists_mapM_eq_ok.2 fun f hf =>
      exists_checkFilter_iff.2 (h.filter f hf)
    have hordering := h.ordering
    simp only [← hlabels] at hordering
    obtain ⟨orderings, horderings⟩ := exists_mapM_eq_ok.2 fun o ho =>
      exists_checkOrdering_iff.2 (hordering o ho)
    have hsome : ¬ (m.projections.isEmpty ∧ m.aggregations.isEmpty) := by
      simpa [imp_iff_not_or] using h.nonempty
    rw [check, if_neg hsome]
    exact ⟨_, bind_eq_ok.2 ⟨_, hprojections, bind_eq_ok.2 ⟨_, haggregations,
      bind_eq_ok.2 ⟨_, hfilters, bind_eq_ok.2 ⟨_, horderings, rfl⟩⟩⟩⟩⟩

/-- The catalog columns that labels name. -/
def Finds {α : Type} (catalog : Catalog) (label : α → String) (xs : List α) (fs : List (Found α)) : Prop :=
  List.Forall₂ (fun x f => f.use = x ∧ catalog.column? (label x) = some f.column) xs fs

namespace Finds

variable {α : Type} {label : α → String} {xs : List α} {fs : List (Found α)}

lemma map_use (h : Finds catalog label xs fs) : fs.map (·.use) = xs := by
  induction h with
  | nil => rfl
  | cons hf _ ih => rw [List.map_cons, hf.1, ih]

end Finds

namespace Checked.Of

variable (h : Checked.Of catalog m c)
include h

lemma finds_projections : Finds catalog Projection.label m.projections c.projections :=
  (mapM_eq_ok.1 h.projections).imp fun _ _ => column?_of_checkProjection

lemma finds_aggregations : Finds catalog Aggregation.label m.aggregations c.aggregations :=
  (mapM_eq_ok.1 h.aggregations).imp fun _ _ => column?_of_checkAggregation

lemma finds_filters : Finds catalog Filter.label (m.filters.filter (·.isActive)) c.filters := by
  obtain ⟨found, hfound, hactive⟩ := h.filters
  have hall : Finds catalog Filter.label m.filters found :=
    (mapM_eq_ok.1 hfound).imp fun _ _ => column?_of_checkFilter
  rw [hactive]
  exact List.rel_filter (fun f x hx => by simp only [hx.1]) hall

lemma outputs_eq : c.outputs = m.projections.map (fun p => ⟨p.label, p.label, .projection⟩) ++
    m.aggregations.map fun a => ⟨a.outputName, a.label, .aggregation⟩ := by
  conv_rhs => rw [← h.finds_projections.map_use, ← h.finds_aggregations.map_use]
  simp [outputs, Function.comp_def]

end Checked.Of

end Tabulation.Plan
