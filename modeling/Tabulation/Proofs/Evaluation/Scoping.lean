import Tabulation.Proofs.Evaluation.Alike
import Tabulation.Proofs.Evaluation.Chains
import Tabulation.Proofs.Evaluation.Omission
import Tabulation.Proofs.Plan.Filters

/-! What scope and filters do to root rows. Which of them a plan admits is a matter of chains of rows, and
a plan without scope and semi-joins gives the same for the rows that are admitted. -/
namespace Tabulation
open Catalog (Column FanOutKey Step)
open Plan (Layout Predicate)
open Query (Filter Model)
open Scope (Resolved)

namespace Evaluation

/-- A row is a leaf that is listed under its entity type. -/
def Listed (catalog : Catalog) (entity : EntityType) (ids : OrderedSet EntityId) (row : Row) : Prop :=
  ∃ id ∈ (row.get? (catalog.forest.primaryKey entity)).bind identifier?, id ∈ ids.toList

instance (catalog : Catalog) (entity : EntityType) (ids : OrderedSet EntityId) :
    DecidablePred (Listed catalog entity ids) := fun row =>
  inferInstanceAs (Decidable (∃ id ∈ (row.get? (catalog.forest.primaryKey entity)).bind identifier?,
    id ∈ ids.toList))

/-- A chain from a row leads to a leaf that is listed for an entity type connected to its own. -/
def Tables.LeadsToListed (tables : Tables) (catalog : Catalog) (root : EntityType) (row : Row)
    (e : EntityType × OrderedSet EntityId) : Prop :=
  ∃ path ∈ catalog.path? root e.1, ∃ last, tables.Chain path row last ∧ Listed catalog e.1 e.2 last

instance (tables : Tables) (catalog : Catalog) (root : EntityType) (row : Row) :
    DecidablePred (tables.LeadsToListed catalog root row) := fun e =>
  inferInstanceAs (Decidable (∃ path ∈ catalog.path? root e.1, ∃ last,
    tables.Chain path row last ∧ Listed catalog e.1 e.2 last))

/-- The scope lists a leaf to which a row leads, unless it is unrestricted. -/
def Tables.InScope (tables : Tables) (catalog : Catalog) (root : EntityType) (row : Row) :
    Resolved → Prop
  | .unrestricted => True
  | .restricted leaves => ∃ e ∈ leaves.entries, tables.LeadsToListed catalog root row e

instance (tables : Tables) (catalog : Catalog) (root : EntityType) (row : Row) :
    (scope : Resolved) → Decidable (tables.InScope catalog root row scope)
  | .unrestricted => .isTrue trivial
  | .restricted leaves =>
    inferInstanceAs (Decidable (∃ e ∈ leaves.entries, tables.LeadsToListed catalog root row e))

/-- A row satisfies a filter on a column of its entity type. -/
def Satisfies (specials : Specials) (f : Filter) (column : Column) (row : Row) : Prop :=
  ∃ condition ∈ (Condition.prepare specials (.on f column)).toOption,
    condition.holds (row.get? column.field) = true

instance (specials : Specials) (f : Filter) (column : Column) :
    DecidablePred (Satisfies specials f column) := fun row =>
  inferInstanceAs (Decidable (∃ condition ∈ (Condition.prepare specials (.on f column)).toOption,
    condition.holds (row.get? column.field) = true))

/-- A row satisfies all active filters on its entity type at once. -/
def SatisfiesAll (specials : Specials) (catalog : Catalog) (m : Model) (entity : EntityType)
    (row : Row) : Prop :=
  ∀ f ∈ m.filters, f.isActive → ∀ column ∈ catalog.column? f.label, column.entity = entity →
    Satisfies specials f column row

instance (specials : Specials) (catalog : Catalog) (m : Model) (entity : EntityType) :
    DecidablePred (SatisfiesAll specials catalog m entity) := fun row =>
  inferInstanceAs (Decidable (∀ f ∈ m.filters, f.isActive → ∀ column ∈ catalog.column? f.label,
    column.entity = entity → Satisfies specials f column row))

/-- For every entity type that is filtered and to which the path fans out, a chain from a row leads to
one that satisfies all filters on it. -/
def Tables.PassesFilters (tables : Tables) (specials : Specials) (catalog : Catalog) (m : Model)
    (root : EntityType) (row : Row) : Prop :=
  ∀ f ∈ m.filters, f.isActive → ∀ column ∈ catalog.column? f.label,
    ∀ path ∈ catalog.path? root column.entity, ¬ (FanOutKey.ofSteps path).isRoot →
      ∃ last, tables.Chain path row last ∧ SatisfiesAll specials catalog m column.entity last

instance (tables : Tables) (specials : Specials) (catalog : Catalog) (m : Model) (root : EntityType) :
    DecidablePred (tables.PassesFilters specials catalog m root) := fun row =>
  inferInstanceAs (Decidable (∀ f ∈ m.filters, f.isActive → ∀ column ∈ catalog.column? f.label,
    ∀ path ∈ catalog.path? root column.entity, ¬ (FanOutKey.ofSteps path).isRoot →
      ∃ last, tables.Chain path row last ∧ SatisfiesAll specials catalog m column.entity last))

section

variable {catalog : Catalog} {m : Model} {c : Plan.Checked} {l : Layout} {tables : Tables}
  {specials : Specials} {row : Row}

/-- A branch of the scope leads to what it lists. -/
lemma any_listed_iff (hc : catalog.WellFormed) (ha : catalog.DistinctAliases)
    {root e : EntityType} {path : List Step} (hp : catalog.path? root e = some path)
    (ids : OrderedSet EntityId) (row : Row) :
    ((tables.reach root.aliasName (Plan.addInner [] path) row).any fun b =>
        ((b.value? (.primaryKey catalog e)).bind identifier?).any (ids.contains ·)) ↔
      ∃ last, tables.Chain path row last ∧ Listed catalog e ids last := by
  refine (any_reach_iff hc ha hp row fun found =>
    ((found.bind (·.get? (catalog.forest.primaryKey e))).bind identifier?).any (ids.contains ·)).trans ?_
  refine exists_congr fun last => and_congr_right fun _ => ?_
  simp [Listed, Option.any_eq_true, OrderedSet.contains]

theorem inScope_iff (hc : catalog.WellFormed) (ha : catalog.DistinctAliases) (root : EntityType)
    (scope : Resolved) (row : Row) :
    (match Plan.scopeBranches catalog root scope with
      | none => true
      | some branches => branches.any fun branch =>
        (tables.reach root.aliasName branch.joins row).any fun b =>
          ((b.value? branch.key).bind identifier?).any (branch.ids.contains ·)) = true ↔
      tables.InScope catalog root row scope := by
  cases scope with
  | unrestricted => exact iff_of_true rfl trivial
  | restricted leaves =>
    simp only [Plan.scopeBranches, List.any_filterMap, Tables.InScope]
    rw [List.any_eq_true]
    refine exists_congr fun e => and_congr_right fun _ => ?_
    unfold Tables.LeadsToListed
    cases hp : catalog.path? root e.1 with
    | none => simp
    | some path => simpa using any_listed_iff hc ha hp e.2 row

/-- Predicates on one alias ask for the row bound to it only. -/
lemma satisfies_eq_all {predicates : List Predicate} {aliasName : String}
    (h : ∀ q ∈ predicates, q.column.aliasName = aliasName) (b : Binding) :
    satisfies specials predicates b = predicates.all fun q =>
      Outcome.getD ((Condition.prepare specials q).map fun condition =>
        condition.holds ((b.row? aliasName).bind (·.get? q.column.field))) false := by
  refine all_congr fun q hq => ?_
  cases hprepared : Condition.prepare specials q with
  | error e => rfl
  | ok condition =>
    rw [← h q hq, ← column_of_prepare hprepared]
    rfl

lemma satisfies_iff {f : Filter} {column : Column} :
    Outcome.getD ((Condition.prepare specials (.on f column)).map fun condition =>
      condition.holds (row.get? column.field)) false = true ↔ Satisfies specials f column row := by
  unfold Satisfies
  cases Condition.prepare specials (.on f column) with
  | error e => simp [Except.map, Outcome.getD, Except.toOption]
  | ok condition => simp [Except.map, Outcome.getD, Except.toOption]

/-- A semi-join asks for a chain to a row that satisfies all filters on its entity type. -/
lemma semiJoin_iff (hc : catalog.WellFormed) (ha : catalog.DistinctAliases) (hs : l.Sound catalog)
    (hm : Plan.Checked.Of catalog m c) (hl : Layout.Of catalog c l) {g : Plan.FannedFilters}
    (hg : g ∈ l.fanned) (row : Row) :
    (tables.reach l.root.aliasName (Plan.semiJoin g).joins row).any
        (satisfies specials (Plan.semiJoin g).predicates) ↔
      ∃ last, tables.Chain g.path row last ∧ SatisfiesAll specials catalog m g.entity last := by
  have halias : ∀ q ∈ g.predicates, q.column.aliasName = g.entity.aliasName := by
    intro q hq
    obtain ⟨f, -, -, column, -, hentity, rfl⟩ := (hs.mem_predicates hm hl hg).1 hq
    exact congrArg EntityType.aliasName hentity
  have hsatisfies : satisfies specials g.predicates = _ := funext (satisfies_eq_all halias)
  have hpath := (hs.fanned_path hg).1
  rw [Plan.semiJoin, hsatisfies]
  refine (any_reach_iff hc ha hpath row fun found =>
    g.predicates.all fun q => Outcome.getD ((Condition.prepare specials q).map fun condition =>
      condition.holds (found.bind (·.get? q.column.field))) false).trans ?_
  refine exists_congr fun last => and_congr_right fun _ => ?_
  rw [List.all_eq_true]
  constructor
  · intro h f hf hon column hlabel hentity
    exact satisfies_iff.1 (h _ ((hs.mem_predicates hm hl hg).2
      ⟨f, hf, hon, column, hlabel, hentity, rfl⟩))
  · intro h q hq
    obtain ⟨f, hf, hon, column, hlabel, hentity, rfl⟩ := (hs.mem_predicates hm hl hg).1 hq
    exact satisfies_iff.2 (h f hf hon column hlabel hentity)

/-- A plan admits the root rows that are in scope and pass the filters on what is fanned out. -/
theorem admits_iff (hc : catalog.WellFormed) (ha : catalog.DistinctAliases) (hs : l.Sound catalog)
    (hm : Plan.Checked.Of catalog m c) (hl : Layout.Of catalog c l) (scope : Resolved)
    (os : List (Nat × Sorting.SortOrder)) (row : Row) :
    Run.admits ⟨tables, specials, l.plan catalog c scope os⟩ row ↔
      tables.InScope catalog l.root row scope ∧
        tables.PassesFilters specials catalog m l.root row := by
  have hsemi : ((l.fanned.map Plan.semiJoin).all fun s =>
      !((tables.reach l.root.aliasName s.joins row).filter (satisfies specials s.predicates)).isEmpty) ↔
        tables.PassesFilters specials catalog m l.root row := by
    rw [List.all_map, List.all_eq_true]
    have hstep : ∀ g ∈ l.fanned, ((fun s : Plan.SemiJoin => !((tables.reach l.root.aliasName s.joins
        row).filter (satisfies specials s.predicates)).isEmpty) ∘ Plan.semiJoin) g = true ↔
          ∃ last, tables.Chain g.path row last ∧ SatisfiesAll specials catalog m g.entity last := by
      intro g hg
      rw [← semiJoin_iff hc ha hs hm hl hg]
      simp [List.filter_eq_nil_iff]
    constructor
    · intro h f hf hon column hlabel path hpath hfan
      obtain ⟨g, hg, hge, rfl⟩ := hs.exists_fanned hm hl hf hon hlabel hpath hfan
      rw [← hge]
      exact (hstep g hg).1 (h g hg)
    · intro h g hg
      obtain ⟨-, hne, -⟩ := Plan.mem_groupFilters hg
      obtain ⟨q, hq⟩ := List.exists_mem_of_ne_nil _ hne
      obtain ⟨f, hf, hon, column, hlabel, hentity, -⟩ := (hs.mem_predicates hm hl hg).1 hq
      obtain ⟨hpath, hfan⟩ := hs.fanned_path hg
      rw [← hentity] at hpath
      have hpasses := h f hf hon column hlabel g.path hpath hfan
      rw [hentity] at hpasses
      exact (hstep g hg).2 hpasses
  rw [Run.admits, Bool.and_eq_true]
  exact and_congr (inScope_iff hc ha l.root scope row) hsemi

end

/-- Scope and filters on what is fanned out do nothing but single out root rows: a plan gives what it
gives without them on the tables with those root rows that are in scope and pass the filters, be it
a result or a fault. -/
theorem scope_and_filters_single_out_roots {declarations : Catalog.Declarations} {catalog : Catalog}
    (built : Catalog.build declarations = .ok catalog) (aliases : catalog.DistinctAliases) {m : Model}
    {scope : Resolved} {sort : Sorting.Criteria} {p : Plan}
    (compiled : Plan.compile catalog m scope sort = .ok p) {tables : Tables} {specials : Specials}
    (prepares : Run.Prepares ⟨tables, specials, p⟩) :
    evaluate tables specials p =
      evaluate
        (tables.keep p.root fun row => tables.InScope catalog p.root row scope ∧
          tables.PassesFilters specials catalog m p.root row)
        specials { p with scope := none, semiJoins := [] } := by
  have hc := Catalog.wellFormed_build built
  obtain ⟨c, l, os, hm, hl, hs, -, rfl⟩ := Plan.exists_layout hc compiled
  have hadmits : ∀ row, Run.admits ⟨tables, specials, l.plan catalog c scope os⟩ row ↔
      tables.InScope catalog l.root row scope ∧ tables.PassesFilters specials catalog m l.root row :=
    admits_iff hc aliases hs hm hl scope os
  have hroot := hs.target_ne_root hc c scope os
  obtain ⟨r, hr⟩ := exists_ready_iff.2 prepares
  obtain ⟨r', hr'⟩ := exists_ready_iff.2 (⟨prepares.main, by simp, prepares.subExpressions⟩ :
    Run.Prepares ⟨tables.keep l.root fun row => tables.InScope catalog l.root row scope ∧
      tables.PassesFilters specials catalog m l.root row, specials,
      { l.plan catalog c scope os with scope := none, semiJoins := [] }⟩)
  refine evaluate_keep_eq hroot hr hr' (fun row _ hkept => ?_) fun row _ homitted => ?_
  · have hadmitted := (hadmits row).2 (of_decide_eq_true hkept)
    rw [hadmitted]
    rfl
  · have hrefused : ¬ Run.admits ⟨tables, specials, l.plan catalog c scope os⟩ row :=
      fun h => of_decide_eq_false homitted ((hadmits row).1 h)
    rw [Ready.shares, hr.admits, if_pos hrefused]
    rfl

/-- One ticket may be seen, and open tickets are asked for: the team without any is not counted. -/
theorem scope_and_filters_single_out_roots_helpDesk :
    let m : Model := .perTeam "Team" ["TICKET_ID"] [⟨"TICKET_STATE", .equals, [.string "open"]⟩]
    let scope : Resolved := .restricted (.add ∅ ⟨"Ticket", 1⟩)
    ∃ catalog p, Catalog.build Catalog.helpDesk = .ok catalog ∧
      Plan.compile catalog m scope [] = .ok p ∧ p.semiJoins ≠ [] ∧
      evaluate helpDesk .builtin { p with scope := none, semiJoins := [] } =
        .ok [[.string "red", .ofNat 1], [.string "blue", .ofNat 0]] ∧
      evaluate
        (helpDesk.keep p.root fun row => helpDesk.InScope catalog p.root row scope ∧
          helpDesk.PassesFilters .builtin catalog m p.root row)
        .builtin { p with scope := none, semiJoins := [] } = .ok [[.string "red", .ofNat 1]] := by
  intro m scope
  obtain ⟨catalog, hbuild, h⟩ : ∃ catalog, Catalog.build Catalog.helpDesk = .ok catalog ∧
      (decide catalog.DistinctAliases && (Plan.compile catalog m scope []).toOption.any fun p =>
        p.semiJoins ≠ [] && (Run.gives ⟨helpDesk, .builtin, p⟩ [[.string "red", .ofNat 1]] &&
          Run.gives ⟨helpDesk, .builtin, { p with scope := none, semiJoins := [] }⟩
            [[.string "red", .ofNat 1], [.string "blue", .ofNat 0]])) :=
    Outcome.exists_of_any (by decide +kernel)
  obtain ⟨haliases, h⟩ := Bool.and_eq_true_iff.1 h
  obtain ⟨p, hp, h⟩ := Outcome.exists_of_any h
  obtain ⟨hsemi, h⟩ := Bool.and_eq_true_iff.1 h
  obtain ⟨hgives, hgives'⟩ := Bool.and_eq_true_iff.1 h
  have he := evaluate_of_gives hgives
  have hready : ∃ r, Ready.Of ⟨helpDesk, .builtin, p⟩ r := (evaluate_eq_ok he).1
  refine ⟨catalog, p, hbuild, hp, of_decide_eq_true hsemi, evaluate_of_gives hgives', ?_⟩
  rw [← he]
  exact (scope_and_filters_single_out_roots hbuild (of_decide_eq_true haliases) hp
    (exists_ready_iff.1 hready)).symm

end Evaluation

end Tabulation
