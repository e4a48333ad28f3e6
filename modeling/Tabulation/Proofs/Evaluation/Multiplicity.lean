import Tabulation.Proofs.Evaluation.Expansion
import Tabulation.Proofs.Plan.Joins

/-! How often a plan counts a root row: the main joins give it one row at most, and a sub-expression
no more rows than the path along its fan-out key. -/
namespace Tabulation.Plan
open Catalog (Step FanOutKey)
open Query (Model)
open Evaluation

/-- A join is left as it is, or made inner. -/
def Upgrades (j j' : Join) : Prop :=
  j' = j ∨ j' = { j with kind := .inner }

lemma upgrades_joinsOf {inner inner' : Step → Bool} (h : ∀ s, inner s → inner' s)
    (steps : List Step) : List.Forall₂ Upgrades (joinsOf inner steps) (joinsOf inner' steps) := by
  unfold joinsOf
  rw [List.forall₂_map_left_iff, List.forall₂_map_right_iff, List.forall₂_same]
  intro s _
  by_cases hs : inner s
  · exact .inl (by simp [hs, h s hs])
  · by_cases hs' : inner' s
    · exact .inr (by simp [hs'])
    · exact .inl (by simp [hs, hs'])

variable {catalog : Catalog} {root : EntityType} {steps path : List Step} {s : Step}
  {tables : Tables}

/-- Joining the last step of a path inner is as good as joining all of them inner. -/
lemma length_reach_path_le (hc : catalog.WellFormed) (ha : catalog.DistinctAliases)
    (hp : catalog.path? root s.target = some (path ++ [s])) {inner : Step → Bool}
    (hs : inner s = true) (row : Row) :
    (tables.reach root.aliasName (joinsOf inner (path ++ [s])) row).length ≤
      (tables.reach root.aliasName (addInner [] (path ++ [s])) row).length := by
  obtain ⟨hjoins, hrooted⟩ := addInner_nil hc ha hp
  have hchained := hrooted.chained hc ha
  rw [hjoins, hchained.reach_eq_filter, hchained.reach_eq_filter]
  have himp : ∀ b ∈ tables.spread root.aliasName (path ++ [s]) row, meets inner (path ++ [s]) b →
      meets (fun _ => true) (path ++ [s]) b := by
    intro b hb hmeets
    have hlast : (b.row? s.target.aliasName).isSome := by
      have := List.all_eq_true.1 hmeets s (by simp)
      simpa [hs] using this
    have hall := isSome_of_path hc hp (hchained.of_mem_spread hb).2.2 hlast
    exact List.all_eq_true.2 fun t ht => by simpa using hall t ht
  rw [← List.countP_eq_length_filter, ← List.countP_eq_length_filter]
  exact List.countP_mono_left himp

namespace Layout

variable {l : Layout}

/-- The steps of a part that fans out: a path to the target of the key's last hop, and steps that do
not fan out. -/
lemma Sound.partSteps_eq (h : l.Sound catalog) (hc : catalog.WellFormed)
    {e : FanOutKey × Partition} (he : e ∈ l.far) :
    ∃ path s later, partSteps e.2 = path ++ [s] ++ later ∧ s.fansOut = true ∧
      (∀ t ∈ later, t.fansOut = false) ∧ FanOutKey.ofSteps (partSteps e.2) = e.1 ∧
      e.1.hops.getLast? = some ⟨s.source, s.target⟩ ∧
      catalog.path? l.root s.target = some (path ++ [s]) := by
  obtain ⟨he, hfar⟩ := List.mem_filter.1 he
  obtain ⟨hne, -⟩ := h.part e he
  obtain ⟨a, others, hpart⟩ := List.exists_cons_of_ne_nil hne
  have hpaths : e.2.map (·.2.path) = a.2.path :: others.map (·.2.path) := by
    rw [hpart, List.map_cons]
  obtain ⟨rest, hrest, hdirect⟩ := extendAll_of_key hc (fun path hp => (h.part_path he hp).1)
    (fun path hp => (h.part_path he hp).2) hpaths
  have hfirst : a.2.path ∈ e.2.map (·.2.path) := hpaths ▸ List.mem_cons_self
  obtain ⟨⟨entity, hpath⟩, hkey⟩ := h.part_path he hfirst
  have hfan : ¬ (FanOutKey.ofSteps a.2.path).isRoot := by
    rw [hkey]
    simpa using hfar
  obtain ⟨before, s, after, hsplit, hs, hafter, hlast⟩ := split_at_last_hop hfan
  refine ⟨before, s, after ++ rest, ?_, hs, fun t ht => ?_, ?_, hkey ▸ hlast, ?_⟩
  · rw [partSteps, hrest, hsplit]
    simp
  · rcases List.mem_append.1 ht with ht | ht
    · exact hafter t ht
    · exact hdirect t ht
  · rw [partSteps, hrest, FanOutKey.ofSteps_append_of_direct hdirect, hkey]
  · rw [hsplit] at hpath
    exact (Catalog.path?_split hc hpath).2.1

/-- What a sub-expression joins: the paths of its aggregates, on which filters make joins inner but
enter none. -/
lemma Sound.subExpression_spec (h : l.Sound catalog) (hc : catalog.WellFormed)
    (ha : catalog.DistinctAliases) (style : Query.JoinStyle) (offset : Nat)
    {e : FanOutKey × Partition} (he : e ∈ l.far) :
    let sub := subExpression style l.fanned offset e.1 e.2
    FanOutKey.ofSteps (sub.joins.map (·.step)) = sub.key ∧
      ∃ paths, List.Forall₂ (fun a path => catalog.path? l.root a.column.entity = some path)
          sub.aggregates paths ∧
        l.fanned.foldl restrictBy (paths.foldl (addPath measureKind) [], []) =
          (sub.joins, sub.predicates) ∧
        List.Forall₂ Upgrades (paths.foldl (addPath measureKind) []) sub.joins := by
  have hparts := (List.mem_filter.1 he).1
  obtain ⟨hmeasure, hjoins, -, -⟩ := h.subExpression_joins hc ha hparts style offset
  obtain ⟨-, -, -, -, -, -, hkey, -, -⟩ := h.partSteps_eq hc he
  have hpaths : (e.2.map (·.2.path)).foldl (addPath measureKind) [] =
      e.2.foldl (fun joins a => addPath measureKind joins a.2.path) [] := List.foldl_map
  refine ⟨?_, e.2.map (·.2.path), ?_, ?_, ?_⟩
  · rw [hjoins, map_step_joinsOf, hkey]
    rfl
  · simp only [subExpression, aggregates]
    rw [List.forall₂_map_left_iff, List.forall₂_map_right_iff, List.forall₂_same]
    exact fun a hmem => ((h.part e hparts).2 a hmem).1
  · rw [hpaths]
    rfl
  · rw [hpaths, hmeasure, hjoins]
    exact upgrades_joinsOf (fun s hs => by simp [hs]) _

lemma Sound.length_reach_le (h : l.Sound catalog) (hc : catalog.WellFormed)
    (ha : catalog.DistinctAliases) (style : Query.JoinStyle) (offset : Nat)
    {e : FanOutKey × Partition} (he : e ∈ l.far) (row : Row) :
    let sub := subExpression style l.fanned offset e.1 e.2
    (∀ j ∈ sub.joins, tables.Keyed j.step) →
    ∃ hop path, sub.key.hops.getLast? = some hop ∧
      catalog.path? l.root hop.target = some path ∧
      (tables.reach l.root.aliasName sub.joins row).length ≤
        (tables.reach l.root.aliasName (addInner [] path) row).length := by
  intro sub hk
  obtain ⟨-, hjoins, -, -⟩ := h.subExpression_joins hc ha (List.mem_filter.1 he).1 style offset
  obtain ⟨path, s, later, hsteps, hs, hlater, -, hlast, hpath⟩ := h.partSteps_eq hc he
  refine ⟨⟨s.source, s.target⟩, path ++ [s], hlast, hpath, ?_⟩
  have hkeyed : ∀ t ∈ later, tables.Keyed t := by
    intro t ht
    refine keyed_of_joins hk hjoins t ?_
    rw [hsteps]
    exact List.mem_append_right _ ht
  calc (tables.reach l.root.aliasName sub.joins row).length
      ≤ (tables.reach l.root.aliasName (joinsOf
          (fun s => s.fansOut || (l.fannedOn (partSteps e.2)).any fun f => s ∈ f.path)
          (path ++ [s])) row).length := by
        rw [hjoins, hsteps]
        exact reach_length_le hkeyed hlater _ _ row
    _ ≤ _ := length_reach_path_le hc ha hpath (by simp [hs]) row

end Layout

/-- No main join of a partitioned plan fans out, and the joins of a sub-expression fan out on the hops
of its key, whatever filters apply to them. So where steps that do not fan out lead to one row at
most, a root row has one main row at most, and in a sub-expression no more rows than there are on the
path to the end of the last hop. -/
theorem partitioned_multiplicity {declarations : Catalog.Declarations} {m : Model}
    {scope : Scope.Resolved} {sort : Sorting.Criteria} {p : Plan}
    (hbuild : Catalog.build declarations = .ok catalog) (ha : catalog.DistinctAliases)
    (hm : m.strategy = .partitioned) (hp : compile catalog m scope sort = .ok p) :
    (∀ j ∈ p.joins, j.step.fansOut = false) ∧
      (∃ fanned : List FannedFilters, p.semiJoins = fanned.map semiJoin ∧ ∀ sub ∈ p.subExpressions,
        FanOutKey.ofSteps (sub.joins.map (·.step)) = sub.key ∧
        ∃ paths : List (List Step), List.Forall₂ (fun a path => catalog.path? p.root a.column.entity = some path)
            sub.aggregates paths ∧
          fanned.foldl restrictBy (paths.foldl (addPath measureKind) [], []) =
            (sub.joins, sub.predicates) ∧
          List.Forall₂ Upgrades (paths.foldl (addPath measureKind) []) sub.joins) ∧
      ∀ tables : Tables, (∀ j ∈ allJoins p, tables.Keyed j.step) → ∀ row : Row,
        let partners := (JoinIndex.ofJoins tables (allJoins p)).partners
        (expand partners p.joins [[(p.rootAlias, row)]]).length ≤ 1 ∧
          ∀ sub ∈ p.subExpressions, ∃ hop path, sub.key.hops.getLast? = some hop ∧
            catalog.path? p.root hop.target = some path ∧
            let direct := addInner [] path
            (expand partners sub.joins [[(p.rootAlias, row)]]).length ≤
              (expand (JoinIndex.ofJoins tables direct).partners direct
                [[(p.rootAlias, row)]]).length := by
  have hc := Catalog.wellFormed_build hbuild
  obtain ⟨c, l, os, hcheck, -, h, -, rfl⟩ := exists_layout hc hp
  obtain ⟨hjoins, -, -, hsubs⟩ := l.plan_of_partitioned (hcheck.strategy.trans hm) catalog scope os
  rw [(h.main_joins hc ha).1] at hjoins
  refine ⟨fun j hj => ?_, ⟨l.fanned, rfl, fun sub hsub => ?_⟩, fun tables hk row => ?_⟩
  · rw [hjoins] at hj
    obtain ⟨s, hs, rfl⟩ := List.mem_map.1 hj
    exact h.mainSteps_direct hs
  · rw [hsubs] at hsub
    obtain ⟨e, he, rfl⟩ := List.mem_map.1 hsub
    exact h.subExpression_spec hc ha _ _ he
  · simp only
    refine ⟨?_, fun sub hsub => ?_⟩
    · rw [expand_ofJoins (joins_subset_allJoins _), hjoins]
      have hkeyed := keyed_of_joins (fun j hj => hk j (joins_subset_allJoins _ hj)) hjoins
      -- without steps there is the root row alone
      exact reach_length_le hkeyed (fun s hs => h.mainSteps_direct hs) (· ∈ l.neededSteps) [] row
    · rw [expand_ofJoins (subJoins_subset_allJoins hsub)]
      have hk' := fun j hj => hk j (subJoins_subset_allJoins hsub hj)
      rw [hsubs] at hsub
      obtain ⟨e, he, rfl⟩ := List.mem_map.1 hsub
      obtain ⟨hop, path, hlast, hpath, hle⟩ :=
        h.length_reach_le hc ha c.joinStyle l.projections.length he row hk'
      refine ⟨hop, path, hlast, hpath, ?_⟩
      rw [expand_ofJoins (List.Subset.refl _)]
      exact hle

/-- In a query of the help desk every ticket has one main row at most, with its team, and its notes are
reached by a sub-expression. -/
theorem partitioned_multiplicity_helpDesk :
    ∃ catalog p, Catalog.build Catalog.helpDesk = .ok catalog ∧
      compile catalog (.perTeam "Ticket" ["TICKET_ID", "NOTE_ID"] []) .unrestricted [] = .ok p ∧
      (p.joins.length = 1 ∧ ∀ j ∈ p.joins, j.step.fansOut = false) ∧
      (p.subExpressions.map (·.key) = [⟨[⟨"Ticket", "Note"⟩]⟩] ∧
        ∀ sub ∈ p.subExpressions, FanOutKey.ofSteps (sub.joins.map (·.step)) = sub.key) ∧
      ∀ row : Row, (expand (JoinIndex.ofJoins helpDesk (allJoins p)).partners p.joins
        [[(p.rootAlias, row)]]).length ≤ 1 := by
  obtain ⟨catalog, hbuild, h⟩ : ∃ catalog, Catalog.build Catalog.helpDesk = .ok catalog ∧
      (decide catalog.DistinctAliases &&
        (compile catalog (.perTeam "Ticket" ["TICKET_ID", "NOTE_ID"] []) .unrestricted []).toOption.any
          fun p => p.joins.length = 1 && p.subExpressions.map (·.key) = [⟨[⟨"Ticket", "Note"⟩]⟩] &&
            decide (∀ j ∈ allJoins p, helpDesk.Keyed j.step)) :=
    Outcome.exists_of_any (by decide +kernel)
  obtain ⟨ha, h⟩ := Bool.and_eq_true_iff.1 h
  obtain ⟨p, hp, h⟩ := Outcome.exists_of_any h
  simp only [Bool.and_eq_true, decide_eq_true_eq] at ha h
  obtain ⟨hdirect, ⟨_, -, hsubs⟩, hrows⟩ := partitioned_multiplicity hbuild ha rfl hp
  exact ⟨catalog, p, hbuild, hp, ⟨h.1.1, hdirect⟩, ⟨h.1.2, fun sub hsub => (hsubs sub hsub).1⟩,
    fun row => (hrows helpDesk h.2 row).1⟩

end Tabulation.Plan
