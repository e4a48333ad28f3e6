import Tabulation.Proofs.Evaluation.Partners
import Tabulation.Proofs.Evaluation.Tally

/-! A plan together with what it is run on. Which rows it joins, which of them satisfy its predicates and
which root rows it admits is said here without indexes and prepared conditions, and what is made ready
for a run does the same. -/
namespace Tabulation.Evaluation
open Plan (Join Predicate ScopeBranch SemiJoin SubExpression)
open Outcome

/-- Whether a row satisfies predicates. Those that cannot be prepared are satisfied by none. -/
def satisfies (specials : Specials) (predicates : List Predicate) (b : Binding) : Bool :=
  predicates.all fun q =>
    getD ((Condition.prepare specials q).map fun c => c.holds (b.value? c.column)) false

/-- A plan with the tables and the operations that it is run on. -/
structure Run where
  tables : Tables
  specials : Specials
  plan : Plan

namespace Run

variable (x : Run)

/-- The root rows. -/
def roots : List Row := x.tables.rows x.plan.root

/-- The rows that joins reach from a root row and that satisfy predicates. -/
def rowsAlong (joins : List Join) (predicates : List Predicate) (root : Row) : List Binding :=
  (x.tables.reach x.plan.rootAlias joins root).filter (satisfies x.specials predicates)

/-- The joined rows of a root row. -/
def mainRows (root : Row) : List Binding := x.rowsAlong x.plan.joins x.plan.predicates root

/-- The rows of a sub-expression for a root row. -/
def subRows (s : SubExpression) (root : Row) : List Binding :=
  x.rowsAlong s.joins s.predicates root

/-- Whether the root row reaches a leaf that the branch lists. -/
def inBranch (root : Row) (branch : ScopeBranch) : Bool :=
  (x.tables.reach x.plan.rootAlias branch.joins root).any fun b =>
    ((b.value? branch.key).bind identifier?).any (branch.ids.contains ·)

/-- Whether a root row is in scope and reaches what the semi-joins ask for. -/
def admits (root : Row) : Bool :=
  (match x.plan.scope with
    | none => true
    | some branches => branches.any (x.inBranch root)) &&
  x.plan.semiJoins.all fun s => !(x.rowsAlong s.joins s.predicates root).isEmpty

/-- Whether a root row stays though a sub-expression may have no rows for it. -/
def keeps (root : Row) (s : SubExpression) : Bool :=
  ¬ ((x.subRows s root).isEmpty ∧ s.joinKind = .inner)

/-- Whether a root row counts: it is admitted, and no sub-expression drops it. -/
def counts (root : Row) : Bool := x.admits root && x.plan.subExpressions.all (x.keeps root)

variable {x}

lemma counts_eq_admits (h : ∀ s ∈ x.plan.subExpressions, s.joinKind = .left) (root : Row) :
    x.counts root = x.admits root := by
  have hall : x.plan.subExpressions.all (x.keeps root) = true := by
    rw [List.all_eq_true]
    intro s hs
    simp [keeps, h s hs]
  rw [counts, hall, Bool.and_true]

lemma admits_congr {tables : Tables} {specials : Specials} {p p' : Plan}
    (hroot : p'.rootAlias = p.rootAlias) (hscope : p'.scope = p.scope)
    (hsemi : p'.semiJoins = p.semiJoins) (root : Row) :
    Run.admits ⟨tables, specials, p'⟩ root = Run.admits ⟨tables, specials, p⟩ root := by
  have hbranch : Run.inBranch ⟨tables, specials, p'⟩ root =
      Run.inBranch ⟨tables, specials, p⟩ root := by
    funext branch
    simp only [inBranch, hroot]
  simp only [admits, rowsAlong, hbranch, hscope, hsemi, hroot]

end Run

/-- What is made ready for a run. -/
structure Ready.Of (x : Run) (r : Ready) : Prop where
  plan : r.plan = x.plan
  partners : r.partners = (JoinIndex.ofJoins x.tables (allJoins x.plan)).partners
  conditions : x.plan.predicates.mapM (Condition.prepare x.specials) = .ok r.conditions
  semiJoins : x.plan.semiJoins.mapM (fun s =>
    (s.predicates.mapM (Condition.prepare x.specials)).map (s, ·)) = .ok r.semiJoins
  subExpressions : x.plan.subExpressions.mapM (fun s =>
    (s.predicates.mapM (Condition.prepare x.specials)).map fun cs => (⟨s, cs⟩ : ReadySub)) =
      .ok r.subExpressions

theorem ofPlan_eq_ok {x : Run} {r : Ready} :
    Ready.ofPlan x.tables x.specials x.plan = .ok r ↔ r.Of x := by
  unfold Ready.ofPlan
  simp only [bind_eq_ok]
  constructor
  · rintro ⟨conditions, hc, semiJoins, hs, subs, hsub, h⟩
    cases h
    exact ⟨rfl, rfl, hc, hs, hsub⟩
  · rintro ⟨hplan, hpartners, hc, hs, hsub⟩
    refine ⟨_, hc, _, hs, _, hsub, ?_⟩
    rw [← hpartners, ← hplan]
    rfl

lemma allHold_eq_satisfies {specials : Specials} {predicates : List Predicate}
    {conditions : List Condition}
    (h : predicates.mapM (Condition.prepare specials) = .ok conditions) :
    allHold conditions = satisfies specials predicates := by
  funext b
  rw [mapM_eq_ok] at h
  unfold allHold satisfies
  induction h with
  | nil => rfl
  | cons hq _ ih => rw [List.all_cons, List.all_cons, ih, hq]; rfl

lemma any_congr {α : Type} {p q : α → Bool} {xs : List α} (h : ∀ x ∈ xs, p x = q x) :
    xs.any p = xs.any q := by
  rw [Bool.eq_iff_iff, List.any_eq_true, List.any_eq_true]
  exact exists_congr fun x => and_congr_right fun hx => by rw [h x hx]

lemma all_congr {α : Type} {p q : α → Bool} {xs : List α} (h : ∀ x ∈ xs, p x = q x) :
    xs.all p = xs.all q := by
  rw [Bool.eq_iff_iff, List.all_eq_true, List.all_eq_true]
  exact forall₂_congr fun x hx => by rw [h x hx]

namespace Ready.Of

variable {x : Run} {r : Ready} (h : r.Of x)
include h

/-- What a ready plan reaches along its own joins is what the tables say. -/
theorem reach {joins : List Join} (hj : joins ⊆ allJoins x.plan) (root : Row) :
    r.reach joins root = x.tables.reach x.plan.rootAlias joins root := by
  unfold Ready.reach
  rw [h.plan, h.partners, expand_ofJoins hj]

lemma mainRows (root : Row) :
    (r.reach r.plan.joins root).filter (allHold r.conditions) = x.mainRows root := by
  rw [h.plan, h.reach (joins_subset_allJoins x.plan), allHold_eq_satisfies h.conditions]
  rfl

lemma map_sub : r.subExpressions.map (·.sub) = x.plan.subExpressions := by
  have hsubs := (mapM_eq_ok.1 h.subExpressions).imp fun s t hst => by
    obtain ⟨cs, -, ht⟩ := map_eq_ok.1 hst
    exact (ht ▸ rfl : s = t.sub)
  have := List.forall₂_map_right_iff.2 hsubs
  rw [List.forall₂_eq_eq_eq] at this
  exact this.symm

lemma subRows {s : ReadySub} (hs : s ∈ r.subExpressions) (root : Row) :
    (r.reach s.sub.joins root).filter (allHold s.conditions) = x.subRows s.sub root := by
  obtain ⟨s', hs', hprepared⟩ := exists_of_mem_mapM h.subExpressions hs
  obtain ⟨cs, hcs, rfl⟩ := map_eq_ok.1 hprepared
  rw [h.reach (subJoins_subset_allJoins hs'), allHold_eq_satisfies hcs]
  rfl

lemma inBranch {branches : List ScopeBranch} (hscope : x.plan.scope = some branches)
    {branch : ScopeBranch} (hb : branch ∈ branches) (root : Row) :
    r.inBranch root branch = x.inBranch root branch := by
  unfold Ready.inBranch Run.inBranch
  rw [h.reach (branchJoins_subset_allJoins hscope hb)]

lemma passes {s : SemiJoin × List Condition} (hs : s ∈ r.semiJoins) (root : Row) :
    r.passes root s = !(x.rowsAlong s.1.joins s.1.predicates root).isEmpty := by
  obtain ⟨s', hs', hprepared⟩ := exists_of_mem_mapM h.semiJoins hs
  obtain ⟨cs, hcs, rfl⟩ := map_eq_ok.1 hprepared
  unfold Ready.passes Run.rowsAlong
  rw [h.reach (semiJoins_subset_allJoins hs'), allHold_eq_satisfies hcs, Bool.eq_iff_iff]
  simp [List.filter_eq_nil_iff]

lemma map_semiJoins : r.semiJoins.map (·.1) = x.plan.semiJoins := by
  have hsemi := (mapM_eq_ok.1 h.semiJoins).imp fun s t hst => by
    obtain ⟨cs, -, ht⟩ := map_eq_ok.1 hst
    exact (ht ▸ rfl : s = t.1)
  have := List.forall₂_map_right_iff.2 hsemi
  rw [List.forall₂_eq_eq_eq] at this
  exact this.symm

theorem admits (root : Row) : r.admits root = x.admits root := by
  have hscope : r.inScope root = match x.plan.scope with
      | none => true
      | some branches => branches.any (x.inBranch root) := by
    unfold Ready.inScope
    rw [h.plan]
    cases hs : x.plan.scope with
    | none => rfl
    | some branches => exact any_congr fun branch hb => h.inBranch hs hb root
  have hsemi : r.semiJoins.all (r.passes root) =
      x.plan.semiJoins.all fun s => !(x.rowsAlong s.joins s.predicates root).isEmpty := by
    rw [← h.map_semiJoins, List.all_map]
    exact all_congr fun s hs => h.passes hs root
  rw [Ready.admits, hscope, hsemi]
  rfl

end Ready.Of

end Tabulation.Evaluation
