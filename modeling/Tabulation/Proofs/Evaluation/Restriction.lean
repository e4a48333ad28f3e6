import Tabulation.Proofs.Evaluation.Success
import Tabulation.Proofs.Plan.Paths

/-! Leaving out root rows. Joins never lead back to the root, so a plan that is run on fewer root rows
gives what it gives for these rows. -/
namespace Tabulation
open Plan (Join)

namespace Evaluation

/-- The tables with some rows of one entity type only. -/
def Tables.keep (tables : Tables) (entity : EntityType) (f : Row → Bool) : Tables :=
  tables.mapValues fun e rows => if e = entity then rows.filter f else rows

lemma rows_mapValues (tables : Tables) {f : EntityType → List Row → List Row} (hf : ∀ e, f e [] = [])
    (e : EntityType) : Tables.rows (tables.mapValues f) e = f e (tables.rows e) := by
  have hlookup : ∀ entries : List (EntityType × List Row),
      ((entries.map fun x => (x.1, f x.1 x.2)).lookup e).getD [] = f e ((entries.lookup e).getD []) := by
    intro entries
    induction entries with
    | nil => exact (hf e).symm
    | cons x xs ih =>
      rw [List.map_cons, List.lookup_cons, List.lookup_cons]
      by_cases hx : e = x.1
      · simp [hx]
      · have : (e == x.1) = false := by simpa using hx
        simp only [this, ih]
  exact hlookup tables.entries

lemma rows_keep (tables : Tables) (entity : EntityType) (f : Row → Bool) (e : EntityType) :
    (tables.keep entity f).rows e =
      if e = entity then (tables.rows e).filter f else tables.rows e :=
  rows_mapValues tables (fun e => by split_ifs <;> rfl) e

lemma reach_congr {tables tables' : Tables} {joins : List Join}
    (h : ∀ j ∈ joins, tables'.rows j.step.target = tables.rows j.step.target) (rootAlias : String) :
    tables'.reach rootAlias joins = tables.reach rootAlias joins := by
  funext root
  apply expand_congr
  intro j hj
  funext parent
  unfold Tables.matching
  rw [h j hj]

/-- Joins that do not lead back to an entity type reach the same without some of its rows. -/
lemma reach_keep {joins : List Join} {entity : EntityType} (h : ∀ j ∈ joins, j.step.target ≠ entity)
    (tables : Tables) (f : Row → Bool) (rootAlias : String) :
    (tables.keep entity f).reach rootAlias joins = tables.reach rootAlias joins :=
  reach_congr (fun j hj => by rw [rows_keep, if_neg (h j hj)]) rootAlias

/-- Which root rows are admitted is a matter of the targets of joins. -/
lemma Run.admits_of_rows {tables tables' : Tables} (specials : Specials) {p : Plan}
    (h : ∀ j ∈ allJoins p, tables'.rows j.step.target = tables.rows j.step.target) :
    Run.admits ⟨tables', specials, p⟩ = Run.admits ⟨tables, specials, p⟩ := by
  have hreach : ∀ joins ⊆ allJoins p, tables'.reach p.rootAlias joins = tables.reach p.rootAlias joins :=
    fun joins hj => reach_congr (fun j hmem => h j (hj hmem)) _
  funext root
  refine congrArg₂ (· && ·) ?_ (all_congr fun s hs => ?_)
  · cases hs : p.scope with
    | none => rfl
    | some branches =>
      refine any_congr fun branch hb => ?_
      simp only [inBranch, hreach _ (branchJoins_subset_allJoins hs hb)]
  · simp only [rowsAlong, hreach _ (semiJoins_subset_allJoins hs)]

/-- Tables that agree on the targets of all joins give the same for the same root rows. -/
theorem Run.result_congr {tables tables' : Tables} (specials : Specials) {p : Plan}
    (h : ∀ j ∈ allJoins p, tables'.rows j.step.target = tables.rows j.step.target) :
    let x : Run := ⟨tables, specials, p⟩
    let x' : Run := ⟨tables', specials, p⟩
    x'.result = x.result ∧ ∀ root, x'.Reads root ↔ x.Reads root := by
  intro x x'
  have hreach : ∀ joins ⊆ allJoins p, tables'.reach p.rootAlias joins = tables.reach p.rootAlias joins :=
    fun joins hj => reach_congr (fun j hmem => h j (hj hmem)) _
  have hmain : x'.mainRows = x.mainRows := by
    funext root
    simp only [mainRows, rowsAlong, x, x', hreach _ (joins_subset_allJoins p)]
  have hsubs : ∀ s ∈ p.subExpressions, x'.subRows s = x.subRows s := by
    intro s hs
    funext root
    simp only [subRows, rowsAlong, x, x', hreach _ (subJoins_subset_allJoins hs)]
  have hadmits : x'.admits = x.admits := Run.admits_of_rows specials h
  have hcounts : x'.counts = x.counts := by
    funext root
    have hkeeps : p.subExpressions.all (x'.keeps root) = p.subExpressions.all (x.keeps root) :=
      all_congr fun s hs => by simp only [keeps, hsubs s hs]
    exact congrArg₂ (· && ·) (congrFun hadmits root) hkeeps
  have hbindings : x'.bindings = x.bindings := by
    funext roots
    simp only [bindings, hcounts, hmain]
  have htotals : x'.totals = x.totals := by
    funext roots text
    have hmembers : x'.members roots text = x.members roots text := by
      simp only [members, hcounts, hmain, x, x']
    have hmerged : p.subExpressions.map (fun s =>
          mergedTallies s.aggregates ((x.members roots text).map (x'.subRows s))) =
        p.subExpressions.map fun s =>
          mergedTallies s.aggregates ((x.members roots text).map (x.subRows s)) :=
      List.map_congr_left fun s hs => by rw [hsubs s hs]
    simp only [totals, hbindings, hmembers]
    exact congrArg (Totals.mk _) hmerged
  refine ⟨?_, fun root => ?_⟩
  · funext roots
    simp only [result, hbindings, htotals, x, x']
  · have hreads : (∀ s ∈ p.subExpressions, x'.ReadsSub root s) ↔
        ∀ s ∈ p.subExpressions, x.ReadsSub root s :=
      forall₂_congr fun s hs => by simp only [ReadsSub, hsubs s hs]
    unfold Reads
    rw [hcounts, hmain]
    exact imp_congr_right fun _ => and_congr_left' hreads

/-- An evaluation of fewer root rows gives the result for these. -/
theorem evaluate_keep_eq_ok_iff {tables : Tables} {specials : Specials} {p : Plan}
    (hroot : ∀ j ∈ allJoins p, j.step.target ≠ p.root) (f : Row → Bool)
    (hany : Run.ReadsAnything ⟨tables, specials, p⟩) (ts : List Tuple) :
    let x : Run := ⟨tables, specials, p⟩
    evaluate (tables.keep p.root f) specials p = .ok ts ↔
      x.Prepares ∧ (∀ root ∈ x.roots.filter f, x.Reads root) ∧
        ts = SortKey.sort p.sortKeys (x.result (x.roots.filter f)) := by
  intro x
  have hrows : ∀ j ∈ allJoins p, (tables.keep p.root f).rows j.step.target = tables.rows j.step.target :=
    fun j hj => by rw [rows_keep, if_neg (hroot j hj)]
  obtain ⟨hresult, hreads⟩ := Run.result_congr specials hrows
  have hroots : (tables.keep p.root f).rows p.root = (tables.rows p.root).filter f := by
    rw [rows_keep, if_pos rfl]
  have hiff : evaluate _ _ _ = .ok ts ↔ _ :=
    evaluate_eq_ok_iff (x := ⟨tables.keep p.root f, specials, p⟩) hany
  simp only [Run.roots, hresult, hreads, hroots] at hiff
  rw [hiff]
  refine and_congr_left' ⟨fun h => ⟨h.main, h.semiJoins, h.subExpressions⟩,
    fun h => ⟨h.main, h.semiJoins, h.subExpressions⟩⟩

end Evaluation

end Tabulation
