import Tabulation.Proofs.Calendar.Formats
import Tabulation.Proofs.Evaluation.Sorting
import Tabulation.Evaluation.Evaluator

/-! Buckets of days: their texts tell days apart as far as the bucket does, and sort like the days. -/
namespace Tabulation
open Json (Value)
open Query (Bucket)
open Sorting (Direction NullPlacement)

namespace Calendar.Date

/-- The first day of the unit that a day falls into. -/
def truncate (bucket : Bucket) (d : Date) : Date :=
  match bucket with
  | .day => d
  | .month => ⟨d.year, d.month, 1⟩
  | .year => ⟨d.year, 1, 1⟩

end Calendar.Date

namespace Evaluation
open Calendar (Date readDate Names)

variable {bucket : Bucket} {d e : Date} {v w : String}

/-- What a text that names the day is grouped by. -/
def bucketOf (bucket : Bucket) (d : Date) : String := String.ofList (bucketText bucket d)

lemma groupValue_of_readDate (h : readDate v = some d) :
    groupValue (some bucket) (some (.string v)) = .ok (.string (bucketOf bucket d)) := by
  have htext : (Value.string v).text?.bind readDate = some d := h
  rw [groupValue, htext, bucketOf]
  intro hnull
  cases hnull

lemma compare_bucketOf (hd : d.Exists) (he : e.Exists) (hyd : d.HasPlainYear) (hye : e.HasPlainYear)
    (bucket : Bucket) :
    compare (bucketOf bucket d) (bucketOf bucket e) = compare (d.truncate bucket) (e.truncate bucket) := by
  rw [bucketOf, bucketOf, compare_ofList]
  cases bucket with
  | day => exact Date.compare_dayText hd he hyd hye
  | month =>
    rw [show compare (d.truncate .month) (e.truncate .month) =
      (compare d.year e.year).then ((compare d.month e.month).then .eq) from rfl, Ordering.then_eq]
    exact Date.compare_monthText hd he hyd hye
  | year =>
    rw [show compare (d.truncate .year) (e.truncate .year) = (compare d.year e.year).then .eq from rfl,
      Ordering.then_eq]
    exact Date.compare_yearText hyd hye

lemma compare_utf8_bucketOf (hd : d.Exists) (he : e.Exists) (hyd : d.HasPlainYear) (hye : e.HasPlainYear)
    (bucket : Bucket) :
    compare (utf8 (bucketOf bucket d)) (utf8 (bucketOf bucket e)) =
      compare (d.truncate bucket) (e.truncate bucket) := by
  have hplain {d : Date} (h : d.HasPlainYear) : ∀ c ∈ bucketText bucket d, c.toNat < 128 := by
    have hyear := Date.toNat_lt_of_mem_yearText h
    cases bucket with
    | day => exact Date.toNat_lt_of_mem_hyphen (Date.toNat_lt_of_mem_hyphen hyear)
    | month => exact Date.toNat_lt_of_mem_hyphen hyear
    | year => exact hyear
  rw [← compare_bucketOf hd he hyd hye, bucketOf, bucketOf, compare_utf8 (hplain hyd) (hplain hye), compare_ofList]

lemma bucketOf_eq_iff (hd : d.Exists) (he : e.Exists) (hyd : d.HasPlainYear) (hye : e.HasPlainYear) (bucket : Bucket) :
    bucketOf bucket d = bucketOf bucket e ↔ d.truncate bucket = e.truncate bucket := by
  rw [← Std.LawfulEqOrd.compare_eq_iff_eq (α := String), compare_bucketOf hd he hyd hye,
    Std.LawfulEqOrd.compare_eq_iff_eq]

/-- Days in the sequence that a direction asks for. -/
def Chronological (direction : Direction) (d e : Date) : Prop :=
  match direction with
  | .ascending => (compare d e).isLE
  | .descending => (compare e d).isLE

/-- What sorting first by a column of buckets does to two tuples. -/
lemma chronological_of_inOrder {i : Nat} {direction : Direction} {nulls : NullPlacement} {keys : List SortKey}
    {x y : Tuple} (hd : d.Exists) (he : e.Exists) (hyd : d.HasPlainYear) (hye : e.HasPlainYear)
    (h : SortKey.InOrder (⟨i, direction, nulls⟩ :: keys) x y) (hx : x[i]? = some (.string (bucketOf bucket d)))
    (hy : y[i]? = some (.string (bucketOf bucket e))) :
    Chronological direction (d.truncate bucket) (e.truncate bucket) := by
  have hcompare := (SortKey.inOrder_cons.1 h).1
  have horder : Comparison.sortValues (.string (bucketOf bucket d)) (.string (bucketOf bucket e)) =
      compare (d.truncate bucket) (e.truncate bucket) := compare_bucketOf hd he hyd hye bucket
  simp only [SortKey.compare, SortKey.cell?, hx, hy, horder] at hcompare
  cases direction with
  | ascending => exact Ordering.isLE_iff_ne_gt.2 hcompare
  | descending =>
    have hswap : compare (e.truncate bucket) (d.truncate bucket) =
        (compare (d.truncate bucket) (e.truncate bucket)).swap := Std.OrientedCmp.eq_swap
    rw [Chronological, hswap]
    exact Ordering.isLE_iff_ne_gt.2 hcompare

/-- A text is grouped by the day that it names as it stands, without regard to the distance from universal time.
For years from 0 to 9999, the texts of two buckets are equal or in order, by their bytes and as values of a result,
as the days are when they are cut to the bucket, and a result that is sorted by a column of buckets is sorted by
time. -/
theorem buckets_keep_calendar (hv : readDate v = some d) (hw : readDate w = some e) (hyd : d.HasPlainYear)
    (hye : e.HasPlainYear) :
    (∀ text day, readDate text = some day ↔ Names text day) ∧
    ∃ s t : Bucket → String,
      (∀ bucket, groupValue (some bucket) (some (.string v)) = .ok (.string (s bucket)) ∧
        groupValue (some bucket) (some (.string w)) = .ok (.string (t bucket))) ∧
      (s .day = t .day ↔ d = e) ∧
      (s .day = t .day → s .month = t .month) ∧
      (s .month = t .month → s .year = t .year) ∧
      (∀ bucket, compare (utf8 (s bucket)) (utf8 (t bucket)) = compare (d.truncate bucket) (e.truncate bucket)) ∧
      (∀ bucket, Comparison.sortValues (.string (s bucket)) (.string (t bucket)) =
        compare (d.truncate bucket) (e.truncate bucket)) ∧
      ∀ (bucket : Bucket) (i : Nat) (direction : Direction) (nulls : NullPlacement) (keys : List SortKey)
        (tuples : List Tuple),
        (SortKey.sort (⟨i, direction, nulls⟩ :: keys) tuples).Pairwise fun x y =>
          x[i]? = some (.string (s bucket)) → y[i]? = some (.string (t bucket)) →
            Chronological direction (d.truncate bucket) (e.truncate bucket) := by
  have hd := (Calendar.readDate_eq_some_iff.1 hv).exists
  have he := (Calendar.readDate_eq_some_iff.1 hw).exists
  have heq := bucketOf_eq_iff hd he hyd hye
  refine ⟨fun _ _ => Calendar.readDate_eq_some_iff, (bucketOf · d), (bucketOf · e),
    fun _ => ⟨groupValue_of_readDate hv, groupValue_of_readDate hw⟩, heq .day, fun h => ?_, fun h => ?_,
    compare_utf8_bucketOf hd he hyd hye, compare_bucketOf hd he hyd hye,
    fun bucket i direction nulls keys tuples => (SortKey.sort_pairwise _ tuples).imp fun horder hx hy =>
      chronological_of_inOrder hd he hyd hye horder hx hy⟩
  · exact (heq .month).2 (congrArg (Date.truncate .month) ((heq .day).1 h))
  · have hyear (d : Date) : (d.truncate .month).truncate .year = d.truncate .year := rfl
    rw [heq .year, ← hyear d, ← hyear e, (heq .month).1 h]

theorem buckets_keep_calendar_month :
    readDate "2024-03-31T23:30:00-05:00" = some ⟨2024, 3, 31⟩ ∧ readDate " 2024-4-1 00:15:00" = some ⟨2024, 4, 1⟩ ∧
    ∃ s t : Bucket → String,
      (∀ bucket, groupValue (some bucket) (some (.string "2024-03-31T23:30:00-05:00")) = .ok (.string (s bucket)) ∧
        groupValue (some bucket) (some (.string " 2024-4-1 00:15:00")) = .ok (.string (t bucket))) ∧
      s .day ≠ t .day ∧
      Comparison.sortValues (.string (s .month)) (.string (t .month)) = .lt ∧
      Comparison.sortValues (.string (s .year)) (.string (t .year)) = .eq := by
  have hv : readDate "2024-03-31T23:30:00-05:00" = some ⟨2024, 3, 31⟩ := by decide
  have hw : readDate " 2024-4-1 00:15:00" = some ⟨2024, 4, 1⟩ := by decide
  obtain ⟨-, s, t, hvalues, hday, -, -, -, hsort, -⟩ := buckets_keep_calendar hv hw ⟨by decide, by decide⟩
    ⟨by decide, by decide⟩
  refine ⟨hv, hw, s, t, hvalues, ?_, (hsort .month).trans (by decide), (hsort .year).trans (by decide)⟩
  exact fun h => absurd (hday.1 h) (by decide)

end Evaluation
end Tabulation
