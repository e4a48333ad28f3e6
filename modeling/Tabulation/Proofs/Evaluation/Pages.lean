import Mathlib.Data.List.Basic
import Mathlib.Tactic.Lemma
import Mathlib.Tactic.SplitIfs
import Tabulation.Evaluation.ResultSet

/-! Pages of a result. Their positions are computed in 64 bits, and still every page is the slice of the result
that unbounded numbers would single out. -/
namespace Tabulation.Evaluation.ResultSet
open Query (Paging maxSize)

/-- 64 bits hold the number of tuples. -/
def Fits (r : ResultSet) : Prop := r.tuples.length ≤ maxSize

instance (r : ResultSet) : Decidable r.Fits := inferInstanceAs (Decidable (_ ≤ _))

/-- The tuples from a position on, so many at most. -/
def slice (r : ResultSet) (start count : Nat) : ResultSet :=
  { r with tuples := (r.tuples.drop start).take count }

variable {r : ResultSet}

lemma slice_of_length_le {start : Nat} (h : r.tuples.length ≤ start) (count : Nat) :
    r.slice start count = { r with tuples := [] } := by
  rw [slice, List.drop_eq_nil_of_le h, List.take_nil]

lemma slice_zero (start : Nat) : r.slice start 0 = { r with tuples := [] } := by
  rw [slice, List.take_zero]

lemma slice_take (start count most : Nat) :
    ({ r.slice start count with tuples := (r.slice start count).tuples.take most } : ResultSet) =
      r.slice start (min count most) := by
  rw [slice, slice, List.take_take, Nat.min_comm]

/-- A position that 64 bits cannot hold is past the end, and the end of a page may stop at the last one that
they can. -/
theorem paged_eq_slice (h : r.Fits) (p : Paging) :
    r.paged (some p) = r.slice (p.page.toNat * p.size.toNat) p.size.toNat := by
  have hpaged : r.paged (some p) = r.page p := rfl
  have hpositive : 0 < p.size ↔ 0 < p.size.toNat := UInt64.lt_iff_toNat_lt
  unfold Fits at h
  rw [hpaged, page, Paging.offset?]
  generalize p.page.toNat * p.size.toNat = start
  by_cases hstart : start ≤ maxSize
  · simp only [hstart, if_true, hpositive]
    by_cases hsize : 0 < p.size.toNat
    · by_cases hend : start < r.tuples.length
      · -- the end of the page is the end of the result, or 64 bits hold it
        have hcount : (r.tuples.drop start).take (min (p.stop start) r.tuples.length - start) =
            (r.tuples.drop start).take p.size.toNat := by
          rw [List.take_eq_take_iff, List.length_drop, Paging.stop]
          omega
        rw [if_pos ⟨hsize, hend⟩, slice, List.extract_eq_take_drop, hcount]
      · rw [if_neg (by omega), slice_of_length_le (by omega)]
    · rw [if_neg (by omega), Nat.eq_zero_of_not_pos hsize, slice_zero]
  · simp only [hstart, if_false]
    rw [slice_of_length_le (by omega)]

/-- The first pages of a size, one after the other, are the tuples up to the end of the last of them. -/
theorem flatten_pages (h : r.Fits) (size : UInt64) {n : Nat} (hn : n ≤ UInt64.size) :
    ((List.range n).map fun k => (r.paged (some ⟨.ofNat k, size, []⟩)).tuples).flatten =
      r.tuples.take (n * size.toNat) := by
  induction n with
  | zero => simp
  | succ n ih =>
    have hlast : (UInt64.ofNat n).toNat = n := UInt64.toNat_ofNat_of_lt hn
    rw [List.range_succ, List.map_append, List.flatten_append, ih (Nat.le_of_succ_le hn),
      List.map_singleton, List.flatten_singleton, paged_eq_slice h, hlast, slice, Nat.succ_mul,
      List.take_add]

end Tabulation.Evaluation.ResultSet
