import Mathlib.Data.String.Basic
import Mathlib.Tactic.Lemma
import Tabulation.Calendar.Date
import Tabulation.Proofs.Decimal.Text

/-! Texts of numbers that are padded to one width sort like the numbers, and texts of days from the years 0 to
9999 like the days. -/
namespace Tabulation

/-- Texts sort by their characters. -/
lemma compare_ofList (s t : List Char) : compare (String.ofList s) (String.ofList t) = compare s t := by
  have hlt (s t : List Char) : compare s t = .lt ↔ String.ofList s < String.ofList t := by
    rw [String.lt_iff_toList_lt, String.toList_ofList, String.toList_ofList]
    induction s generalizing t with
    | nil => cases t <;> simp
    | cons c s ih =>
      cases t with
      | nil => simp
      | cons d t =>
        rw [List.compare_cons_cons, Ordering.then_eq_lt, List.cons_lt_cons_iff, ih, compare_lt_iff_lt,
          compare_eq_iff_eq]
  cases h : compare s t with
  | lt => exact compare_lt_iff_lt.2 ((hlt s t).1 h)
  | eq => rw [Std.LawfulEqOrd.eq_of_compare h, Std.ReflOrd.compare_self]
  | gt => exact compare_gt_iff_gt.2 ((hlt t s).1 (Std.OrientedCmp.gt_iff_lt.1 h))

/-- The bytes of a text. -/
def utf8 (s : String) : List Nat := s.toUTF8.data.toList.map UInt8.toNat

/-- The first 128 characters are their own bytes. -/
lemma utf8_ofList {s : List Char} (h : ∀ c ∈ s, c.toNat < 128) : utf8 (String.ofList s) = s.map Char.toNat := by
  rw [utf8, String.toUTF8_eq_toByteArray, String.toByteArray_ofList]
  induction s with
  | nil => rfl
  | cons c s ih =>
    obtain ⟨hc, hs⟩ := List.forall_mem_cons.1 h
    have hsize : c.utf8Size = 1 := if_pos (Nat.le_of_lt_succ hc)
    have hbyte : c.val.toUInt8.toNat = c.toNat := Nat.mod_eq_of_lt (hc.trans (by decide))
    rw [List.utf8Encode_cons, List.utf8Encode_singleton, String.utf8EncodeChar_eq_singleton hsize,
      ByteArray.data_append, Array.toList_append, List.map_append, ih hs, List.map_cons, ← hbyte]
    rfl

lemma compare_utf8 {s t : List Char} (hs : ∀ c ∈ s, c.toNat < 128) (ht : ∀ c ∈ t, c.toNat < 128) :
    compare (utf8 (String.ofList s)) (utf8 (String.ofList t)) = compare s t := by
  have hmono : StrictMono Char.toNat := fun _ _ h => h
  rw [utf8_ofList hs, utf8_ofList ht]
  clear hs ht
  induction s generalizing t with
  | nil => cases t <;> rfl
  | cons c s ih =>
    cases t with
    | nil => rfl
    | cons d t =>
      rw [List.map_cons, List.map_cons, List.compare_cons_cons, List.compare_cons_cons, ih, ← cmp_eq_compare,
        hmono.cmp_map_eq, cmp_eq_compare]

/-- After texts of one length, what follows decides only if they are equal. -/
lemma compare_append {xs ys : List Char} (h : xs.length = ys.length) (s t : List Char) :
    compare (xs ++ s) (ys ++ t) = (compare xs ys).then (compare s t) := by
  induction xs generalizing ys with
  | nil =>
    cases List.length_eq_zero_iff.1 h.symm
    rfl
  | cons x xs ih =>
    obtain ⟨y, ys, rfl⟩ := List.exists_cons_of_length_eq_add_one h.symm
    rw [List.cons_append, List.cons_append, List.compare_cons_cons, List.compare_cons_cons,
      ih (Nat.succ.inj h), Ordering.then_assoc]

namespace Decimal

/-- The quotient decides, and only then the remainder. -/
lemma compare_mul_add {base m n r q : Nat} (hr : r < base) (hq : q < base) :
    compare (base * m + r) (base * n + q) = (compare m n).then (compare r q) := by
  rcases lt_trichotomy m n with h | rfl | h
  · have hstep : base * m + base ≤ base * n := Nat.mul_le_mul_left base h
    rw [compare_lt_iff_lt.2 h, compare_lt_iff_lt.2 (by omega), Ordering.lt_then]
  · rw [compare_eq_iff_eq.2 rfl, Ordering.eq_then, ← cmp_eq_compare, cmp_add_left, cmp_eq_compare]
  · have hstep : base * n + base ≤ base * m := Nat.mul_le_mul_left base h
    rw [compare_gt_iff_gt.2 h, compare_gt_iff_gt.2 (by omega), Ordering.gt_then]

lemma compare_digit {c d : Char} (hc : c.isDigit) (hd : d.isDigit) :
    compare (c.toNat - '0'.toNat) (d.toNat - '0'.toNat) = compare c d := by
  have hmono : StrictMonoOn (fun c : Char => c.toNat - '0'.toNat) {c | c.isDigit} := fun c hc d _ hlt =>
    Nat.sub_lt_sub_right (toNat_of_isDigit hc).1 hlt
  rw [← cmp_eq_compare, hmono.cmp_map_eq hc hd, cmp_eq_compare]

/-- As many digits sort like the numbers that they write. -/
lemma compare_natOfDigits {xs ys : List Char} (hlength : xs.length = ys.length)
    (hx : ∀ c ∈ xs, c.isDigit) (hy : ∀ c ∈ ys, c.isDigit) :
    compare xs ys = compare (natOfDigits xs) (natOfDigits ys) := by
  induction xs generalizing ys with
  | nil =>
    cases List.length_eq_zero_iff.1 hlength.symm
    rfl
  | cons x xs ih =>
    obtain ⟨y, ys, rfl⟩ := List.exists_cons_of_length_eq_add_one hlength.symm
    obtain ⟨hx, hxs⟩ := List.forall_mem_cons.1 hx
    obtain ⟨hy, hys⟩ := List.forall_mem_cons.1 hy
    have htail := Nat.succ.inj hlength
    have hbound := natOfDigits_lt hxs
    rw [htail] at hbound
    rw [natOfDigits_cons, natOfDigits_cons, htail, compare_mul_add hbound (natOfDigits_lt hys), List.compare_cons_cons,
      compare_digit hx hy, ih htail hxs hys]

end Decimal

namespace Calendar
open Decimal

instance : Ord Date where
  compare := compareLex (compareOn Date.year) (compareLex (compareOn Date.month) (compareOn Date.day))

instance : Std.TransOrd Date :=
  inferInstanceAs (Std.TransCmp (compareLex (compareOn Date.year)
    (compareLex (compareOn Date.month) (compareOn Date.day))))

instance : Std.LawfulEqOrd Date where
  eq_of_compare {d e} h := by
    obtain ⟨hyear, h⟩ := compareLex_eq_eq.1 h
    obtain ⟨hmonth, hday⟩ := compareLex_eq_eq.1 h
    rw [Date.mk.injEq]
    exact ⟨compare_eq_iff_eq.1 hyear, compare_eq_iff_eq.1 hmonth, compare_eq_iff_eq.1 hday⟩

namespace Date

variable {width m n : Nat} {d e : Date}

/-- There is such a day in the supported years. -/
structure Exists (d : Date) : Prop where
  year : -262143 ≤ d.year ∧ d.year ≤ 262142
  month : 1 ≤ d.month ∧ d.month ≤ 12
  day : 1 ≤ d.day ∧ d.day ≤ daysIn d.year d.month

lemma of?_eq_some_iff {year : Int} {month day : Nat} :
    of? year month day = some d ↔ d = ⟨year, month, day⟩ ∧ d.Exists := by
  unfold of?
  constructor
  · intro h
    split_ifs at h with hexists
    cases h
    obtain ⟨hfirst, hlast, hmonth, hmonths, hday, hdays⟩ := hexists
    exact ⟨rfl, ⟨⟨hfirst, hlast⟩, ⟨hmonth, hmonths⟩, ⟨hday, hdays⟩⟩⟩
  · rintro ⟨rfl, h⟩
    rw [if_pos ⟨h.year.1, h.year.2, h.month.1, h.month.2, h.day.1, h.day.2⟩]

lemma Exists.day_lt (h : d.Exists) : d.day < 100 := by
  have hdays : daysIn d.year d.month ≤ 31 := by
    unfold daysIn
    split
    · split_ifs <;> decide
    all_goals decide
  exact lt_of_le_of_lt (h.day.2.trans hdays) (by decide)

lemma Exists.month_lt (h : d.Exists) : d.month < 100 := lt_of_le_of_lt h.month.2 (by decide)

/-! Padded numbers -/

lemma isDigit_of_mem_padded : ∀ c ∈ padded width n, c.isDigit := fun c hc => by
  rcases List.mem_append.1 hc with hc | hc
  · rw [List.eq_of_mem_replicate hc]
    rfl
  · exact isDigit_of_mem_digitChars c hc

@[simp] lemma natOfDigits_padded : natOfDigits (padded width n) = n :=
  (natOfDigits_zeros_append _ _).trans (natOfDigits_digitChars n)

lemma length_padded (hwidth : 0 < width) (h : n < 10 ^ width) : (padded width n).length = width := by
  have hdigits : (digitChars n).length ≤ width := (Nat.length_toDigits_le_iff (by decide) hwidth).2 h
  rw [padded, List.length_append, List.length_replicate]
  exact Nat.sub_add_cancel hdigits

lemma compare_padded (hwidth : 0 < width) (hm : m < 10 ^ width) (hn : n < 10 ^ width) :
    compare (padded width m) (padded width n) = compare m n := by
  have hlength := (length_padded hwidth hm).trans (length_padded hwidth hn).symm
  rw [compare_natOfDigits hlength isDigit_of_mem_padded isDigit_of_mem_padded, natOfDigits_padded,
    natOfDigits_padded]

/-- Digits are the padded text of their number. -/
lemma eq_padded {digits : List Char} (hne : digits ≠ []) (h : ∀ c ∈ digits, c.isDigit) :
    digits = padded digits.length (natOfDigits digits) := by
  have hlength := length_padded (List.length_pos_of_ne_nil hne) (natOfDigits_lt h)
  apply Std.LawfulEqOrd.eq_of_compare
  rw [compare_natOfDigits hlength.symm h isDigit_of_mem_padded, natOfDigits_padded, compare_eq_iff_eq.2 rfl]

/-! Days -/

/-- The years that have four digits and no sign. -/
def HasPlainYear (d : Date) : Prop := 0 ≤ d.year ∧ d.year ≤ 9999

lemma HasPlainYear.yearText (h : d.HasPlainYear) : yearText d.year = padded 4 d.year.natAbs :=
  if_pos h

lemma HasPlainYear.natAbs_lt (h : d.HasPlainYear) : d.year.natAbs < 10 ^ 4 := by
  obtain ⟨hleast, hmost⟩ := h
  omega

lemma HasPlainYear.dayText (h : d.HasPlainYear) : d.dayText =
    padded 4 d.year.natAbs ++ '-' :: (padded 2 d.month ++ '-' :: padded 2 d.day) := by
  rw [Date.dayText, monthText, h.yearText, List.append_assoc, List.cons_append]

lemma compare_yearText (hd : d.HasPlainYear) (he : e.HasPlainYear) :
    compare (yearText d.year) (yearText e.year) = compare d.year e.year := by
  have hmono : StrictMonoOn Int.natAbs {k | 0 ≤ k} := fun j hj k _ hlt => Int.natAbs_lt_natAbs_of_nonneg_of_lt hj hlt
  rw [hd.yearText, he.yearText, compare_padded (by decide) hd.natAbs_lt he.natAbs_lt, ← cmp_eq_compare,
    hmono.cmp_map_eq hd.1 he.1, cmp_eq_compare]

lemma length_yearText (h : d.HasPlainYear) : (yearText d.year).length = 4 :=
  h.yearText ▸ length_padded (by decide) h.natAbs_lt

lemma length_monthText (hd : d.Exists) (h : d.HasPlainYear) : d.monthText.length = 7 := by
  rw [monthText, List.length_append, length_yearText h, List.length_cons, length_padded (by decide) hd.month_lt]

lemma toNat_lt_of_mem_padded : ∀ c ∈ padded width n, c.toNat < 128 := fun c hc =>
  (toNat_of_isDigit (isDigit_of_mem_padded c hc)).2.trans_lt (by decide)

lemma toNat_lt_of_mem_hyphen {s : List Char} (h : ∀ c ∈ s, c.toNat < 128) :
    ∀ c ∈ s ++ '-' :: padded 2 n, c.toNat < 128 :=
  List.forall_mem_append.2 ⟨h, List.forall_mem_cons.2 ⟨by decide, toNat_lt_of_mem_padded⟩⟩

lemma toNat_lt_of_mem_yearText (h : d.HasPlainYear) : ∀ c ∈ yearText d.year, c.toNat < 128 :=
  h.yearText ▸ toNat_lt_of_mem_padded

/-- After texts of one length, a hyphen and a number of two digits. -/
lemma compare_hyphen {s t : List Char} (hlength : s.length = t.length) (hm : m < 100) (hn : n < 100) :
    compare (s ++ '-' :: padded 2 m) (t ++ '-' :: padded 2 n) = (compare s t).then (compare m n) := by
  rw [compare_append hlength, List.compare_cons_cons, compare_eq_iff_eq.2 rfl, Ordering.eq_then,
    compare_padded (by decide) hm hn]

lemma compare_monthText (hd : d.Exists) (he : e.Exists) (hyd : d.HasPlainYear) (hye : e.HasPlainYear) :
    compare d.monthText e.monthText = (compare d.year e.year).then (compare d.month e.month) := by
  rw [monthText, monthText, compare_hyphen ((length_yearText hyd).trans (length_yearText hye).symm) hd.month_lt
    he.month_lt, compare_yearText hyd hye]

lemma compare_dayText (hd : d.Exists) (he : e.Exists) (hyd : d.HasPlainYear) (hye : e.HasPlainYear) :
    compare d.dayText e.dayText = compare d e := by
  rw [dayText, dayText, compare_hyphen ((length_monthText hd hyd).trans (length_monthText he hye).symm) hd.day_lt
    he.day_lt, compare_monthText hd he hyd hye, Ordering.then_assoc]
  rfl

end Date
end Calendar
end Tabulation
