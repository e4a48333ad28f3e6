import Tabulation.Comparison.Order
import Tabulation.Proofs.Decimal.Bits

/-! Doubles as rational numbers. They compare as the numbers that they are. -/
namespace Tabulation.Decimal
open Float.Model (UnpackedFloat)
open Float.Model.UnpackedFloat (Sign)

variable {s t : Sign} {m n : Nat} {e f : Int} {u v : UnpackedFloat}

/-- A magnitude with a sign. -/
def signed : Sign → ℚ → ℚ
  | .negative, q => -q
  | .positive, q => q

/-- The least power of two beyond all doubles. -/
def limit : ℚ := 2 ^ (1024 : ℤ)

/-- The number itself, where infinity counts as the limit. -/
def valueOf : UnpackedFloat → ℚ
  | .notANumber | .zero _ => 0
  | .infinity s => signed s limit
  | .finite s m e _ => signed s (m * 2 ^ e)

lemma two_zpow_pos (e : ℤ) : (0 : ℚ) < 2 ^ e := zpow_pos (by norm_num) e

lemma two_zpow_le {e f : ℤ} (h : e ≤ f) : (2 : ℚ) ^ e ≤ 2 ^ f := zpow_le_zpow_right₀ (by norm_num) h

lemma two_zpow_add (e f : ℤ) : (2 : ℚ) ^ (e + f) = 2 ^ e * 2 ^ f := zpow_add₀ (by norm_num) e f

lemma limit_pos : 0 < limit := two_zpow_pos 1024

lemma magnitude_lt (h : m < 2 ^ 53) (e : ℤ) : (m * 2 ^ e : ℚ) < 2 ^ (53 + e) := by
  have hm : (m : ℚ) < 2 ^ (53 : ℤ) := by exact_mod_cast h
  rw [two_zpow_add]
  exact mul_lt_mul_of_pos_right hm (two_zpow_pos e)

lemma le_magnitude (h : 2 ^ 52 ≤ m) (e : ℤ) : (2 ^ (52 + e) : ℚ) ≤ m * 2 ^ e := by
  have hm : (2 ^ (52 : ℤ) : ℚ) ≤ m := by exact_mod_cast h
  rw [two_zpow_add]
  exact mul_le_mul_of_nonneg_right hm (two_zpow_pos e).le

lemma magnitude_pos (h : 0 < m) (e : ℤ) : (0 : ℚ) < m * 2 ^ e :=
  mul_pos (by exact_mod_cast h) (two_zpow_pos e)

lemma Fits.magnitude_lt (h : Fits m e) : (m * 2 ^ e : ℚ) < limit :=
  (Decimal.magnitude_lt h.lt e).trans_le (two_zpow_le (by have := h.high; omega))

lemma magnitude_lt_of_lt (hm : m < 2 ^ 53) (hn : Fits n f) (h : -1074 ≤ e) (hlt : e < f) :
    (m * 2 ^ e : ℚ) < n * 2 ^ f :=
  calc (m * 2 ^ e : ℚ) < 2 ^ (53 + e) := magnitude_lt hm e
    _ ≤ 2 ^ (52 + f) := two_zpow_le (by omega)
    _ ≤ n * 2 ^ f := le_magnitude (hn.full (by omega)) f

/-- Exponents decide first, significands then. -/
lemma compare_magnitude (hm : Fits m e) (hn : Fits n f) :
    (compare e f).then (compare m n) = compare (m * 2 ^ e : ℚ) (n * 2 ^ f) := by
  rcases lt_trichotomy e f with h | rfl | h
  · rw [compare_lt_iff_lt.2 h, compare_lt_iff_lt.2 (magnitude_lt_of_lt hm.lt hn hm.low h)]
    rfl
  · have hpos := two_zpow_pos e
    rw [compare_eq_iff_eq.2 (rfl : e = e), Ordering.eq_then]
    rcases lt_trichotomy m n with h | rfl | h
    · have hlt : (m * 2 ^ e : ℚ) < n * 2 ^ e := (mul_lt_mul_iff_left₀ hpos).2 (by exact_mod_cast h)
      rw [compare_lt_iff_lt.2 h, compare_lt_iff_lt.2 hlt]
    · rw [compare_eq_iff_eq.2 rfl, compare_eq_iff_eq.2 rfl]
    · have hlt : (n * 2 ^ e : ℚ) < m * 2 ^ e := (mul_lt_mul_iff_left₀ hpos).2 (by exact_mod_cast h)
      rw [compare_gt_iff_gt.2 h, compare_gt_iff_gt.2 hlt]
  · rw [compare_gt_iff_gt.2 h, compare_gt_iff_gt.2 (magnitude_lt_of_lt hn.lt hm hn.low h)]
    rfl

lemma compare_neg (q r : ℚ) : compare (-q) (-r) = (compare q r).swap := by
  rcases lt_trichotomy q r with h | rfl | h
  · rw [compare_lt_iff_lt.2 h, compare_gt_iff_gt.2 (neg_lt_neg h)]
    rfl
  · rw [compare_eq_iff_eq.2 rfl, compare_eq_iff_eq.2 rfl]
    rfl
  · rw [compare_gt_iff_gt.2 h, compare_lt_iff_lt.2 (neg_lt_neg h)]
    rfl

/-- Doubles compare as the numbers that they are. -/
theorem compare_eq (hu : IsDouble u) (hv : IsDouble v) (hu' : u ≠ .notANumber) (hv' : v ≠ .notANumber) :
    u.compare v = some (compare (valueOf u) (valueOf v)) := by
  have hlimit := limit_pos
  have hlt {q r : ℚ} (h : q < r) : some Ordering.lt = some (compare q r) := by rw [compare_lt_iff_lt.2 h]
  have hgt {q r : ℚ} (h : r < q) : some Ordering.gt = some (compare q r) := by rw [compare_gt_iff_gt.2 h]
  have heq (q : ℚ) : some Ordering.eq = some (compare q q) := by rw [compare_eq_iff_eq.2 rfl]
  cases u with
  | notANumber => exact absurd rfl hu'
  | infinity s =>
    cases v with
    | notANumber => exact absurd rfl hv'
    | infinity t =>
      cases s <;> cases t
      · exact heq _
      · exact hlt (by simp only [valueOf, signed]; linarith)
      · exact hgt (by simp only [valueOf, signed]; linarith)
      · exact heq _
    | zero t =>
      cases s
      · exact hlt (by simp only [valueOf, signed]; linarith)
      · exact hgt (by simp only [valueOf, signed]; linarith)
    | finite t n f hn =>
      have hpos := magnitude_pos hn f
      have hmax : (n * 2 ^ f : ℚ) < _ := Fits.magnitude_lt hv
      cases s <;> cases t
      · exact hlt (by simp only [valueOf, signed]; linarith)
      · exact hlt (by simp only [valueOf, signed]; linarith)
      · exact hgt (by simp only [valueOf, signed]; linarith)
      · exact hgt (by simp only [valueOf, signed]; linarith)
  | zero s =>
    cases v with
    | notANumber => exact absurd rfl hv'
    | infinity t =>
      cases t
      · exact hgt (by simp only [valueOf, signed]; linarith)
      · exact hlt (by simp only [valueOf, signed]; linarith)
    | zero t => exact heq _
    | finite t n f hn =>
      have hpos := magnitude_pos hn f
      cases t
      · exact hgt (by simp only [valueOf, signed]; linarith)
      · exact hlt (by simp only [valueOf, signed]; linarith)
  | finite s m e hm =>
    have hpos := magnitude_pos hm e
    cases v with
    | notANumber => exact absurd rfl hv'
    | infinity t =>
      have hmax : (m * 2 ^ e : ℚ) < _ := Fits.magnitude_lt hu
      cases s <;> cases t
      · exact hgt (by simp only [valueOf, signed]; linarith)
      · exact hlt (by simp only [valueOf, signed]; linarith)
      · exact hgt (by simp only [valueOf, signed]; linarith)
      · exact hlt (by simp only [valueOf, signed]; linarith)
    | zero t =>
      cases s
      · exact hlt (by simp only [valueOf, signed]; linarith)
      · exact hgt (by simp only [valueOf, signed]; linarith)
    | finite t n f hn =>
      have hpos' := magnitude_pos hn f
      have hcompare := compare_magnitude hu hv
      cases s <;> cases t
      · simp only [UnpackedFloat.compare, valueOf, signed, compare_neg, hcompare]
      · exact hlt (by simp only [valueOf, signed]; linarith)
      · exact hgt (by simp only [valueOf, signed]; linarith)
      · simp only [UnpackedFloat.compare, valueOf, signed, hcompare]

lemma eq_or_zero_of_compare (h : u.compare v = some .eq) : u = v ∨ ∃ s t, u = .zero s ∧ v = .zero t := by
  obtain ⟨-, -, heq | ⟨hu, hv⟩ | ⟨hu, hv⟩⟩ := (u.beq_iff_ne_notANumber_and_eq v).1 (beq_iff_eq.2 h)
  · exact .inl heq
  · exact .inr ⟨_, _, hu, hv⟩
  · exact .inr ⟨_, _, hu, hv⟩

/-- Only the sign of a zero does not show in its value. -/
lemma eq_or_zero_of_valueOf_eq (hu : IsDouble u) (hv : IsDouble v) (hu' : u ≠ .notANumber)
    (hv' : v ≠ .notANumber) (h : valueOf u = valueOf v) : u = v ∨ ∃ s t, u = .zero s ∧ v = .zero t :=
  eq_or_zero_of_compare ((compare_eq hu hv hu' hv').trans (by rw [compare_eq_iff_eq.2 h]))

/-- The number that a double is. -/
def toRat (x : Float) : ℚ := valueOf x.toModel.unpack

variable {x y z : Float}

lemma isNaN_iff : x.isNaN ↔ x.toModel.unpack = .notANumber := x.toModel.unpack.isNaN_iff

lemma lt_iff : x < y ↔ x.toModel.unpack.compare y.toModel.unpack = some .lt := by
  have h : (x < y) = (x.toModel.unpack.lt y.toModel.unpack = true) := by
    show (decide (x.toModel < y.toModel) = true) = _
    rw [decide_eq_true_eq]
    rfl
  rw [h, UnpackedFloat.lt, beq_iff_eq]

lemma beq_iff : (x == y) = true ↔ x.toModel.unpack.compare y.toModel.unpack = some .eq := by
  have h : (x == y) = x.toModel.unpack.beq y.toModel.unpack := rfl
  rw [h, UnpackedFloat.beq, beq_iff_eq]

lemma compare_unpack (hx : ¬ x.isNaN) (hy : ¬ y.isNaN) :
    x.toModel.unpack.compare y.toModel.unpack = some (compare (toRat x) (toRat y)) :=
  compare_eq (isDouble_unpack x) (isDouble_unpack y) (mt isNaN_iff.2 hx) (mt isNaN_iff.2 hy)

lemma compare_unpack_of_isNaN (h : x.isNaN ∨ y.isNaN) :
    x.toModel.unpack.compare y.toModel.unpack = none := by
  rcases h with h | h
  · rw [isNaN_iff.1 h]
    rfl
  · rw [isNaN_iff.1 h]
    cases x.toModel.unpack <;> rfl

lemma lt_iff_toRat_lt (hx : ¬ x.isNaN) (hy : ¬ y.isNaN) : x < y ↔ toRat x < toRat y := by
  rw [lt_iff, compare_unpack hx hy, Option.some.injEq, compare_lt_iff_lt]

lemma beq_iff_toRat_eq (hx : ¬ x.isNaN) (hy : ¬ y.isNaN) : (x == y) = true ↔ toRat x = toRat y := by
  rw [beq_iff, compare_unpack hx hy, Option.some.injEq, compare_eq_iff_eq]

/-- Doubles other than zeros are the same if their values are. -/
lemma eq_of_toRat_eq (hx : ¬ x.isNaN) (hy : ¬ y.isNaN) (hzero : toRat x ≠ 0) (h : toRat x = toRat y) : x = y := by
  rcases eq_or_zero_of_valueOf_eq (isDouble_unpack x) (isDouble_unpack y) (mt isNaN_iff.2 hx) (mt isNaN_iff.2 hy) h
    with heq | ⟨s, t, hs, -⟩
  · exact unpack_injective heq
  · rw [toRat, hs] at hzero
    exact absurd rfl hzero

lemma orderFloats?_eq (hx : ¬ x.isNaN) (hy : ¬ y.isNaN) :
    Comparison.orderFloats? x y = some (compare (toRat x) (toRat y)) := by
  unfold Comparison.orderFloats?
  simp only [lt_iff, beq_iff, compare_unpack hx hy, compare_unpack hy hx, Option.some.injEq]
  rcases lt_trichotomy (toRat x) (toRat y) with h | h | h
  · rw [compare_lt_iff_lt.2 h, if_pos rfl]
  · rw [compare_eq_iff_eq.2 h, if_neg (by decide), if_pos rfl]
  · rw [compare_gt_iff_gt.2 h, if_neg (by decide), if_neg (by decide), compare_lt_iff_lt.2 h, if_pos rfl]

lemma orderFloats?_of_isNaN (h : x.isNaN ∨ y.isNaN) : Comparison.orderFloats? x y = none := by
  have hx : ¬ x < y := by rw [lt_iff, compare_unpack_of_isNaN h]; exact nofun
  have hy : ¬ y < x := by rw [lt_iff, compare_unpack_of_isNaN h.symm]; exact nofun
  have heq : ¬ (x == y) = true := by rw [beq_iff, compare_unpack_of_isNaN h]; exact nofun
  rw [Comparison.orderFloats?, if_neg hx, if_neg heq, if_neg hy]

/-- The order of two doubles is that of the numbers that they are. -/
theorem orderFloats?_eq_some {o : Ordering} :
    Comparison.orderFloats? x y = some o ↔ (¬ x.isNaN ∧ ¬ y.isNaN) ∧ compare (toRat x) (toRat y) = o := by
  by_cases h : x.isNaN ∨ y.isNaN
  · rw [orderFloats?_of_isNaN h]
    refine ⟨nofun, fun hnan => ?_⟩
    exact (not_or.2 hnan.1 h).elim
  · obtain ⟨hx, hy⟩ := not_or.1 h
    rw [orderFloats?_eq hx hy, Option.some.injEq]
    exact (and_iff_right ⟨hx, hy⟩).symm

/-! Signs -/

lemma valueOf_neg (u : UnpackedFloat) : valueOf u.neg = -valueOf u := by
  have hsigned (s : Sign) (q : ℚ) : signed (-s) q = -signed s q := by
    cases s
    · exact (neg_neg q).symm
    · rfl
  cases u with
  | notANumber | zero => exact neg_zero.symm
  | infinity s => exact hsigned s _
  | finite s m e hm => exact hsigned s _

lemma valueOf_abs (u : UnpackedFloat) : valueOf u.abs = |valueOf u| := by
  have hsigned (s : Sign) {q : ℚ} (h : 0 ≤ q) : signed .positive q = |signed s q| := by
    cases s
    · exact (abs_of_nonneg h).symm.trans (abs_neg q).symm
    · exact (abs_of_nonneg h).symm
  cases u with
  | notANumber | zero => exact abs_zero.symm
  | infinity s => exact hsigned s limit_pos.le
  | finite s m e hm => exact hsigned s (magnitude_pos hm e).le

lemma unpack_neg (x : Float) : (-x).toModel.unpack = x.toModel.unpack.neg := by
  have hdouble : IsDouble x.toModel.unpack.neg := by
    have h := isDouble_unpack x
    cases hx : x.toModel.unpack <;> rw [hx] at h <;> exact h
  exact unpack_pack hdouble

lemma unpack_abs (x : Float) : x.abs.toModel.unpack = x.toModel.unpack.abs := by
  have hdouble : IsDouble x.toModel.unpack.abs := by
    have h := isDouble_unpack x
    cases hx : x.toModel.unpack <;> rw [hx] at h <;> exact h
  exact unpack_pack hdouble

@[simp] lemma toRat_neg (x : Float) : toRat (-x) = -toRat x := by
  rw [toRat, unpack_neg, valueOf_neg, toRat]

@[simp] lemma toRat_abs (x : Float) : toRat x.abs = |toRat x| := by
  rw [toRat, unpack_abs, valueOf_abs, toRat]

@[simp] lemma isNaN_neg (x : Float) : (-x).isNaN = x.isNaN := by
  rw [Bool.eq_iff_iff, isNaN_iff, isNaN_iff, unpack_neg]
  cases x.toModel.unpack <;> simp [UnpackedFloat.neg]

@[simp] lemma isNaN_abs (x : Float) : x.abs.isNaN = x.isNaN := by
  rw [Bool.eq_iff_iff, isNaN_iff, isNaN_iff, unpack_abs]
  cases x.toModel.unpack <;> simp [UnpackedFloat.abs]

/-! Finite doubles -/

lemma not_isNaN_of_isFinite (h : x.isFinite) : ¬ x.isNaN := by
  have h : x.toModel.unpack.isFinite = true := h
  rw [isNaN_iff]
  intro hnan
  rw [hnan] at h
  cases h

lemma isFinite_iff : x.isFinite ↔ ¬ x.isNaN ∧ |toRat x| < limit := by
  have hfinite : x.isFinite = x.toModel.unpack.isFinite := rfl
  have hdouble := isDouble_unpack x
  have hlimit := limit_pos
  rw [hfinite, isNaN_iff, toRat, ← valueOf_abs]
  cases hx : x.toModel.unpack with
  | notANumber => simp [UnpackedFloat.isFinite]
  | infinity s => simp [UnpackedFloat.isFinite, UnpackedFloat.abs, valueOf, signed]
  | zero s => simp [UnpackedFloat.isFinite, UnpackedFloat.abs, valueOf, hlimit]
  | finite s m e hm =>
    rw [hx] at hdouble
    simpa [UnpackedFloat.isFinite, UnpackedFloat.abs, valueOf, signed] using Fits.magnitude_lt hdouble

lemma exists_finite (hnan : ¬ x.isNaN) (hpos : 0 < toRat x) (hlt : toRat x < limit) :
    ∃ m e hm, x.toModel.unpack = .finite .positive m e hm ∧ Fits m e ∧ toRat x = m * 2 ^ e := by
  have hdouble := isDouble_unpack x
  rw [isNaN_iff] at hnan
  unfold toRat at *
  cases hx : x.toModel.unpack with
  | notANumber => exact absurd hx hnan
  | zero s =>
    rw [hx] at hpos
    exact absurd hpos (lt_irrefl _)
  | infinity s =>
    rw [hx] at hpos hlt
    cases s
    · exact absurd hpos (not_lt.2 (neg_nonpos.2 limit_pos.le))
    · exact absurd hlt (lt_irrefl _)
  | finite s m e hm =>
    rw [hx] at hpos hdouble
    cases s
    · exact absurd hpos (not_lt.2 (neg_nonpos.2 (magnitude_pos hm e).le))
    · exact ⟨m, e, hm, rfl, hdouble, rfl⟩

end Tabulation.Decimal
