import Tabulation.Decimal.Reading
import Tabulation.Proofs.Decimal.Arithmetic

/-! Decimals with a power of ten are read as the nearest double. -/
namespace Tabulation.Decimal
open Float.Model (UnpackedFloat Format)
open Float.Model.UnpackedFloat (Sign)

variable {q : ℚ} {m n k : Nat} {e : ℤ} {x : Float}

lemma zpow_eq_div {base : Nat} (hbase : 0 < base) (e : ℤ) :
    (base : ℚ) ^ e = powerNumerator base e / powerNumerator base (-e) := by
  have hne : (base : ℚ) ≠ 0 := by exact_mod_cast hbase.ne'
  have hsplit : e = e.toNat - (-e).toNat := by omega
  unfold powerNumerator
  conv_lhs => rw [hsplit, zpow_sub₀ hne]
  norm_cast

lemma powerNumerator_pos {base : Nat} (hbase : 0 < base) (e : ℤ) : 0 < powerNumerator base e := Nat.pow_pos hbase

lemma compare_mul_right {q r c : ℚ} (hc : 0 < c) : compare (q * c) (r * c) = compare q r := by
  rcases lt_trichotomy q r with h | rfl | h
  · rw [compare_lt_iff_lt.2 h, compare_lt_iff_lt.2 (mul_lt_mul_of_pos_right h hc)]
  · rw [compare_eq_iff_eq.2 rfl, compare_eq_iff_eq.2 rfl]
  · rw [compare_gt_iff_gt.2 h, compare_gt_iff_gt.2 (mul_lt_mul_of_pos_right h hc)]

lemma compare_natCast (m n : Nat) : compare (m : ℚ) n = compare m n := by
  rcases lt_trichotomy m n with h | rfl | h
  · rw [compare_lt_iff_lt.2 h, compare_lt_iff_lt.2 (by exact_mod_cast h)]
  · rw [compare_eq_iff_eq.2 rfl, compare_eq_iff_eq.2 rfl]
  · rw [compare_gt_iff_gt.2 h, compare_gt_iff_gt.2 (by exact_mod_cast h)]

/-- Numerators decide how a decimal compares with a multiple of a power of two. -/
lemma compareScaled_eq (a : Nat) (i : ℤ) (b : Nat) (j : ℤ) :
    compareScaled a i b j = compare (a * 10 ^ i : ℚ) (b * 2 ^ j) := by
  have hten : (0 : ℚ) < powerNumerator 10 (-i) := by exact_mod_cast powerNumerator_pos (by decide) _
  have htwo : (0 : ℚ) < powerNumerator 2 (-j) := by exact_mod_cast powerNumerator_pos (by decide) _
  have hi : (10 ^ i * powerNumerator 10 (-i) : ℚ) = powerNumerator 10 i := by
    have h := zpow_eq_div (by decide : 0 < 10) i
    rw [Nat.cast_ofNat] at h
    rw [h, div_mul_cancel₀ _ hten.ne']
  have hj : (2 ^ j * powerNumerator 2 (-j) : ℚ) = powerNumerator 2 j := by
    have h := zpow_eq_div (by decide : 0 < 2) j
    rw [Nat.cast_ofNat] at h
    rw [h, div_mul_cancel₀ _ htwo.ne']
  rw [compareScaled, ← compare_natCast, ← @compare_mul_right (a * 10 ^ i) _ _ (mul_pos hten htwo)]
  push_cast
  rw [← hi, ← hj]
  congr 1 <;> ring

lemma ten_zpow_pos (e : ℤ) : (0 : ℚ) < 10 ^ e := zpow_pos (by norm_num) e

/-- A positive double that is no subnormal one, with its value. -/
def HasValue (x : Float) (q : ℚ) : Prop :=
  ∃ m e hm, x.toModel.unpack = .finite .positive m e hm ∧ 2 ^ 52 ≤ m ∧ (m * 2 ^ e : ℚ) = q

lemma HasValue.mul {y : Float} {r : ℚ} (hx : HasValue x q) (hy : HasValue y r) : Nearest (q * r) (x * y) := by
  obtain ⟨m, e, hm, hx, hfull, rfl⟩ := hx
  obtain ⟨n, f, hn, hy, -, rfl⟩ := hy
  have hmul : x * y = .ofModel (.pack (UnpackedFloat.mul .binary64 x.toModel.unpack y.toModel.unpack)) := rfl
  rw [hmul, hx, hy]
  exact nearest_mul (hfull.trans (Nat.le_mul_of_pos_right m hn))

lemma HasValue.div {y : Float} {r : ℚ} (hx : HasValue x q) (hy : HasValue y r) : Nearest (q / r) (x / y) := by
  obtain ⟨m, e, hm, hx, -, rfl⟩ := hx
  obtain ⟨n, f, hn, hy, -, rfl⟩ := hy
  have hdiv : x / y = .ofModel (.pack (UnpackedFloat.div .binary64 x.toModel.unpack y.toModel.unpack)) := rfl
  rw [hdiv, hx, hy]
  exact nearest_div

lemma HasValue.zero_mul (hx : HasValue x q) : Nearest 0 ((0 : Nat).toUInt64.toFloat * x) := by
  obtain ⟨m, e, hm, hx, -⟩ := hx
  have hmul : (0 : Nat).toUInt64.toFloat * x =
      .ofModel (.pack (UnpackedFloat.mul .binary64 (.zero .positive) x.toModel.unpack)) := rfl
  rw [hmul, hx]
  exact nearest_zero

lemma HasValue.zero_div (hx : HasValue x q) : Nearest 0 ((0 : Nat).toUInt64.toFloat / x) := by
  obtain ⟨m, e, hm, hx, -⟩ := hx
  have hdiv : (0 : Nat).toUInt64.toFloat / x =
      .ofModel (.pack (UnpackedFloat.div .binary64 (.zero .positive) x.toModel.unpack)) := rfl
  rw [hdiv, hx]
  exact nearest_zero

lemma natCast_lt_limit (hm : m < 2 ^ 53) : (m : ℚ) < limit :=
  calc (m : ℚ) < 2 ^ (53 : ℤ) := by exact_mod_cast hm
    _ ≤ limit := two_zpow_le (by decide)

lemma Nearest.toRat_natCast (hx : Nearest m x) (hm : m < 2 ^ 53) : toRat x = m := by
  obtain ⟨v, hv, hx⟩ := hx.value
  have hexact : RoundsTo m m := by
    have h := roundsTo_of_lt hm (by decide : -1074 ≤ (0 : ℤ))
    rwa [zpow_zero, mul_one] at h
  rw [hx, hv.unique hexact]
  exact min_eq_left (natCast_lt_limit hm).le

lemma hasValue_natCast (hpos : 0 < m) (hm : m < 2 ^ 53) (hx : Nearest m x) : HasValue x m := by
  have hvalue := hx.toRat_natCast hm
  have hone : (1 : ℚ) ≤ toRat x := by
    rw [hvalue]
    exact_mod_cast hpos
  obtain ⟨n, e, hn, hunpack, hfits, hn'⟩ :=
    exists_finite hx.not_nan (by linarith) (hvalue ▸ natCast_lt_limit hm)
  refine ⟨n, e, hn, hunpack, hfits.full ?_, hn'.symm.trans hvalue⟩
  by_contra hlow
  have hlt := magnitude_lt hfits.lt e
  have hpow : (2 : ℚ) ^ (53 + e) ≤ 2 ^ (0 : ℤ) := two_zpow_le (by omega)
  rw [zpow_zero] at hpow
  linarith

/-- Whether a double is a power of ten. -/
def isPower (k : Nat) (x : Float) : Bool :=
  match x.toModel.unpack with
  | .finite .positive m e _ => 2 ^ 52 ≤ m ∧ compareScaled 1 k m e = .eq
  | _ => false

lemma hasValue_of_isPower (h : isPower k x) : HasValue x (10 ^ k) := by
  unfold isPower at h
  split at h
  · rename_i m e hm hx
    obtain ⟨hfull, hvalue⟩ := of_decide_eq_true h
    rw [compareScaled_eq, compare_eq_iff_eq, Nat.cast_one, one_mul, zpow_natCast] at hvalue
    exact ⟨m, e, hm, hx, hfull, hvalue.symm⟩
  · cases h

/-- The powers of ten in the table are exact. -/
lemma hasValue_power (hk : k < Float.exactlyRepresentablePowersOfTen.size) :
    HasValue Float.exactlyRepresentablePowersOfTen[k] (10 ^ k) := by
  have htable : ∀ k : Fin 23, isPower k Float.exactlyRepresentablePowersOfTen[k] := by decide +kernel
  exact hasValue_of_isPower (htable ⟨k, hk⟩)

/-- The double of an integer of 53 bits. -/
lemma nearest_toFloat (hm : m < 2 ^ 53) : Nearest m m.toUInt64.toFloat := by
  have htoNat : m.toUInt64.toNat = m := Nat.mod_eq_of_lt (by omega)
  have hofNat : m.toUInt64.toFloat = .ofModel (.ofNat m.toUInt64.toNat) := rfl
  rw [hofNat, htoNat]
  exact nearest_ofNat m

lemma two_zpow_le_ten (h : 0 ≤ e) : (2 : ℚ) ^ e ≤ 10 ^ e := by
  obtain ⟨k, rfl⟩ := Int.eq_ofNat_of_zero_le h
  exact_mod_cast Nat.pow_le_pow_left (by decide : 2 ≤ 10) k

lemma ten_zpow_le_two (h : e ≤ 0) : (10 : ℚ) ^ e ≤ 2 ^ e := by
  have hneg := two_zpow_le_ten (neg_nonneg.2 h)
  rw [zpow_neg, zpow_neg] at hneg
  exact (inv_le_inv₀ (two_zpow_pos e) (ten_zpow_pos e)).1 hneg

/-- Powers of ten that are too large or too small are not even computed. -/
lemma nearest_model_ofScientific (m : Nat) (e : ℤ) :
    Nearest (m * 10 ^ e) (.ofModel (.ofScientific m e)) := by
  have hinfinity : IsDouble (.infinity .positive) := trivial
  have hzero : IsDouble (.zero .positive) := trivial
  unfold Float.Model.ofScientific UnpackedFloat.ofScientific
  split_ifs with hm hlarge hsmall hsign
  · rw [hm, Nat.cast_zero, zero_mul]
    exact nearest_zero
  · have hone : (1 : ℚ) ≤ m := by exact_mod_cast Nat.pos_of_ne_zero hm
    refine nearest_of_limit_le ?_ (unpack_pack hinfinity)
    calc limit ≤ 2 ^ e := two_zpow_le (by norm_num at hlarge; omega)
      _ ≤ 10 ^ e := two_zpow_le_ten (by norm_num at hlarge; omega)
      _ ≤ m * 10 ^ e := le_mul_of_one_le_left (ten_zpow_pos e).le hone
  · have hlog : (m : ℚ) ≤ 2 ^ (m.log2 + 1 : ℤ) := by exact_mod_cast Nat.lt_log2_self.le
    refine nearest_of_le_half (mul_nonneg m.cast_nonneg (ten_zpow_pos e).le) ?_ (unpack_pack hzero)
    calc (m * 10 ^ e : ℚ) ≤ 2 ^ (m.log2 + 1 : ℤ) * 2 ^ e := by
          refine mul_le_mul hlog (ten_zpow_le_two ?_) (ten_zpow_pos e).le (two_zpow_pos _).le
          norm_num at hsmall
          omega
      _ = 2 ^ (m.log2 + 1 + e : ℤ) := (two_zpow_add _ _).symm
      _ ≤ 2 ^ (-1075 : ℤ) := two_zpow_le (by norm_num at hsmall; omega)
  · have hq : (m * 10 ^ e : ℚ) = (m <<< 53 : Nat) * 2 ^ (-53 : ℤ) * ((10 ^ e.toNat : Nat) * 2 ^ (0 : ℤ)) := by
      have hten : (10 : ℚ) ^ e = (10 ^ e.toNat : Nat) := by
        conv_lhs => rw [← Int.toNat_of_nonneg hsign]
        norm_cast
      have htwo : (2 ^ 53 * 2 ^ (-53 : ℤ) : ℚ) = 1 := by norm_num
      rw [hten, Nat.shiftLeft_eq, zpow_zero, mul_one, Nat.cast_mul, Nat.cast_pow 2, Nat.cast_two, mul_assoc (m : ℚ),
        htwo, mul_one]
    rw [hq]
    refine nearest_mul ?_
    rw [Nat.shiftLeft_eq]
    calc 2 ^ 52 ≤ 1 * 2 ^ 53 * 1 := by decide
      _ ≤ m * 2 ^ 53 * 10 ^ e.toNat :=
        Nat.mul_le_mul (Nat.mul_le_mul_right _ (Nat.pos_of_ne_zero hm)) (Nat.pow_pos (by decide))
  · have hq : (m * 10 ^ e : ℚ) = m * 2 ^ (0 : ℤ) / ((10 ^ (-e).toNat : Nat) * 2 ^ (0 : ℤ)) := by
      have hten : (10 : ℚ) ^ e = ((10 ^ (-e).toNat : Nat) : ℚ)⁻¹ := by
        conv_lhs => rw [← neg_neg e, zpow_neg, ← Int.toNat_of_nonneg (by omega : 0 ≤ -e)]
        norm_cast
      rw [hten, zpow_zero, mul_one, mul_one, div_eq_mul_inv]
    rw [hq]
    exact nearest_div

/-- A decimal with a power of ten is read as the nearest double. -/
lemma nearest_ofScientific (m : Nat) (negative : Bool) (k : Nat) :
    Nearest (m * 10 ^ (if negative then -k else k : ℤ)) (Float.ofScientific m negative k) := by
  unfold Float.ofScientific
  by_cases hfast : m < 2 ^ 53 ∧ k ≤ 22
  · rw [dif_pos hfast]
    obtain ⟨hm, hk⟩ := hfast
    have hpower := hasValue_power (by simp [Float.exactlyRepresentablePowersOfTen]; omega : k < _)
    rcases Nat.eq_zero_or_pos m with rfl | hpos
    · rw [Nat.cast_zero, zero_mul]
      cases negative
      · exact hpower.zero_mul
      · exact hpower.zero_div
    · have hvalue := hasValue_natCast hpos hm (nearest_toFloat hm)
      cases negative
      · exact hvalue.mul hpower
      · have hq : (m * 10 ^ (-k : ℤ) : ℚ) = m / 10 ^ k := by rw [zpow_neg, zpow_natCast, div_eq_mul_inv]
        exact hq ▸ hvalue.div hpower
  · rw [dif_neg hfast]
    have hexponent : (if negative then Int.negOfNat k else Int.ofNat k) = if negative then -(k : ℤ) else k := by
      cases negative
      · rfl
      · exact Int.negOfNat_eq
    dsimp only
    rw [hexponent]
    exact nearest_model_ofScientific m _

lemma digitCount_pos (n : Nat) : 0 < nearest.digitCount n := Nat.length_toDigits_pos

lemma lt_ten_pow (n : Nat) : n < 10 ^ nearest.digitCount n :=
  (Nat.length_toDigits_le_iff (by decide) (digitCount_pos n)).1 le_rfl

lemma ten_pow_le (hn : 0 < n) : 10 ^ (nearest.digitCount n - 1) ≤ n := by
  by_contra hlt
  by_cases hone : nearest.digitCount n - 1 = 0
  · rw [hone] at hlt
    omega
  · have h := (Nat.length_toDigits_le_iff (by decide : 1 < 10) (Nat.pos_of_ne_zero hone)).2 (not_le.1 hlt)
    have hpos := digitCount_pos n
    unfold nearest.digitCount at *
    omega

/-- A decimal is read as the nearest double, however large or small it is. -/
theorem nearest_nearest (n : Nat) (e : ℤ) : Nearest (n * 10 ^ e) (nearest n e) := by
  have hexponent : (if decide (e < 0) then -(e.natAbs : ℤ) else e.natAbs) = e := by
    by_cases h : e < 0
    · rw [decide_eq_true h, if_pos rfl]
      omega
    · rw [decide_eq_false h, if_neg nofun]
      omega
  have hscientific := nearest_ofScientific n (e < 0) e.natAbs
  rw [hexponent] at hscientific
  unfold nearest
  split_ifs with hn
  · rw [hn, Nat.cast_zero, zero_mul]
    have hzero := nearest_ofScientific 0 true 1
    rwa [Nat.cast_zero, zero_mul] at hzero
  dsimp only
  have hpos : 0 < n := Nat.pos_of_ne_zero hn
  split_ifs with hlarge hsmall
  · refine nearest_of_limit_le ?_ rfl
    have hn : (10 ^ ((nearest.digitCount n - 1 : Nat) : ℤ) : ℚ) ≤ n := by exact_mod_cast ten_pow_le hpos
    have hlimit : limit < 10 ^ (310 : ℤ) := by
      have h : compareScaled 1 310 1 1024 = .gt := by decide +kernel
      rwa [compareScaled_eq, compare_gt_iff_gt, Nat.cast_one, one_mul, one_mul] at h
    have hcount := digitCount_pos n
    calc limit ≤ 10 ^ (310 : ℤ) := hlimit.le
      _ ≤ 10 ^ ((nearest.digitCount n - 1 : Nat) + e : ℤ) := zpow_le_zpow_right₀ (by norm_num) (by omega)
      _ = 10 ^ ((nearest.digitCount n - 1 : Nat) : ℤ) * 10 ^ e := zpow_add₀ (by norm_num) _ _
      _ ≤ n * 10 ^ e := mul_le_mul_of_nonneg_right hn (ten_zpow_pos e).le
  · refine nearest_of_le_half (mul_nonneg n.cast_nonneg (ten_zpow_pos e).le) ?_ rfl
    have hn : (n : ℚ) ≤ 10 ^ (nearest.digitCount n : ℤ) := by exact_mod_cast (lt_ten_pow n).le
    have hhalf : (10 ^ (-331 : ℤ) : ℚ) < 2 ^ (-1075 : ℤ) := by
      have h : compareScaled 1 (-331) 1 (-1075) = .lt := by decide +kernel
      rwa [compareScaled_eq, compare_lt_iff_lt, Nat.cast_one, one_mul, one_mul] at h
    calc (n * 10 ^ e : ℚ) ≤ 10 ^ (nearest.digitCount n : ℤ) * 10 ^ e :=
          mul_le_mul_of_nonneg_right hn (ten_zpow_pos e).le
      _ = 10 ^ (nearest.digitCount n + e : ℤ) := (zpow_add₀ (by norm_num) _ _).symm
      _ ≤ 10 ^ (-331 : ℤ) := zpow_le_zpow_right₀ (by norm_num) (by omega)
      _ ≤ 2 ^ (-1075 : ℤ) := hhalf.le
  · exact hscientific

/-! Integers -/

lemma nearest_floatOfNat (n : Nat) : Nearest n (Float.ofNat n) := by
  have h := nearest_ofScientific n false 0
  rwa [if_neg nofun, Nat.cast_zero, zpow_zero, mul_one] at h

lemma nearest_floatOfInt (h : 0 ≤ e) : Nearest e (Float.ofInt e) := by
  obtain ⟨n, rfl⟩ := Int.eq_ofNat_of_zero_le h
  exact_mod_cast nearest_floatOfNat n

lemma ofInt_neg (h : 0 < e) : Float.ofInt (-e) = -Float.ofInt e := by
  obtain ⟨n, rfl⟩ := Int.eq_succ_of_zero_lt h
  rfl

lemma not_isNaN_ofInt (e : ℤ) : ¬ (Float.ofInt e).isNaN := by
  rcases le_or_gt 0 e with h | h
  · exact (nearest_floatOfInt h).not_nan
  · rw [← neg_neg e, ofInt_neg (neg_pos.2 h), isNaN_neg]
    exact (nearest_floatOfInt (neg_pos.2 h).le).not_nan

lemma toRat_ofInt_neg (e : ℤ) : toRat (Float.ofInt (-e)) = -toRat (Float.ofInt e) := by
  rcases lt_trichotomy e 0 with h | rfl | h
  · have hneg := ofInt_neg (neg_pos.2 h)
    rw [neg_neg] at hneg
    rw [hneg, toRat_neg, neg_neg]
  · have hzero : toRat (Float.ofInt 0) = 0 := by
      have h := (nearest_floatOfNat 0).toRat_natCast (by decide)
      rwa [Nat.cast_zero] at h
    rw [neg_zero, hzero, neg_zero]
  · rw [ofInt_neg h, toRat_neg]

lemma toRat_nonneg {q : ℚ} (hq : 0 ≤ q) (h : Nearest q x) : 0 ≤ toRat x := by
  have hzero := (nearest_floatOfNat 0).toRat_natCast (by decide)
  rw [Nat.cast_zero] at hzero
  rw [← hzero]
  exact Nearest.mono (q := (0 : Nat)) (nearest_floatOfNat 0) h (by simpa using hq)

/-- The larger of two integers has no smaller double. -/
lemma toRat_ofInt_mono {m n : ℤ} (h : m ≤ n) : toRat (Float.ofInt m) ≤ toRat (Float.ofInt n) := by
  have hnonneg {m n : ℤ} (hm : 0 ≤ m) (h : m ≤ n) : toRat (Float.ofInt m) ≤ toRat (Float.ofInt n) :=
    (nearest_floatOfInt hm).mono (nearest_floatOfInt (hm.trans h)) (by exact_mod_cast h)
  rcases le_or_gt 0 m with hm | hm
  · exact hnonneg hm h
  · rcases le_or_gt 0 n with hn | hn
    · have hm' := toRat_nonneg (by exact_mod_cast (neg_pos.2 hm).le) (nearest_floatOfInt (neg_pos.2 hm).le)
      have hn' := toRat_nonneg (by exact_mod_cast hn) (nearest_floatOfInt hn)
      rw [toRat_ofInt_neg] at hm'
      linarith
    · have hneg := hnonneg (neg_pos.2 hn).le (neg_le_neg h)
      rwa [toRat_ofInt_neg, toRat_ofInt_neg, neg_le_neg_iff] at hneg

/-- Integers of 53 bits are doubles. -/
lemma toRat_ofInt (h : |e| < 2 ^ 53) : toRat (Float.ofInt e) = e := by
  have hnonneg {e : ℤ} (hpos : 0 ≤ e) (h : e < 2 ^ 53) : toRat (Float.ofInt e) = e := by
    obtain ⟨n, rfl⟩ := Int.eq_ofNat_of_zero_le hpos
    exact_mod_cast (nearest_floatOfNat n).toRat_natCast (by exact_mod_cast h)
  obtain ⟨hlow, hhigh⟩ := abs_lt.1 h
  rcases le_or_gt 0 e with hpos | hneg
  · exact hnonneg hpos hhigh
  · have hvalue := hnonneg (neg_pos.2 hneg).le (by omega)
    rw [toRat_ofInt_neg, Int.cast_neg] at hvalue
    exact neg_injective hvalue

end Tabulation.Decimal
