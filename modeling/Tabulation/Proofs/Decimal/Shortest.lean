import Tabulation.Proofs.Decimal.Scientific

/-! The decimal that is written for a double rounds to it, and the integers among the doubles. -/
namespace Tabulation.Decimal

/-- The number that a decimal writes. -/
def Numeral.value (d : Numeral) : ℚ := d.digits * 10 ^ d.exponent

/-- The magnitude of a double. -/
def Binary.value (b : Binary) : ℚ := b.significand * 2 ^ b.exponent

variable {b : Binary} {d : Numeral} {x : Float}

lemma toRat_eq (hx : x.isFinite) : toRat x =
    if x.toBits.toNat < signBit then (Binary.ofFloat x).value else -(Binary.ofFloat x).value := by
  rw [toRat, unpack_of_isFinite hx, Binary.value]
  split_ifs with hzero hsign hsign
  · rw [hzero, Nat.cast_zero, zero_mul]
    rfl
  · rw [hzero, Nat.cast_zero, zero_mul, neg_zero]
    rfl
  · rw [signOf, if_pos hsign]
    rfl
  · rw [signOf, if_neg hsign]
    rfl

lemma value_nonneg (b : Binary) : 0 ≤ b.value := mul_nonneg b.significand.cast_nonneg (two_zpow_pos _).le

lemma abs_toRat (hx : x.isFinite) : |toRat x| = (Binary.ofFloat x).value := by
  rw [toRat_eq hx]
  split_ifs
  · exact abs_of_nonneg (value_nonneg _)
  · rw [abs_neg, abs_of_nonneg (value_nonneg _)]

/-- The magnitude of a double as a fraction. -/
lemma value_eq_div (b : Binary) :
    b.value = (b.significand * powerNumerator 2 b.exponent : Nat) / powerNumerator 2 (-b.exponent) := by
  have h := zpow_eq_div (by decide : 0 < 2) b.exponent
  rw [Nat.cast_ofNat] at h
  rw [Binary.value, h, ← mul_div_assoc, Nat.cast_mul]

/-- The integers among the doubles. -/
theorem integer?_eq_some (hx : x.isFinite) {n : ℤ} : integer? x = some n ↔ toRat x = n := by
  have hunit := powerNumerator_pos (by decide : 0 < 2) (-(Binary.ofFloat x).exponent)
  have hvalue := value_eq_div (Binary.ofFloat x)
  have hsigned := toRat_eq hx
  have habs := abs_toRat hx
  rw [integer?]
  dsimp only
  generalize (Binary.ofFloat x).significand * powerNumerator 2 (Binary.ofFloat x).exponent = whole at hvalue ⊢
  generalize powerNumerator 2 (-(Binary.ofFloat x).exponent) = unit at hunit hvalue ⊢
  have hunitq : (unit : ℚ) ≠ 0 := by exact_mod_cast hunit.ne'
  by_cases hwhole : whole % unit = 0
  · have hdiv : (whole / unit : ℚ) = (whole / unit : Nat) := by
      rw [div_eq_iff hunitq]
      exact_mod_cast (Nat.div_mul_cancel (Nat.dvd_of_mod_eq_zero hwhole)).symm
    rw [if_pos hwhole, hsigned, hvalue, hdiv, Option.some.injEq]
    have hcast : ((whole / unit : Nat) : ℚ) = ((whole / unit : Nat) : ℤ) := (Int.cast_natCast _).symm
    split_ifs
    · rw [hcast, Int.cast_inj]
    · rw [hcast, ← Int.cast_neg, Int.cast_inj]
  · rw [if_neg hwhole]
    refine ⟨nofun, fun h => absurd ?_ hwhole⟩
    rw [h, hvalue, ← Int.cast_abs, Int.abs_eq_natAbs, Int.cast_natCast, eq_div_iff hunitq] at habs
    have hnat : n.natAbs * unit = whole := by exact_mod_cast habs
    rw [← hnat, Nat.mul_mod_left]

/-- The form that a double other than zero has. -/
structure Binary.IsNormal (b : Binary) : Prop where
  pos : 0 < b.significand
  fits : Fits b.significand b.exponent
  narrow : b.narrowBelow ↔ b.significand = 2 ^ 52 ∧ -1074 < b.exponent

lemma isNormal_ofFloat (hx : x.isFinite) (h : (Binary.ofFloat x).significand ≠ 0) :
    (Binary.ofFloat x).IsNormal :=
  ⟨Nat.pos_of_ne_zero h, fits_ofFloat hx h, narrowBelow_iff⟩

/-- The lower end of the decimals that read back, in units of the last bit. -/
def Binary.low (b : Binary) : ℚ := b.significand - if b.narrowBelow then 1 / 4 else 1 / 2

/-- The ends belong to the decimals that read back if the significand is even. -/
lemma Binary.IsNormal.bounds (hb : b.IsNormal) (h : b.readsBack d) :
    (b.low ≤ d.value / 2 ^ b.exponent ∧ (d.value / 2 ^ b.exponent = b.low → Even b.significand)) ∧
      d.value / 2 ^ b.exponent ≤ b.significand + 1 / 2 ∧
        (d.value / 2 ^ b.exponent = b.significand + 1 / 2 → Even b.significand) := by
  have hpos := two_zpow_pos b.exponent
  have hquarter (n : Nat) : (n * 2 ^ (b.exponent - 2) : ℚ) = n / 4 * 2 ^ b.exponent := by
    rw [sub_eq_add_neg, two_zpow_add]
    norm_num
    ring
  have hlow :
      ((if b.narrowBelow then 4 * b.significand - 1 else 4 * b.significand - 2 : Nat) / 4 : ℚ) = b.low := by
    have hone := hb.pos
    unfold Binary.low
    split_ifs
    · rw [Nat.cast_sub (by omega)]
      push_cast
      ring
    · rw [Nat.cast_sub (by omega)]
      push_cast
      ring
  have hhigh : ((4 * b.significand + 2 : Nat) / 4 : ℚ) = b.significand + 1 / 2 := by
    push_cast
    ring
  have hvalue : (d.digits * 10 ^ d.exponent : ℚ) = d.value := rfl
  have heq {q : ℚ} : d.value / 2 ^ b.exponent = q ↔ d.value = q * 2 ^ b.exponent := div_eq_iff hpos.ne'
  unfold Binary.readsBack at h
  simp only [compareScaled_eq, hquarter, hlow, hhigh, hvalue, decide_eq_true_eq, compare_gt_iff_gt,
    compare_lt_iff_lt, compare_eq_iff_eq, ← Nat.even_iff] at h
  rw [le_div_iff₀ hpos, div_le_iff₀ hpos, heq, heq]
  refine ⟨⟨?_, fun hlow => ?_⟩, ?_, fun hhigh => ?_⟩
  · exact h.1.elim le_of_lt fun h => h.2.ge
  · exact h.1.elim (fun h => absurd hlow h.ne') fun h => h.1
  · exact h.2.elim le_of_lt fun h => h.2.le
  · exact h.2.elim (fun h => absurd hhigh h.ne) fun h => h.1

lemma rounds_of_bounds {q : ℚ} {m : Nat} (hlow : m - 1 / 2 ≤ q) (hhigh : q ≤ m + 1 / 2)
    (hlow' : q = m - 1 / 2 → Even m) (hhigh' : q = m + 1 / 2 → Even m) : Rounds q m := by
  refine ⟨abs_le.2 ⟨by linarith, by linarith⟩, fun h => ?_⟩
  rcases (abs_eq (by norm_num)).1 h with h | h
  · exact hhigh' (by linarith)
  · exact hlow' (by linarith)

/-- Below a power of two, the doubles are twice as dense. -/
lemma roundsTo_of_dense {q : ℚ} {e : ℤ} (he : -1074 < e) (hlow : 2 ^ 52 - 1 / 4 ≤ q / 2 ^ e)
    (hhigh : q / 2 ^ e < 2 ^ 52) : RoundsTo q (2 ^ 52 * 2 ^ e) := by
  have hexponent : (2 ^ e : ℚ) = 2 * 2 ^ (e - 1) := by
    rw [← zpow_one_add₀ (by norm_num), add_sub_cancel]
  have hpos := two_zpow_pos (e - 1)
  have hdouble : q / 2 ^ (e - 1) = 2 * (q / 2 ^ e) := by
    rw [hexponent]
    field_simp
  have heven : Even (2 ^ 53) := by decide
  refine ⟨e - 1, 2 ^ 53, ⟨by omega, fun _ => ?_, ?_⟩,
    rounds_of_bounds ?_ ?_ (fun _ => heven) (fun _ => heven), ?_⟩
  · rw [two_zpow_add, ← le_div_iff₀ hpos, hdouble]
    norm_num at *
    linarith
  · rw [two_zpow_add, ← div_lt_iff₀ hpos, hdouble]
    norm_num at *
    linarith
  · rw [hdouble]
    norm_num at *
    linarith
  · rw [hdouble]
    norm_num at *
    linarith
  · rw [hexponent]
    push_cast
    ring

/-- A decimal that reads back to a double rounds to it. -/
theorem Binary.IsNormal.roundsTo (hb : b.IsNormal) (h : b.readsBack d) : RoundsTo d.value b.value := by
  obtain ⟨⟨hlow, hlow'⟩, hhigh, hhigh'⟩ := hb.bounds h
  have hpos := two_zpow_pos b.exponent
  have hlt : (b.significand : ℚ) + 1 ≤ 2 ^ (53 : ℤ) := by exact_mod_cast hb.fits.lt
  have hbelow : d.value < 2 ^ (53 + b.exponent) := by
    rw [two_zpow_add, ← div_lt_iff₀ hpos]
    linarith
  unfold Binary.low at hlow hlow'
  split_ifs at hlow hlow' with hnarrow
  · obtain ⟨hm, he⟩ := hb.narrow.1 hnarrow
    have heven : Even b.significand := by
      rw [hm]
      decide
    by_cases habove : 2 ^ (52 + b.exponent) ≤ d.value
    · exact ⟨b.exponent, b.significand, ⟨hb.fits.low, fun _ => habove, hbelow⟩,
        rounds_of_bounds (by linarith) hhigh (fun _ => heven) (fun _ => heven), rfl⟩
    · rw [not_le, two_zpow_add, ← div_lt_iff₀ hpos] at habove
      have hmq : (b.significand : ℚ) = 2 ^ 52 := by exact_mod_cast hm
      rw [hmq] at hlow
      rw [Binary.value, hmq]
      exact roundsTo_of_dense he hlow habove
  · refine ⟨b.exponent, b.significand, ⟨hb.fits.low, fun he => ?_, hbelow⟩,
      rounds_of_bounds hlow hhigh hlow' hhigh', rfl⟩
    have hne : b.significand ≠ 2 ^ 52 := fun hm => hnarrow (hb.narrow.2 ⟨hm, he⟩)
    have hsucc : (2 ^ (52 : ℤ) + 1 : ℚ) ≤ b.significand := by
      exact_mod_cast Nat.lt_of_le_of_ne (hb.fits.full he) hne.symm
    rw [two_zpow_add, ← le_div_iff₀ hpos]
    linarith

lemma readsBack_of_onGrid? {e : ℤ} (h : b.onGrid? e = some d) : b.readsBack d := by
  unfold Binary.onGrid? at h
  dsimp only at h
  split at h
  · cases h
  · rename_i hbelow habove
    cases h
    exact (Bool.and_eq_true_iff.1 hbelow).1
  · rename_i hbelow habove
    cases h
    exact habove
  · rename_i hbelow habove
    split at h
    · cases h
      exact (Bool.and_eq_true_iff.1 hbelow).1
    · cases h
      exact habove
    · split_ifs at h <;> cases h
      · exact (Bool.and_eq_true_iff.1 hbelow).1
      · exact habove

lemma readsBack_of_search {grids : Nat} {e : ℤ} (h : b.search grids e = some d) : b.readsBack d := by
  induction grids generalizing e with
  | zero => cases h
  | succ n ih =>
    rw [Binary.search] at h
    split at h
    · rename_i hgrid
      cases h
      exact readsBack_of_onGrid? hgrid
    · exact ih h

lemma value_exact : b.exact.value = b.value := by
  unfold Binary.exact
  split_ifs with he
  · obtain ⟨k, hk⟩ := Int.eq_ofNat_of_zero_le he
    simp [Numeral.value, Binary.value, powerNumerator, hk]
  · obtain ⟨k, hk⟩ := Int.eq_ofNat_of_zero_le (neg_nonneg.2 (not_le.1 he).le)
    have hneg : b.exponent = -k := by omega
    have hten : (10 ^ (-k : ℤ) : ℚ) = 2 ^ (-k : ℤ) * 5 ^ (-k : ℤ) := by
      rw [← mul_zpow]
      norm_num
    rw [Numeral.value, Binary.value, hneg, neg_neg, hten]
    simp only [powerNumerator, Int.toNat_natCast, Nat.pow_eq, Nat.cast_mul, Nat.cast_pow, zpow_neg, zpow_natCast]
    have hfive : (5 ^ k : ℚ) ≠ 0 := by positivity
    field_simp
    push_cast
    ring

@[simp] lemma value_trimmed (d : Numeral) (steps : Nat) : (d.trimmed steps).value = d.value := by
  induction steps generalizing d with
  | zero => rfl
  | succ n ih =>
    rw [Numeral.trimmed]
    split_ifs with h
    · have hdigits : (d.digits : ℚ) = 10 * (d.digits / 10 : Nat) := by
        exact_mod_cast (Nat.mul_div_cancel' (Nat.dvd_of_mod_eq_zero h.2)).symm
      rw [ih, Numeral.value, Numeral.value, hdigits, zpow_add₀ (by norm_num), zpow_one]
      ring
    · rfl

lemma roundsTo_zero : RoundsTo 0 0 := by
  have h := roundsTo_of_lt (by decide : 0 < 2 ^ 53) (le_refl (-1074))
  rwa [Nat.cast_zero, zero_mul] at h

/-- The decimal that is written for a double rounds to it. -/
theorem roundsTo_shortest (hx : x.isFinite) : RoundsTo (Binary.ofFloat x).shortest.value |toRat x| := by
  rw [abs_toRat hx]
  unfold Binary.shortest
  split_ifs with hzero
  · rw [Binary.value, Numeral.value, hzero, Nat.cast_zero, zero_mul, zero_mul]
    exact roundsTo_zero
  · have hb := isNormal_ofFloat hx hzero
    rw [value_trimmed]
    cases hsearch : (Binary.ofFloat x).search 18 (Binary.ofFloat x).scale with
    | some d => exact hb.roundsTo (readsBack_of_search hsearch)
    | none =>
      rw [Option.getD_none, value_exact]
      exact roundsTo_magnitude hb.fits.low hb.fits.lt hb.fits.full

end Tabulation.Decimal
