import Tabulation.Proofs.Decimal.Rounding

/-! Products and quotients of doubles, and decimals with a power of ten: each is the double nearest to the
exact number. -/
namespace Tabulation.Decimal
open Float.Model (UnpackedFloat Format)
open Float.Model.UnpackedFloat (Sign Accuracy ExtendedMantissa)

variable {q : ℚ} {m n r : Nat} {e f t : ℤ} {s : Sign} {a : Accuracy}

/-- The exponent of the grid for a number that begins with `m · 2 ^ e`. -/
def target (m : Nat) (e : ℤ) : ℤ := max (m.log2 + 1 + e - 53) (-1074)

lemma onGrid_target (hlow : m ≤ q / 2 ^ e) (hhigh : q / 2 ^ e < m + 1) (he : e ≤ target m e) :
    OnGrid q (target m e) := by
  have hpos := two_zpow_pos e
  rw [le_div_iff₀ hpos] at hlow
  rw [div_lt_iff₀ hpos] at hhigh
  refine ⟨le_max_right _ _, fun h => ?_, ?_⟩
  · have ht : 52 + target m e = m.log2 + e := by unfold target at *; omega
    have hm : m ≠ 0 := by
      rintro rfl
      unfold target at *
      rw [Nat.log2_zero] at *
      omega
    have hlog : (2 ^ (m.log2 : ℤ) : ℚ) ≤ m := by exact_mod_cast Nat.log2_self_le hm
    rw [ht, two_zpow_add]
    exact (mul_le_mul_of_nonneg_right hlog hpos.le).trans hlow
  · have ht : m.log2 + 1 + e ≤ 53 + target m e := by unfold target; omega
    have hlog : (m + 1 : ℚ) ≤ 2 ^ (m.log2 + 1 : ℤ) := by exact_mod_cast Nat.lt_log2_self
    calc q < (m + 1) * 2 ^ e := hhigh
      _ ≤ 2 ^ (m.log2 + 1 : ℤ) * 2 ^ e := mul_le_mul_of_nonneg_right hlog hpos.le
      _ = 2 ^ (m.log2 + 1 + e : ℤ) := (two_zpow_add _ _).symm
      _ ≤ 2 ^ (53 + target m e) := two_zpow_le ht

lemma shift_eq (m : Nat) (e : ℤ) (a : Accuracy) :
    UnpackedFloat.shiftToTargetExponent .binary64 m e a =
      (ExtendedMantissa.ofMantissaAndAccuracy m a >>> (target m e - e).toNat,
        e + ((target m e - e).toNat : ℤ)) := rfl

/-- After rounding, a carry is the only thing to be shifted away. -/
lemma shift_rounded (hr : r ≤ 2 ^ 53) (ht : -1074 ≤ t) :
    UnpackedFloat.shiftToTargetExponent .binary64 r t .exact =
      if r = 2 ^ 53 then (⟨2 ^ 52, false, false⟩, t + 1) else (⟨r, false, false⟩, t) := by
  rw [shift_eq]
  split_ifs with hcarry
  · have htarget : target r t = t + 1 := by
      rw [hcarry, target, Nat.log2_two_pow]
      omega
    rw [htarget, add_sub_cancel_left, hcarry]
    rfl
  · have hlog : r.log2 ≤ 52 := by
      by_cases hzero : r = 0
      · rw [hzero, Nat.log2_zero]
        omega
      · exact Nat.le_of_lt_succ ((Nat.log2_lt hzero).2 (by omega))
    have htarget : (target r t - t).toNat = 0 := by
      unfold target
      omega
    rw [htarget]
    exact Prod.ext rfl (add_zero t)

/-- What is known of a number lets it be rounded to its double. -/
lemma roundWithAccuracy_eq (h : Locates m a (q / 2 ^ e)) (he : e ≤ target m e) :
    ∃ t r, OnGrid q t ∧ Rounds (q / 2 ^ t) r ∧
      UnpackedFloat.roundWithAccuracy .binary64 s m e a = onGrid s r t := by
  have hgrid := onGrid_target h.bounds.1 h.bounds.2 he
  have hexponent : e + ((target m e - e).toNat : ℤ) = target m e := by omega
  have hmantissa : Locates (ExtendedMantissa.ofMantissaAndAccuracy m a).mantissa
      (ExtendedMantissa.ofMantissaAndAccuracy m a).accuracy (q / 2 ^ e) := by
    match a, h with
    | .exact, h | .inexact .lt, h | .inexact .eq, h | .inexact .gt, h => exact h
  have hrounds : Rounds (q / 2 ^ target m e)
      (ExtendedMantissa.ofMantissaAndAccuracy m a >>> (target m e - e).toNat).roundedMantissa := by
    have h := (hmantissa.shiftRight (target m e - e).toNat).rounds
    rwa [div_div, ← two_zpow_add, hexponent] at h
  refine ⟨_, _, hgrid, hrounds, ?_⟩
  unfold UnpackedFloat.roundWithAccuracy
  rw [shift_eq, hexponent]
  dsimp only
  generalize (ExtendedMantissa.ofMantissaAndAccuracy m a >>> (target m e - e).toNat).roundedMantissa = r
    at hrounds ⊢
  rw [shift_rounded (hgrid.le_of_rounds hrounds) hgrid.low, onGrid]
  by_cases hcarry : r = 2 ^ 53
  · subst hcarry
    rfl
  · simp only [if_neg hcarry]

/-- The double of an exact number. -/
lemma nearest_roundWithAccuracy (h : Locates m a (q / 2 ^ e)) (he : e ≤ target m e) :
    Nearest q (.ofModel (.pack (UnpackedFloat.roundWithAccuracy .binary64 .positive m e a))) := by
  obtain ⟨t, r, ht, hr, hround⟩ := @roundWithAccuracy_eq q m e .positive a h he
  rw [hround]
  exact nearest_pack ht hr

lemma locates_exact (m : Nat) (e : ℤ) : Locates m .exact (m * 2 ^ e / 2 ^ e) :=
  mul_div_cancel_right₀ _ (two_zpow_pos e).ne'

lemma nearest_mul {hm : 0 < m} {hn : 0 < n} (h : 2 ^ 52 ≤ m * n) :
    Nearest (m * 2 ^ e * (n * 2 ^ f)) (.ofModel (.pack
      (UnpackedFloat.mul .binary64 (.finite .positive m e hm) (.finite .positive n f hn)))) := by
  have hq : (m * 2 ^ e * (n * 2 ^ f) : ℚ) = (m * n : Nat) * 2 ^ (e + f) := by
    rw [two_zpow_add]
    push_cast
    ring
  have hlog : 52 ≤ (m * n).log2 := (Nat.le_log2 (by omega)).2 h
  rw [hq]
  exact nearest_roundWithAccuracy (locates_exact _ _) (by unfold target; omega)

lemma locates_fraction (hn : 0 < n) (m : Nat) :
    Locates (m / n) (UnpackedFloat.accuracyOfFraction (m % n) n) (m / n) := by
  have hcast : (0 : ℚ) < n := by exact_mod_cast hn
  have hq : (m / n : ℚ) = (m / n : Nat) + (m % n : Nat) / n := by
    rw [div_eq_iff hcast.ne', add_mul, div_mul_cancel₀ _ hcast.ne']
    exact_mod_cast (Nat.div_add_mod' m n).symm
  have hlt : ((m % n : Nat) : ℚ) < n := by exact_mod_cast Nat.mod_lt m hn
  rw [hq]
  generalize m / n = k
  generalize m % n = r at hlt ⊢
  unfold UnpackedFloat.accuracyOfFraction
  split_ifs with hzero
  · rw [hzero, Nat.cast_zero, zero_div, add_zero]
    rfl
  · have hpos : (0 : ℚ) < r / n := div_pos (by exact_mod_cast Nat.pos_of_ne_zero hzero) hcast
    rcases lt_trichotomy (2 * r) n with h | h | h
    · have hhalf : (r / n : ℚ) < 1 / 2 := by
        rw [div_lt_div_iff₀ hcast two_pos, mul_comm, one_mul]
        exact_mod_cast h
      rw [compare_lt_iff_lt.2 h]
      exact ⟨by linarith, by linarith⟩
    · have hhalf : (r / n : ℚ) = 1 / 2 := by
        rw [div_eq_div_iff hcast.ne' two_ne_zero, mul_comm, one_mul]
        exact_mod_cast h
      rw [compare_eq_iff_eq.2 h, hhalf]
      rfl
    · have hhalf : (1 / 2 : ℚ) < r / n := by
        rw [div_lt_div_iff₀ two_pos hcast, mul_comm _ (2 : ℚ), one_mul]
        exact_mod_cast h
      have hone : (r / n : ℚ) < 1 := (div_lt_one hcast).2 hlt
      rw [compare_gt_iff_gt.2 h]
      exact ⟨by linarith, by linarith⟩

lemma nearest_div {hm : 0 < m} {hn : 0 < n} :
    Nearest (m * 2 ^ e / (n * 2 ^ f)) (.ofModel (.pack
      (UnpackedFloat.div .binary64 (.finite .positive m e hm) (.finite .positive n f hn)))) := by
  have hcore : UnpackedFloat.divCore .binary64 m e n f =
      let t := min (e - f) (max (m.log2 + 1 + e - (n.log2 + 1 + f) - 53) (-1074))
      let k := m <<< (e - f - t).toNat
      (k / n, t, UnpackedFloat.accuracyOfFraction (k % n) n) := rfl
  dsimp only at hcore
  generalize ht : min (e - f) (max (m.log2 + 1 + e - (n.log2 + 1 + f) - 53 : ℤ) (-1074)) = t at hcore
  have hdiv : UnpackedFloat.div .binary64 (.finite .positive m e hm) (.finite .positive n f hn) = 
      UnpackedFloat.roundWithAccuracy .binary64 .positive (m <<< (e - f - t).toNat / n) t 
        (UnpackedFloat.accuracyOfFraction (m <<< (e - f - t).toNat % n) n) := by
    simp only [UnpackedFloat.div, hcore]
    rfl
  have hshift : e - f - t = ((e - f - t).toNat : ℤ) := by omega
  generalize (e - f - t).toNat = k at hdiv hshift
  rw [hdiv, Nat.shiftLeft_eq]
  apply nearest_roundWithAccuracy
  · have hq : (m * 2 ^ e / (n * 2 ^ f) / 2 ^ t : ℚ) = (m * 2 ^ k : Nat) / n := by
      have hpow : (2 ^ e : ℚ) = 2 ^ (k : ℤ) * (2 ^ f * 2 ^ t) := by
        rw [← two_zpow_add, ← two_zpow_add]
        congr 1
        omega
      have hf := (two_zpow_pos f).ne'
      have ht := (two_zpow_pos t).ne'
      rw [hpow, div_div, mul_assoc, ← mul_assoc (m : ℚ), mul_div_mul_right _ _ (mul_ne_zero hf ht)]
      norm_cast
    rw [hq]
    exact locates_fraction hn _
  · by_cases hlow : t ≤ -1074
    · unfold target
      omega
    have hquotient : 2 ^ (m.log2 + k - n.log2 - 1) ≤ m * 2 ^ k / n := by
      rw [Nat.le_div_iff_mul_le hn]
      calc 2 ^ (m.log2 + k - n.log2 - 1) * n
          ≤ 2 ^ (m.log2 + k - n.log2 - 1) * 2 ^ (n.log2 + 1) := Nat.mul_le_mul_left _ Nat.lt_log2_self.le
        _ = 2 ^ m.log2 * 2 ^ k := by
          rw [← pow_add, ← pow_add]
          congr 1
          omega
        _ ≤ m * 2 ^ k := Nat.mul_le_mul_right _ (Nat.log2_self_le hm.ne')
    have hlog := (Nat.le_log2 ((Nat.two_pow_pos _).trans_le hquotient).ne').2 hquotient
    unfold target
    omega

lemma log2_mul_two_pow (hm : 0 < m) (k : Nat) : (m * 2 ^ k).log2 = m.log2 + k := by
  have hpow := Nat.two_pow_pos k
  refine (Nat.log2_eq_iff (Nat.mul_pos hm hpow).ne').2 ⟨?_, ?_⟩
  · rw [pow_add]
    exact Nat.mul_le_mul_right _ (Nat.log2_self_le hm.ne')
  · rw [add_right_comm, pow_add]
    exact Nat.mul_lt_mul_of_pos_right Nat.lt_log2_self hpow

lemma nearest_round (hm : 0 < m) :
    Nearest (m * 2 ^ e) (.ofModel (.pack (UnpackedFloat.round .binary64 .positive m e))) := by
  have hround : UnpackedFloat.round .binary64 .positive m e =
      UnpackedFloat.roundWithAccuracy .binary64 .positive (m <<< (e - target m e).toNat)
        (e - (e - target m e).toNat) .exact := rfl
  rw [hround, Nat.shiftLeft_eq]
  generalize hk : (e - target m e).toNat = k
  have hq : (m * 2 ^ e : ℚ) = (m * 2 ^ k : Nat) * 2 ^ (e - k) := by
    have hpow : (2 ^ e : ℚ) = 2 ^ (k : ℤ) * 2 ^ (e - k) := by rw [← two_zpow_add, add_sub_cancel]
    rw [hpow, ← mul_assoc]
    norm_cast
  have hlog := log2_mul_two_pow hm k
  rw [hq]
  refine nearest_roundWithAccuracy (locates_exact _ _) ?_
  unfold target at *
  omega

lemma nearest_zero : Nearest 0 (.ofModel (.pack (.zero .positive))) := by
  have hgrid : OnGrid 0 (-1074) := ⟨le_rfl, fun h => absurd h (lt_irrefl _), two_zpow_pos _⟩
  have hrounds : Rounds (0 / 2 ^ (-1074 : ℤ)) 0 := by
    rw [zero_div]
    exact_mod_cast rounds_natCast 0
  exact nearest_pack hgrid hrounds

lemma nearest_ofNat (n : Nat) : Nearest n (.ofModel (.ofNat n)) := by
  rcases Nat.eq_zero_or_pos n with rfl | hn
  · exact_mod_cast nearest_zero
  · have hround : Float.Model.ofNat n = .pack (UnpackedFloat.round .binary64 .positive n 0) := by
      have hcompare : compare (n : ℤ) 0 = .gt := compare_gt_iff_gt.2 (by exact_mod_cast hn)
      unfold Float.Model.ofNat UnpackedFloat.ofNat UnpackedFloat.ofInt UnpackedFloat.normalize
      rw [hcompare]
      rfl
    have hnearest := nearest_round hn (e := 0)
    rw [zpow_zero, mul_one] at hnearest
    rwa [hround]

/-- Integers of 53 bits have doubles. -/
lemma roundsTo_of_lt (hm : m < 2 ^ 53) (he : -1074 ≤ e) : RoundsTo (m * 2 ^ e) (m * 2 ^ e) := by
  rcases Nat.eq_zero_or_pos m with rfl | hpos
  · rw [Nat.cast_zero, zero_mul]
    refine ⟨-1074, 0, ⟨le_rfl, fun h => absurd h (lt_irrefl _), two_zpow_pos _⟩, ?_, by simp⟩
    rw [zero_div]
    exact_mod_cast rounds_natCast 0
  · -- the significand is shifted to the left as far as its exponent allows
    have hle := (Nat.log2_lt hpos.ne').2 hm
    obtain ⟨k, hk⟩ : ∃ k : Nat, (k : ℤ) = min (52 - (m.log2 : ℤ)) (e + 1074) :=
      ⟨_, Int.toNat_of_nonneg (by omega)⟩
    have hlog := log2_mul_two_pow hpos k
    have hshifted : 0 < m * 2 ^ k := Nat.mul_pos hpos (Nat.two_pow_pos k)
    have hq : (m * 2 ^ e : ℚ) = (m * 2 ^ k : Nat) * 2 ^ (e - k) := by
      have hpow : (2 ^ e : ℚ) = 2 ^ (k : ℤ) * 2 ^ (e - k) := by rw [← two_zpow_add, add_sub_cancel]
      rw [hpow, ← mul_assoc]
      norm_cast
    rw [hq]
    refine roundsTo_magnitude (by omega) ((Nat.log2_lt hshifted.ne').1 (by omega)) fun hlow => ?_
    exact (Nat.le_log2 hshifted.ne').1 (by omega)

lemma nearest_of_limit_le {x : Float} (h : limit ≤ q) (hx : x.toModel.unpack = .infinity .positive) :
    Nearest q x := by
  obtain ⟨v, hv⟩ := exists_roundsTo (limit_pos.le.trans h)
  have hlimit : RoundsTo limit limit := by
    have hq : limit = (1 : Nat) * 2 ^ (1024 : ℤ) := by rw [Nat.cast_one, one_mul, limit]
    rw [hq]
    exact roundsTo_of_lt (by decide) (by decide)
  exact nearest_of_unpack hx nofun nofun hv (min_eq_right (hlimit.mono hv h)).symm

lemma nearest_of_le_half {x : Float} (hq : 0 ≤ q) (h : q ≤ 2 ^ (-1075 : ℤ))
    (hx : x.toModel.unpack = .zero .positive) : Nearest q x := by
  have hzero : RoundsTo q 0 := by
    refine ⟨-1074, 0, ⟨le_rfl, fun h => absurd h (lt_irrefl _), ?_⟩, ?_, by simp⟩
    · exact h.trans_lt ((zpow_lt_zpow_iff_right₀ one_lt_two).2 (by decide))
    · have hpow : (2 ^ (-1075 : ℤ) : ℚ) = 1 / 2 * 2 ^ (-1074 : ℤ) := by
        have hexponent : (-1075 : ℤ) = -1 + -1074 := by decide
        rw [hexponent, two_zpow_add, zpow_neg_one, one_div]
      have hhalf : q / 2 ^ (-1074 : ℤ) ≤ 1 / 2 := by
        rw [div_le_iff₀ (two_zpow_pos _), ← hpow]
        exact h
      have hnonneg : 0 ≤ q / 2 ^ (-1074 : ℤ) := div_nonneg hq (two_zpow_pos _).le
      refine ⟨?_, fun _ => Even.zero⟩
      rw [Nat.cast_zero, sub_zero, abs_of_nonneg hnonneg]
      exact hhalf
  exact nearest_of_unpack hx nofun nofun hzero (min_eq_left limit_pos.le).symm

end Tabulation.Decimal
