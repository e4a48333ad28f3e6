import Tabulation.Proofs.Decimal.Value

/-! Rounding to the nearest double. The doubles around a number are the multiples of a power of two, and the
number rounds to the nearest of them, of two to the even one. -/
namespace Tabulation.Decimal
open Float.Model (UnpackedFloat Format)
open Float.Model.UnpackedFloat (Sign Accuracy ExtendedMantissa)

variable {q q' v w : ℚ} {r r' m n : Nat} {e t t' : ℤ} {s : Sign}

/-- The integer nearest to a number, and of two the even one. -/
structure Rounds (q : ℚ) (r : Nat) : Prop where
  near : |q - r| ≤ 1 / 2
  even : |q - r| = 1 / 2 → Even r

lemma Rounds.mono (h : Rounds q r) (h' : Rounds q' r') (hq : q ≤ q') : r ≤ r' := by
  by_contra hlt
  have hcast : (r' : ℚ) + 1 ≤ r := by exact_mod_cast Nat.lt_of_not_le hlt
  have hnear := abs_le.1 h.near
  have hnear' := abs_le.1 h'.near
  -- then both numbers are halfway between the two integers
  have hr : q - r = -(1 / 2) := by linarith
  have hr' : q' - r' = 1 / 2 := by linarith
  have heven := h.even (by rw [hr, abs_neg]; norm_num)
  have heven' := h'.even (by rw [hr']; norm_num)
  have hsucc : r = r' + 1 := by
    have : (r : ℚ) = r' + 1 := by linarith
    exact_mod_cast this
  rw [hsucc, Nat.even_add_one] at heven
  exact heven heven'

lemma Rounds.unique (h : Rounds q r) (h' : Rounds q r') : r = r' :=
  Nat.le_antisymm (h.mono h' le_rfl) (h'.mono h le_rfl)

lemma rounds_natCast (n : Nat) : Rounds n n := by
  refine ⟨?_, fun h => ?_⟩
  · rw [sub_self, abs_zero]
    norm_num
  · rw [sub_self, abs_zero] at h
    norm_num at h

/-! What is known of a number that lies between two integers -/

/-- A number lies at an integer or between it and the next one, where the accuracy says. -/
def Locates (m : Nat) : Accuracy → ℚ → Prop
  | .exact, q => q = m
  | .inexact .lt, q => m < q ∧ q < m + 1 / 2
  | .inexact .eq, q => q = m + 1 / 2
  | .inexact .gt, q => m + 1 / 2 < q ∧ q < m + 1

lemma Locates.bounds {a : Accuracy} (h : Locates m a q) : m ≤ q ∧ q < m + 1 := by
  match a, h with
  | .exact, h => exact ⟨h.ge, by linarith [h.le]⟩
  | .inexact .lt, ⟨hlow, hhigh⟩ => exact ⟨hlow.le, by linarith⟩
  | .inexact .eq, h => exact ⟨by linarith [h.ge], by linarith [h.le]⟩
  | .inexact .gt, ⟨hlow, hhigh⟩ => exact ⟨by linarith, hhigh⟩

lemma Locates.rounds {a : Accuracy} (h : Locates m a q) : Rounds q (a.roundToNearestEven m) := by
  match a, h with
  | .exact, h =>
    obtain rfl : q = m := h
    exact rounds_natCast m
  | .inexact .lt, ⟨hlow, hhigh⟩ =>
    have hdist : |q - m| < 1 / 2 := abs_lt.2 ⟨by linarith, by linarith⟩
    exact ⟨hdist.le, fun h => absurd h hdist.ne⟩
  | .inexact .eq, h =>
    obtain rfl : q = m + 1 / 2 := h
    have heven : Even (m + m % 2) := Nat.even_iff.2 (by omega)
    refine ⟨?_, fun _ => heven⟩
    rcases Nat.mod_two_eq_zero_or_one m with hm | hm
    all_goals
      rw [Accuracy.roundToNearestEven, hm, abs_le]
      push_cast
      constructor <;> linarith
  | .inexact .gt, ⟨hlow, hhigh⟩ =>
    have hdist : |q - (m + 1 : Nat)| < 1 / 2 := by
      rw [abs_lt]
      push_cast
      constructor <;> linarith
    exact ⟨hdist.le, fun h => absurd h hdist.ne⟩

/-- Halving keeps what the residual bits tell. -/
lemma Locates.half {em : ExtendedMantissa} (h : Locates em.mantissa em.accuracy q) :
    Locates em.shiftRightOne.mantissa em.shiftRightOne.accuracy (q / 2) := by
  obtain ⟨m, roundBit, stickyBit⟩ := em
  have hm : (m : ℚ) = 2 * (m / 2 : Nat) + (m % 2 : Nat) := by exact_mod_cast (Nat.div_add_mod m 2).symm
  -- the last bit of the mantissa decides on the half, the residual bits on the place within it
  rcases Nat.mod_two_eq_zero_or_one m with hbit | hbit
  all_goals
    rw [hbit] at hm
    push_cast at hm
    cases roundBit <;> cases stickyBit <;>
      simp [ExtendedMantissa.shiftRightOne, hbit, ExtendedMantissa.accuracy, Locates] at h ⊢
  all_goals first
    | linarith
    | constructor <;> linarith

lemma Locates.shiftRight {em : ExtendedMantissa} (h : Locates em.mantissa em.accuracy q) (n : Nat) :
    Locates (em >>> n).mantissa (em >>> n).accuracy (q / 2 ^ (n : ℤ)) := by
  induction n with
  | zero =>
    have hq : q / 2 ^ ((0 : Nat) : ℤ) = q := by simp
    rw [hq]
    exact h
  | succ n ih =>
    have hpow : q / 2 ^ ((n + 1 : Nat) : ℤ) = q / 2 ^ (n : ℤ) / 2 := by
      rw [Nat.cast_succ, two_zpow_add, div_mul_eq_div_div]
      rfl
    rw [hpow]
    exact ih.half

/-! Grids -/

/-- The doubles around a number are the multiples of `2 ^ t`. -/
structure OnGrid (q : ℚ) (t : ℤ) : Prop where
  low : -1074 ≤ t
  above : -1074 < t → 2 ^ (52 + t) ≤ q
  below : q < 2 ^ (53 + t)

lemma OnGrid.mono (h : OnGrid q t) (h' : OnGrid q' t') (hq : q ≤ q') : t ≤ t' := by
  by_contra hlt
  have habove := h.above (by have := h'.low; omega)
  have hpow : (2 : ℚ) ^ (53 + t') ≤ 2 ^ (52 + t) := two_zpow_le (by omega)
  linarith [h'.below]

lemma OnGrid.unique (h : OnGrid q t) (h' : OnGrid q t') : t = t' :=
  le_antisymm (h.mono h' le_rfl) (h'.mono h le_rfl)

lemma OnGrid.le_of_rounds (h : OnGrid q t) (hr : Rounds (q / 2 ^ t) r) : r ≤ 2 ^ 53 := by
  refine hr.mono (rounds_natCast _) ?_
  have hbelow := h.below
  rw [two_zpow_add] at hbelow
  rw [div_le_iff₀ (two_zpow_pos t)]
  exact hbelow.le

lemma OnGrid.le_rounded (h : OnGrid q t) (hr : Rounds (q / 2 ^ t) r) (ht : -1074 < t) : 2 ^ 52 ≤ r := by
  refine (rounds_natCast _).mono hr ?_
  have habove := h.above ht
  rw [two_zpow_add] at habove
  rw [le_div_iff₀ (two_zpow_pos t)]
  exact habove

/-- The multiple of the grid to which a number rounds. -/
def RoundsTo (q v : ℚ) : Prop := ∃ t r, OnGrid q t ∧ Rounds (q / 2 ^ t) r ∧ v = r * 2 ^ t

lemma RoundsTo.mono (h : RoundsTo q v) (h' : RoundsTo q' w) (hq : q ≤ q') : v ≤ w := by
  obtain ⟨t, r, ht, hr, rfl⟩ := h
  obtain ⟨t', r', ht', hr', rfl⟩ := h'
  rcases (ht.mono ht' hq).eq_or_lt with rfl | hlt
  · have hle : r ≤ r' := hr.mono hr' (div_le_div_of_nonneg_right hq (two_zpow_pos t).le)
    exact mul_le_mul_of_nonneg_right (by exact_mod_cast hle) (two_zpow_pos t).le
  · -- a power of two separates the grids
    have hbelow : (r : ℚ) ≤ 2 ^ (53 : ℤ) := by exact_mod_cast ht.le_of_rounds hr
    have habove := le_magnitude (ht'.le_rounded hr' (by have := ht.low; omega)) t'
    calc (r * 2 ^ t : ℚ) ≤ 2 ^ (53 : ℤ) * 2 ^ t := mul_le_mul_of_nonneg_right hbelow (two_zpow_pos t).le
      _ = 2 ^ (53 + t) := (two_zpow_add _ _).symm
      _ ≤ 2 ^ (52 + t') := two_zpow_le (by omega)
      _ ≤ r' * 2 ^ t' := habove

lemma RoundsTo.unique (h : RoundsTo q v) (h' : RoundsTo q w) : v = w :=
  le_antisymm (h.mono h' le_rfl) (h'.mono h le_rfl)

/-- What has a double rounds to itself. -/
lemma roundsTo_magnitude (low : -1074 ≤ e) (lt : m < 2 ^ 53) (full : -1074 < e → 2 ^ 52 ≤ m) :
    RoundsTo (m * 2 ^ e) (m * 2 ^ e) := by
  refine ⟨e, m, ⟨low, fun h => le_magnitude (full h) e, magnitude_lt lt e⟩, ?_, rfl⟩
  rw [mul_div_cancel_right₀ _ (two_zpow_pos e).ne']
  exact rounds_natCast m

lemma exists_rounds (hq : 0 ≤ q) : ∃ r, Rounds q r := by
  have hlow := Nat.floor_le hq
  have hhigh := Nat.lt_floor_add_one q
  rcases hlow.eq_or_lt with heq | hlow
  · exact ⟨_, Locates.rounds (a := .exact) heq.symm⟩
  rcases lt_trichotomy q (⌊q⌋₊ + 1 / 2) with h | h | h
  · exact ⟨_, Locates.rounds (a := .inexact .lt) ⟨hlow, h⟩⟩
  · exact ⟨_, Locates.rounds (a := .inexact .eq) h⟩
  · exact ⟨_, Locates.rounds (a := .inexact .gt) ⟨h, hhigh⟩⟩

lemma exists_onGrid (q : ℚ) : ∃ t, OnGrid q t := by
  by_cases hsmall : q < 2 ^ (53 + -1074 : ℤ)
  · exact ⟨-1074, le_rfl, fun h => absurd h (lt_irrefl _), hsmall⟩
  · have hlarge := not_lt.1 hsmall
    have hpos : 0 < q := (two_zpow_pos _).trans_le hlarge
    have hle : (2 : ℚ) ^ Int.log 2 q ≤ q := Int.zpow_log_le_self (by decide) hpos
    have hlt : q < (2 : ℚ) ^ (Int.log 2 q + 1) := Int.lt_zpow_succ_log_self (by decide) q
    have hlog : 53 + -1074 < Int.log 2 q + 1 := (zpow_lt_zpow_iff_right₀ (by norm_num)).1 (hlarge.trans_lt hlt)
    refine ⟨Int.log 2 q - 52, by omega, fun _ => ?_, ?_⟩
    · rwa [add_sub_cancel]
    · have hexp : 53 + (Int.log 2 q - 52) = Int.log 2 q + 1 := by ring
      rwa [hexp]

lemma exists_roundsTo (hq : 0 ≤ q) : ∃ v, RoundsTo q v := by
  obtain ⟨t, ht⟩ := exists_onGrid q
  obtain ⟨r, hr⟩ := exists_rounds (div_nonneg hq (two_zpow_pos t).le)
  exact ⟨_, t, r, ht, hr, rfl⟩

/-- The double nearest to a number that is not negative. Infinity is nearest where the doubles do not suffice. -/
structure Nearest (q : ℚ) (x : Float) : Prop where
  not_nan : ¬ x.isNaN
  sign : x.toModel.unpack ≠ .zero .negative
  value : ∃ v, RoundsTo q v ∧ toRat x = min v limit

variable {x y : Float}

lemma Nearest.mono (hx : Nearest q x) (hy : Nearest q' y) (hq : q ≤ q') : toRat x ≤ toRat y := by
  obtain ⟨v, hv, hxv⟩ := hx.value
  obtain ⟨w, hw, hyw⟩ := hy.value
  rw [hxv, hyw]
  exact min_le_min_right limit (hv.mono hw hq)

theorem Nearest.unique (hx : Nearest q x) (hy : Nearest q y) : x = y := by
  have hvalue : toRat x = toRat y := le_antisymm (hx.mono hy le_rfl) (hy.mono hx le_rfl)
  rcases eq_or_zero_of_valueOf_eq (isDouble_unpack x) (isDouble_unpack y) (mt isNaN_iff.2 hx.not_nan)
    (mt isNaN_iff.2 hy.not_nan) hvalue with h | ⟨s, t, hs, ht⟩
  · exact unpack_injective h
  · have hpositive {s : Sign} {x : Float} (hx : Nearest q x) (hs : x.toModel.unpack = .zero s) : s = .positive := by
      cases s
      · exact absurd hs hx.sign
      · rfl
    apply unpack_injective
    rw [hs, ht, hpositive hx hs, hpositive hy ht]

/-- A multiple of the grid as a number in the form of doubles. -/
def onGrid (s : Sign) (r : Nat) (t : ℤ) : UnpackedFloat :=
  if h : r = 0 then .zero s
  else if r = 2 ^ 53 then .finite s (2 ^ 52) (t + 1) (by decide)
  else .finite s r t (Nat.pos_of_ne_zero h)

lemma nearest_of_unpack {u : UnpackedFloat} (hu : x.toModel.unpack = u) (hnan : u ≠ .notANumber)
    (hsign : u ≠ .zero .negative) (hv : RoundsTo q v) (hvalue : valueOf u = min v limit) : Nearest q x :=
  ⟨fun h => hnan (hu.symm.trans (isNaN_iff.1 h)), fun h => hsign (hu.symm.trans h), v, hv,
    (congrArg valueOf hu).trans hvalue⟩

lemma nearest_pack (ht : OnGrid q t) (hr : Rounds (q / 2 ^ t) r) :
    Nearest q (.ofModel (.pack (onGrid .positive r t))) := by
  have hle := ht.le_of_rounds hr
  have hlow := ht.low
  have hrounds : RoundsTo q (r * 2 ^ t) := ⟨t, r, ht, hr, rfl⟩
  unfold onGrid
  split_ifs with hzero hcarry
  · have hdouble : IsDouble (.zero .positive) := trivial
    refine nearest_of_unpack (unpack_pack hdouble) nofun nofun hrounds ?_
    rw [hzero, Nat.cast_zero, zero_mul]
    exact (min_eq_left limit_pos.le).symm
  · have hvalue : (r * 2 ^ t : ℚ) = (2 ^ 52 : Nat) * 2 ^ (t + 1) := by
      rw [hcarry, two_zpow_add]
      push_cast
      ring
    by_cases hhigh : t + 1 ≤ 971
    · have hfits : Fits (2 ^ 52) (t + 1) := ⟨by omega, hhigh, by decide, fun _ => le_rfl⟩
      have hdouble : IsDouble (.finite .positive (2 ^ 52) (t + 1) (by decide)) := hfits
      refine nearest_of_unpack (unpack_pack hdouble) nofun nofun hrounds ?_
      rw [hvalue]
      exact (min_eq_left hfits.magnitude_lt.le).symm
    · refine nearest_of_unpack (unpack_pack_large (not_le.1 hhigh)) nofun nofun hrounds ?_
      rw [hvalue]
      exact (min_eq_right ((two_zpow_le (by omega)).trans (le_magnitude le_rfl _))).symm
  · have hfull : -1074 < t → 2 ^ 52 ≤ r := ht.le_rounded hr
    by_cases hhigh : t ≤ 971
    · have hfits : Fits r t := ⟨hlow, hhigh, by omega, hfull⟩
      have hdouble : IsDouble (.finite .positive r t (Nat.pos_of_ne_zero hzero)) := hfits
      refine nearest_of_unpack (unpack_pack hdouble) nofun nofun hrounds ?_
      exact (min_eq_left hfits.magnitude_lt.le).symm
    · refine nearest_of_unpack (unpack_pack_large (not_le.1 hhigh)) nofun nofun hrounds ?_
      exact (min_eq_right ((two_zpow_le (by omega)).trans (le_magnitude (hfull (by omega)) _))).symm

end Tabulation.Decimal
