import Mathlib
import Tabulation.Decimal.Shortest

/-! The bits of doubles. A sign, eleven bits of exponent and 52 bits of fraction stand for a number, and each
number that has a double has one in this form only. -/
namespace Tabulation.Decimal
open Float.Model (UnpackedFloat Format)
open Float.Model.UnpackedFloat (Sign)

lemma toNat_unpackMantissa (b : BitVec 64) :
    (@UnpackedFloat.unpackMantissa .binary64 b).toNat = b.toNat % fractionSize := by
  simp [UnpackedFloat.unpackMantissa, fractionSize]

lemma toNat_unpackExponent (b : BitVec 64) :
    (@UnpackedFloat.unpackExponent .binary64 b).toNat = b.toNat / fractionSize % 2048 := by
  simp [UnpackedFloat.unpackExponent, fractionSize, Nat.shiftRight_eq_div_pow]

/-- The sign that the highest bit stands for. -/
def signOf (bits : Nat) : Sign := if bits < signBit then .positive else .negative

lemma ofBitVec_unpackSign (b : BitVec 64) :
    Sign.ofBitVec (@UnpackedFloat.unpackSign .binary64 b) = signOf b.toNat := by
  have h : (@UnpackedFloat.unpackSign .binary64 b).toNat = b.toNat / signBit := by
    have := b.isLt
    simp [UnpackedFloat.unpackSign, signBit, Nat.shiftRight_eq_div_pow]
    omega
  unfold Sign.ofBitVec signOf
  by_cases hb : b.toNat < signBit
  · rw [if_pos hb, if_pos (BitVec.eq_of_toNat_eq (by rw [h, Nat.div_eq_of_lt hb]; rfl))]
  · rw [if_neg hb, if_neg fun hzero => ?_]
    have hdiv : b.toNat / signBit = 0 := h.symm.trans (congrArg BitVec.toNat hzero)
    exact hb ((Nat.div_eq_zero_iff_lt (by decide)).1 hdiv)

lemma unpack_eq (b : BitVec 64) :
    UnpackedFloat.unpack .binary64 b =
      if b.toNat / fractionSize % 2048 = 2047 then
        if b.toNat % fractionSize = 0 then .infinity (signOf b.toNat) else .notANumber
      else if b.toNat / fractionSize % 2048 = 0 then
        if h : b.toNat % fractionSize = 0 then .zero (signOf b.toNat)
        else .finite (signOf b.toNat) (b.toNat % fractionSize) (-1074) (Nat.pos_of_ne_zero h)
      else .finite (signOf b.toNat) (fractionSize + b.toNat % fractionSize)
        ((b.toNat / fractionSize % 2048 : Nat) - 1075) (Nat.add_pos_left (by decide) _) := by
  have hexp (n : Nat) (hn : n < 2 ^ 11) : (@UnpackedFloat.unpackExponent .binary64 b) = BitVec.ofNat 11 n ↔
      b.toNat / fractionSize % 2048 = n := by
    rw [← BitVec.toNat_inj, toNat_unpackExponent, BitVec.toNat_ofNat, Nat.mod_eq_of_lt hn]
  have hman : (@UnpackedFloat.unpackMantissa .binary64 b) = 0#52 ↔ b.toNat % fractionSize = 0 := by
    rw [← BitVec.toNat_inj, toNat_unpackMantissa]
    rfl
  have hones : (-1#11 : BitVec 11) = BitVec.ofNat 11 2047 := rfl
  have happend : (1#1 ++ @UnpackedFloat.unpackMantissa .binary64 b).toNat =
      fractionSize + b.toNat % fractionSize := by
    rw [BitVec.toNat_append, ← Nat.shiftLeft_add_eq_or_of_lt (BitVec.isLt _), toNat_unpackMantissa]
    rfl
  have hbias : Format.binary64.exponentBias = 1023 := rfl
  unfold UnpackedFloat.unpack
  simp only [ofBitVec_unpackSign, hones, hexp 2047 (by decide), hexp 0 (by decide), hman, happend, hbias,
    toNat_unpackMantissa, toNat_unpackExponent]
  split_ifs with h1 h2 h3 h4
  · rfl
  · rfl
  · rfl
  · congr 1
    rw [h3]
    rfl
  · rfl

variable {s t : Sign} {m n : Nat} {e f : Int} {u v : UnpackedFloat}

lemma finite_congr {hm : 0 < m} {hn : 0 < n} (hs : s = t) (hmn : m = n) (he : e = f) :
    UnpackedFloat.finite s m e hm = .finite t n f hn := by
  subst hs hmn he
  rfl

/-- The significands and exponents of finite doubles. The exponent is the least one for which 53 bits suffice. -/
structure Fits (m : Nat) (e : Int) : Prop where
  low : -1074 ≤ e
  high : e ≤ 971
  lt : m < 2 ^ 53
  full : -1074 < e → 2 ^ 52 ≤ m

/-- The numbers that have doubles. -/
def IsDouble : UnpackedFloat → Prop
  | .finite _ m e _ => Fits m e
  | _ => True

lemma isDouble_unpack (x : Float) : IsDouble x.toModel.unpack := by
  unfold Float.Model.unpack
  rw [unpack_eq]
  split_ifs with h1 h2 h3 h4
  · trivial
  · trivial
  · trivial
  · exact ⟨by omega, by omega, by simp only [fractionSize]; omega, fun h => by omega⟩
  · constructor <;> simp only [fractionSize] at * <;> omega

/-- The bit of a sign. -/
def signBits : Sign → Nat
  | .positive => 0
  | .negative => signBit

/-- A double put together from its fields. -/
def ofFields (s : Sign) (biased fraction : Nat) : Nat := signBits s + (biased * fractionSize + fraction)

/-- The bits of a number that has a double. -/
def bitsOf : UnpackedFloat → Nat
  | .notANumber => 0x7FF8000000000000
  | .infinity s => ofFields s 2047 0
  | .zero s => ofFields s 0 0
  | .finite s m e _ =>
    if m < fractionSize then ofFields s 0 m else ofFields s (e + 1075).toNat (m - fractionSize)

section

variable {biased fraction : Nat}

lemma signOf_ofFields (hb : biased < 2048) (hf : fraction < fractionSize) :
    signOf (ofFields s biased fraction) = s := by
  have h : biased * fractionSize + fraction < signBit := by
    simp only [fractionSize, signBit] at *
    omega
  cases s with
  | positive => exact if_pos (by simpa only [ofFields, signBits, Nat.zero_add] using h)
  | negative => exact if_neg (Nat.not_lt.2 (Nat.le_add_right _ _))

lemma biased_ofFields (hb : biased < 2048) (hf : fraction < fractionSize) :
    ofFields s biased fraction / fractionSize % 2048 = biased := by
  cases s <;> simp only [ofFields, signBits, signBit, fractionSize] at * <;> omega

lemma fraction_ofFields (hf : fraction < fractionSize) : ofFields s biased fraction % fractionSize = fraction := by
  cases s <;> simp only [ofFields, signBits, signBit, fractionSize] at * <;> omega

lemma toNat_packComponents (hb : biased < 2048) (hf : fraction < fractionSize) :
    (UnpackedFloat.packComponents .binary64 s (BitVec.ofNat 11 biased) (BitVec.ofNat 52 fraction)).toNat =
      ofFields s biased fraction := by
  have hs : s.toBitVec.toNat * 0x800 * fractionSize = signBits s := by cases s <;> rfl
  have hbiased : (BitVec.ofNat 11 biased).toNat = biased := Nat.mod_eq_of_lt hb
  have hfraction : (BitVec.ofNat 52 fraction).toNat = fraction := Nat.mod_eq_of_lt hf
  unfold UnpackedFloat.packComponents ofFields
  rw [BitVec.toNat_append, BitVec.toNat_append, ← Nat.shiftLeft_add_eq_or_of_lt (BitVec.isLt _),
    ← Nat.shiftLeft_add_eq_or_of_lt (BitVec.isLt _), Nat.shiftLeft_eq, Nat.shiftLeft_eq, hbiased, hfraction, ← hs]
  simp only [fractionSize]
  omega

end

lemma log2_eq_of_full (hlow : 2 ^ 52 ≤ m) (hlt : m < 2 ^ 53) : m.log2 = 52 := by
  have hpos : m ≠ 0 := by omega
  have h1 := (Nat.le_log2 hpos).2 hlow
  have h2 := (Nat.log2_lt hpos).2 hlt
  omega

lemma toNat_pack (h : IsDouble u) : (UnpackedFloat.pack .binary64 u).toNat = bitsOf u := by
  cases u with
  | notANumber => rfl
  | infinity s => cases s <;> rfl
  | zero s => cases s <;> rfl
  | finite s m e hm =>
    obtain ⟨hlow, hhigh, hlt, hfull⟩ : Fits m e := h
    have hbias : Format.binary64.exponentBias = 1023 := rfl
    have hbiased : (e + (1023 : Nat) + (52 : Nat)).toNat = (e + 1075).toNat := by omega
    unfold UnpackedFloat.pack bitsOf
    simp only [hbias, hbiased, Format.mantissaBits]
    rw [if_neg (by omega)]
    by_cases hm' : m < fractionSize
    · have hlog : m.log2 + 1 ≠ 1 + 52 := by
        have hlt : m.log2 < 52 := (Nat.log2_lt (Nat.ne_of_gt hm)).2 hm'
        omega
      rw [if_neg hlog, if_pos hm']
      exact toNat_packComponents (by decide) hm'
    · have hlog := log2_eq_of_full (by simp only [fractionSize] at hm'; omega : 2 ^ 52 ≤ m) hlt
      have hmod : BitVec.ofNat 52 m = BitVec.ofNat 52 (m - fractionSize) := by
        apply BitVec.eq_of_toNat_eq
        simp only [BitVec.toNat_ofNat, fractionSize] at hm' ⊢
        omega
      rw [if_pos (by rw [hlog]), if_neg hm', hmod]
      exact toNat_packComponents (by omega) (by simp only [fractionSize] at *; omega)

lemma unpack_injective {x y : Float} (h : x.toModel.unpack = y.toModel.unpack) : x = y :=
  Float.toBits_inj.1 (UInt64.toBitVec_inj.1
    ((UnpackedFloat.unpack_inj_of_valid x.toModel.valid y.toModel.valid).1 h))

lemma unpack_pack (h : IsDouble u) : (Float.Model.pack u).unpack = u := by
  have htoNat : (Float.Model.pack u).toBits.toBitVec.toNat = bitsOf u := toNat_pack h
  unfold Float.Model.unpack
  rw [unpack_eq, htoNat]
  cases u with
  | notANumber => rfl
  | infinity s => cases s <;> rfl
  | zero s => cases s <;> rfl
  | finite s m e hm =>
    obtain ⟨hlow, hhigh, hlt, hfull⟩ : Fits m e := h
    by_cases hm' : m < fractionSize
    · have he : -1074 = e := by
        simp only [fractionSize] at hm'
        omega
      have hfraction := @fraction_ofFields s 0 m hm'
      have hbiased := @biased_ofFields s 0 m (by decide) hm'
      rw [bitsOf, if_pos hm', if_neg (by omega), if_pos hbiased, dif_neg (by omega)]
      exact finite_congr (signOf_ofFields (by decide) hm') hfraction he
    · have hb : (e + 1075).toNat < 2048 := by omega
      have hf : m - fractionSize < fractionSize := by simp only [fractionSize] at *; omega
      have hfraction := @fraction_ofFields s (e + 1075).toNat _ hf
      have hbiased := @biased_ofFields s _ _ hb hf
      rw [bitsOf, if_neg hm', if_neg (by omega), if_neg (by omega)]
      exact finite_congr (signOf_ofFields hb hf) (by omega) (by omega)

lemma unpack_pack_large {hm : 0 < m} (h : 971 < e) :
    (Float.Model.pack (.finite s m e hm)).unpack = .infinity s := by
  have hpack : Float.Model.pack (.finite s m e hm) = Float.Model.pack (.infinity s) := by
    unfold Float.Model.pack UnpackedFloat.pack
    have hbias : Format.binary64.exponentBias = 1023 := rfl
    simp only [hbias]
    congr 1
    rw [if_pos (by omega)]
  have hinfinity : IsDouble (.infinity s) := trivial
  rw [hpack, unpack_pack hinfinity]

/-! The significand and the exponent that are read from the bits -/

variable {x : Float}

lemma unpack_of_isFinite (hx : x.isFinite) :
    x.toModel.unpack =
      if h : (Binary.ofFloat x).significand = 0 then .zero (signOf x.toBits.toNat)
      else .finite (signOf x.toBits.toNat) (Binary.ofFloat x).significand (Binary.ofFloat x).exponent
        (Nat.pos_of_ne_zero h) := by
  have hfinite : x.toModel.unpack.isFinite = true := hx
  have hunpack : x.toModel.unpack = _ := unpack_eq x.toBits.toBitVec
  simp only [UInt64.toNat_toBitVec] at hunpack
  unfold Binary.ofFloat
  rw [hunpack] at hfinite ⊢
  split_ifs with h1 h2 h3 h4 h5 h6
  all_goals simp_all [UnpackedFloat.isFinite]

lemma fits_ofFloat (hx : x.isFinite) (h : (Binary.ofFloat x).significand ≠ 0) :
    Fits (Binary.ofFloat x).significand (Binary.ofFloat x).exponent := by
  have hdouble := isDouble_unpack x
  rwa [unpack_of_isFinite hx, dif_neg h] at hdouble

lemma narrowBelow_iff : (Binary.ofFloat x).narrowBelow ↔
    (Binary.ofFloat x).significand = 2 ^ 52 ∧ -1074 < (Binary.ofFloat x).exponent := by
  unfold Binary.ofFloat
  dsimp only
  split_ifs with h
  · simp
  · refine decide_eq_true_iff.trans ?_
    simp only [fractionSize] at *
    omega

end Tabulation.Decimal
