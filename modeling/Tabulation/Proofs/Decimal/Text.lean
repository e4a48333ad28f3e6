import Tabulation.Proofs.Decimal.Shortest

/-! The text of a double is read back as the same double. -/
namespace Tabulation.Decimal
open Float.Model (UnpackedFloat)

variable {whole fraction rest digits : List Char} {power : ℤ} {q : ℚ} {x y : Float}

/-! Digits -/

lemma natOfDigits_eq (digits : List Char) : natOfDigits digits = Nat.ofDigitChars 10 digits 0 := rfl

@[simp] lemma natOfDigits_digitChars (n : Nat) : natOfDigits (digitChars n) = n :=
  Nat.ofDigitChars_toDigits (by decide) (by decide)

lemma natOfDigits_zeros_append (n : Nat) (digits : List Char) :
    natOfDigits (List.replicate n '0' ++ digits) = natOfDigits digits := by
  rw [natOfDigits_eq, Nat.ofDigitChars_append, Nat.ofDigitChars_replicate_zero, mul_zero, natOfDigits_eq]

lemma natOfDigits_append_zeros (digits : List Char) (n : Nat) :
    natOfDigits (digits ++ List.replicate n '0') = 10 ^ n * natOfDigits digits := by
  rw [natOfDigits_eq, Nat.ofDigitChars_append, Nat.ofDigitChars_replicate_zero, natOfDigits_eq]

lemma natOfDigits_cons (c : Char) (digits : List Char) :
    natOfDigits (c :: digits) = 10 ^ digits.length * (c.toNat - '0'.toNat) + natOfDigits digits := by
  rw [natOfDigits_eq, Nat.ofDigitChars_cons, Nat.ofDigitChars_eq_ofDigitChars_zero, mul_zero, zero_add,
    natOfDigits_eq]

lemma toNat_of_isDigit {c : Char} (h : c.isDigit) : '0'.toNat ≤ c.toNat ∧ c.toNat ≤ '9'.toNat := by
  rw [Char.isDigit, Bool.and_eq_true, decide_eq_true_eq, decide_eq_true_eq] at h
  exact h

lemma natOfDigits_lt {digits : List Char} (h : ∀ c ∈ digits, c.isDigit) :
    natOfDigits digits < 10 ^ digits.length := by
  induction digits with
  | nil => exact Nat.one_pos
  | cons c digits ih =>
    obtain ⟨hc, hdigits⟩ := List.forall_mem_cons.1 h
    have hdigit : c.toNat - '0'.toNat ≤ 9 := Nat.sub_le_of_le_add (toNat_of_isDigit hc).2
    have hrest := ih hdigits
    rw [natOfDigits_cons, List.length_cons, pow_succ]
    nlinarith

lemma isDigit_of_mem_digitChars {n : Nat} : ∀ c ∈ digitChars n, c.isDigit :=
  fun _ hc => Nat.isDigit_of_mem_toDigits (by decide) (by decide) hc

lemma digitChars_ne_nil (n : Nat) : digitChars n ≠ [] := Nat.toDigits_ne_nil

/-! Magnitudes -/

lemma not_isDigit_of_readPower {c : Char} {r : List Char} (h : readPower (c :: r) = some power) :
    ¬ c.isDigit ∧ c ≠ '.' := by
  rw [readPower] at h
  split_ifs at h with hc
  rcases hc with rfl | rfl <;> decide

/-- What follows the digits ends them. -/
lemma span_digits (hd : ∀ c ∈ digits, c.isDigit) (hrest : ∀ c ∈ rest.head?, ¬ c.isDigit) :
    (digits ++ rest).takeWhile Char.isDigit = digits ∧ (digits ++ rest).dropWhile Char.isDigit = rest := by
  rw [List.takeWhile_append_of_pos hd, List.dropWhile_append_of_pos hd]
  cases rest with
  | nil => exact ⟨List.append_nil _, rfl⟩
  | cons c r =>
    have hc := hrest c rfl
    rw [List.takeWhile_cons_of_neg hc, List.dropWhile_cons_of_neg hc, List.append_nil]
    exact ⟨rfl, rfl⟩

lemma readMagnitude_point (hw : ∀ c ∈ whole, c.isDigit) (hne : whole ≠ []) (hf : ∀ c ∈ fraction, c.isDigit)
    (hrest : readPower rest = some power) :
    readMagnitude (whole ++ '.' :: (fraction ++ rest)) =
      some (nearest (natOfDigits (whole ++ fraction)) (power - fraction.length)) := by
  have hwhole := @span_digits ('.' :: (fraction ++ rest)) whole hw fun c hc => by
    cases hc
    exact nofun
  have hfraction := @span_digits rest fraction hf fun c hc => by
    cases rest with
    | nil => cases hc
    | cons d r =>
      cases hc
      exact (not_isDigit_of_readPower hrest).1
  simp only [readMagnitude, hwhole.1, hwhole.2, hfraction.1, hfraction.2, hrest]
  rw [if_neg fun h => hne h.1]
  rfl

lemma readMagnitude_integer (hw : ∀ c ∈ whole, c.isDigit) (hne : whole ≠ [])
    (hrest : readPower rest = some power) :
    readMagnitude (whole ++ rest) = some (nearest (natOfDigits whole) power) := by
  have hwhole := @span_digits rest whole hw fun c hc => by
    cases rest with
    | nil => cases hc
    | cons d r =>
      cases hc
      exact (not_isDigit_of_readPower hrest).1
  have hpoint : ∀ r, rest ≠ '.' :: r := by
    rintro r rfl
    exact (not_isDigit_of_readPower hrest).2 rfl
  simp only [readMagnitude, hwhole.1, hwhole.2, hrest]
  simp [hne]

/-- The power of ten with its sign. -/
lemma readPower_scientific (power : ℤ) :
    readPower ('e' :: (if power < 0 then '-' else '+') :: digitChars power.natAbs) = some power := by
  have hdigits : digitChars power.natAbs ≠ [] ∧ (digitChars power.natAbs).all Char.isDigit :=
    ⟨digitChars_ne_nil _, List.all_eq_true.2 isDigit_of_mem_digitChars⟩
  have hsign : takeSign ((if power < 0 then '-' else '+') :: digitChars power.natAbs) =
      (decide (power < 0), digitChars power.natAbs) := by
    split_ifs with h
    · rw [decide_eq_true h]
      rfl
    · rw [decide_eq_false h]
      rfl
  rw [readPower, if_pos (.inl rfl), hsign]
  dsimp only
  rw [if_pos hdigits, natOfDigits_digitChars]
  congr 1
  split_ifs with h <;> simp at h <;> omega

/-- A text that begins with a digit and is read as the double nearest to a number. -/
structure Writes (s : List Char) (q : ℚ) : Prop where
  digit : ∃ c r, s = c :: r ∧ c.isDigit
  read : ∃ y, readMagnitude s = some y ∧ Nearest q y

lemma exists_digit (hw : ∀ c ∈ whole, c.isDigit) (hne : whole ≠ []) :
    ∃ c r, whole ++ rest = c :: r ∧ c.isDigit := by
  obtain ⟨c, r, rfl⟩ := List.exists_cons_of_ne_nil hne
  exact ⟨c, r ++ rest, rfl, hw c List.mem_cons_self⟩

lemma writes_point (hw : ∀ c ∈ whole, c.isDigit) (hne : whole ≠ []) (hf : ∀ c ∈ fraction, c.isDigit)
    (hrest : readPower rest = some power)
    (hq : q = natOfDigits (whole ++ fraction) * 10 ^ (power - fraction.length)) :
    Writes (whole ++ '.' :: (fraction ++ rest)) q :=
  ⟨exists_digit hw hne, _, readMagnitude_point hw hne hf hrest, hq ▸ nearest_nearest _ _⟩

lemma writes_integer (hw : ∀ c ∈ whole, c.isDigit) (hne : whole ≠ []) (hrest : readPower rest = some power)
    (hq : q = natOfDigits whole * 10 ^ power) : Writes (whole ++ rest) q :=
  ⟨exists_digit hw hne, _, readMagnitude_integer hw hne hrest, hq ▸ nearest_nearest _ _⟩

lemma writes_scientific (hd : ∀ c ∈ digits, c.isDigit) (hne : digits ≠ [])
    (hq : q = natOfDigits digits * 10 ^ (power + 1 - digits.length)) : Writes (scientific digits power) q := by
  have hpower := readPower_scientific power
  match digits, hne with
  | [d], _ =>
    have htext : scientific [d] power =
        [d] ++ 'e' :: (if power < 0 then '-' else '+') :: digitChars power.natAbs := by simp [scientific]
    rw [htext]
    exact writes_integer hd (by simp) hpower (by simpa using hq)
  | d :: e :: ds, _ =>
    obtain ⟨hd, hds⟩ := List.forall_mem_cons.1 hd
    have hwhole : ∀ c ∈ [d], c.isDigit := fun c hc => (List.mem_singleton.1 hc) ▸ hd
    have hlength : power + 1 - ((d :: e :: ds).length : ℤ) = power - (e :: ds).length := by
      rw [List.length_cons, Nat.cast_succ]
      ring
    have htext : scientific (d :: e :: ds) power =
        [d] ++ '.' :: ((e :: ds) ++ 'e' :: (if power < 0 then '-' else '+') :: digitChars power.natAbs) := by
      simp [scientific]
    rw [htext]
    exact writes_point hwhole (by simp) hds hpower (by rw [hq, hlength]; rfl)

lemma isDigit_of_mem_zeros {n : Nat} : ∀ c ∈ List.replicate n '0', c.isDigit := fun c hc => by
  rw [List.eq_of_mem_replicate hc]
  rfl

lemma isDigit_of_mem_zero : ∀ c ∈ ['0'], c.isDigit := isDigit_of_mem_zeros (n := 1)

lemma writes_positional (hd : ∀ c ∈ digits, c.isDigit) (hne : digits ≠ [])
    (hq : q = natOfDigits digits * 10 ^ (power + 1 - digits.length)) : Writes (positional digits power) q := by
  have hend : readPower [] = some 0 := rfl
  have hlength := List.length_pos_of_ne_nil hne
  unfold positional
  dsimp only
  split_ifs with hpower hback
  · have hfraction : ∀ c ∈ List.replicate (-power - 1).toNat '0' ++ digits, c.isDigit :=
      List.forall_mem_append.2 ⟨isDigit_of_mem_zeros, hd⟩
    have hnat :
        natOfDigits (['0'] ++ (List.replicate (-power - 1).toNat '0' ++ digits)) = natOfDigits digits := by
      rw [← List.append_assoc, ← List.replicate_one, List.replicate_append_replicate, natOfDigits_zeros_append]
    have hexponent :
        0 - ((List.replicate (-power - 1).toNat '0' ++ digits).length : ℤ) = power + 1 - digits.length := by
      rw [List.length_append, List.length_replicate]
      omega
    have htext : ['0', '.'] ++ List.replicate (-power - 1).toNat '0' ++ digits =
        ['0'] ++ '.' :: (List.replicate (-power - 1).toNat '0' ++ digits ++ []) := by simp
    rw [htext]
    exact writes_point isDigit_of_mem_zero (by simp) hfraction hend (by rw [hnat, hexponent, hq])
  · -- the digits end before the point
    have hle : digits.length ≤ power.toNat + 1 := List.drop_eq_nil_iff.1 hback
    have hwhole : ∀ c ∈ digits ++ List.replicate (power.toNat + 1 - digits.length) '0', c.isDigit :=
      List.forall_mem_append.2 ⟨hd, isDigit_of_mem_zeros⟩
    have hnat : natOfDigits (digits ++ List.replicate (power.toNat + 1 - digits.length) '0' ++ ['0']) =
        10 ^ (power.toNat + 1 - digits.length + 1) * natOfDigits digits := by
      rw [List.append_assoc, ← List.replicate_one, List.replicate_append_replicate, natOfDigits_append_zeros]
    have hexponent : (10 : ℚ) ^ (power + 1 - digits.length) =
        10 ^ (power.toNat + 1 - digits.length + 1) * 10 ^ (0 - (['0'].length : ℤ)) := by
      rw [← zpow_natCast, ← zpow_add₀ (by norm_num), List.length_singleton]
      congr 1
      omega
    rw [List.take_of_length_le hle, ← List.append_nil ['0']]
    refine writes_point hwhole (by simp [hne]) isDigit_of_mem_zero hend ?_
    rw [hnat, hq, hexponent]
    push_cast
    ring
  · have hlt : power.toNat + 1 < digits.length := not_le.1 (mt List.drop_eq_nil_iff.2 hback)
    have hfront : (digits.take (power.toNat + 1)).length = power.toNat + 1 := List.length_take_of_le hlt.le
    have hwhole : digits.take (power.toNat + 1) ≠ [] := fun hnil => by
      rw [hnil] at hfront
      cases hfront
    have hexponent : 0 - ((digits.drop (power.toNat + 1)).length : ℤ) = power + 1 - digits.length := by
      rw [List.length_drop]
      omega
    rw [hfront, Nat.sub_self, List.replicate_zero, List.append_nil, ← List.append_nil (digits.drop _)]
    exact writes_point (fun c hc => hd c (List.mem_of_mem_take hc)) hwhole
      (fun c hc => hd c (List.mem_of_mem_drop hc)) hend (by rw [List.take_append_drop, hexponent, hq])

/-! Signs -/

lemma toLower_of_isDigit {c : Char} (h : c.isDigit) : c.toLower = c := by
  have hle := (toNat_of_isDigit h).2
  exact dif_neg fun hupper => absurd (hupper.1.trans hle) (by decide)

/-- A text that begins with a digit names no infinity. -/
lemma readFloat_of_takeSign {s r : List Char} {c : Char} {negative : Bool} (h : takeSign s = (negative, c :: r))
    (hc : c.isDigit) : readFloat s = (readMagnitude (c :: r)).map fun x => if negative then -x else x := by
  have hname (name : String) (d : Char) (hletter : name.toList.head? = some d) (hd : d.isDigit = false) :
      String.ofList ((c :: r).map Char.toLower) ≠ name := by
    rintro rfl
    rw [String.toList_ofList, List.map_cons, toLower_of_isDigit hc, List.head?_cons, Option.some.injEq] at hletter
    rw [hletter, hd] at hc
    cases hc
  unfold readFloat
  rw [h]
  dsimp only
  congr 1
  split
  · rename_i heq
    exact absurd heq (hname "inf" 'i' rfl rfl)
  · rename_i heq
    exact absurd heq (hname "infinity" 'i' rfl rfl)
  · rename_i heq
    exact absurd heq (hname "nan" 'n' rfl rfl)
  · rfl

lemma takeSign_of_isDigit {c : Char} {r : List Char} (hc : c.isDigit) : takeSign (c :: r) = (false, c :: r) := by
  unfold takeSign
  split
  · rename_i heq
    cases heq
    cases hc
  · rename_i heq
    cases heq
    cases hc
  · rfl

/-- The text of a number with its sign. -/
lemma Writes.readFloat {s : List Char} (h : Writes s q) :
    ∃ y, Nearest q y ∧ readFloat s = some y ∧ readFloat ('-' :: s) = some (-y) := by
  obtain ⟨⟨c, r, rfl, hc⟩, y, hread, hy⟩ := h
  refine ⟨y, hy, ?_, ?_⟩
  · rw [readFloat_of_takeSign (takeSign_of_isDigit hc) hc, hread]
    rfl
  · rw [readFloat_of_takeSign (rfl : takeSign ('-' :: c :: r) = (true, c :: r)) hc, hread]
    rfl

/-! Doubles -/

lemma eq_abs_or_neg (hx : x.isFinite) : x = if x.toBits.toNat < signBit then x.abs else -x.abs := by
  have hunpack := unpack_of_isFinite hx
  apply unpack_injective
  split_ifs with hsign
  · rw [unpack_abs, hunpack, signOf, if_pos hsign]
    split_ifs <;> rfl
  · rw [unpack_neg, unpack_abs, hunpack, signOf, if_neg hsign]
    split_ifs <;> rfl

lemma nearest_abs (hx : x.isFinite) (hq : RoundsTo q |toRat x|) : Nearest q x.abs := by
  obtain ⟨hnan, hlt⟩ := isFinite_iff.1 hx
  refine ⟨by rwa [isNaN_abs], ?_, _, hq, ?_⟩
  · rw [unpack_abs]
    cases x.toModel.unpack <;> exact nofun
  · rw [toRat_abs, min_eq_left hlt.le]

/-- The text of a double is the text of its magnitude, after its sign. -/
lemma exists_render (x : Float) : ∃ s, Writes s (Binary.ofFloat x).shortest.value ∧
    render x = (if x.toBits.toNat < signBit then [] else ['-']) ++ s := by
  refine ⟨_, ?_, rfl⟩
  generalize (Binary.ofFloat x).shortest = d
  have hvalue : d.value = natOfDigits (digitChars d.digits) *
      10 ^ ((digitChars d.digits).length - 1 + d.exponent + 1 - (digitChars d.digits).length : ℤ) := by
    rw [natOfDigits_digitChars, Numeral.value]
    congr 2
    ring
  split_ifs with hzero
  · have htext : ['0', '.', '0'] = ['0'] ++ '.' :: (['0'] ++ []) := rfl
    have hnat : natOfDigits (['0'] ++ ['0']) = 0 := by decide
    rw [htext]
    refine writes_point isDigit_of_mem_zero (List.cons_ne_nil _ _) isDigit_of_mem_zero (rfl : readPower [] = some 0) ?_
    rw [Numeral.value, hzero, hnat, Nat.cast_zero, zero_mul, zero_mul]
  · exact writes_positional isDigit_of_mem_digitChars (digitChars_ne_nil _) hvalue
  · exact writes_scientific isDigit_of_mem_digitChars (digitChars_ne_nil _) hvalue

/-- The text of a double is read as this double. -/
theorem readFloat_render (hx : x.isFinite) : readFloat (render x) = some x := by
  obtain ⟨s, hs, hrender⟩ := exists_render x
  obtain ⟨y, hy, hread, hneg⟩ := hs.readFloat
  obtain rfl := hy.unique (nearest_abs hx (roundsTo_shortest hx))
  have hsigned := eq_abs_or_neg hx
  rw [hrender]
  split_ifs at hsigned ⊢ with hsign
  · rw [← hsigned] at hread
    exact hread
  · rw [← hsigned] at hneg
    exact hneg

end Tabulation.Decimal
