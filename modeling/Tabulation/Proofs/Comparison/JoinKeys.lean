import Tabulation.Comparison.Key
import Tabulation.Proofs.Comparison.Order
import Tabulation.Proofs.Json.Unique

/-! Where join keys and the equality of values differ. A text is its own key, and it is equal to every number
that it names, however it writes the number; and two numbers are equal if their doubles are, even if only one of
them is written as an integer. -/
namespace Tabulation.Comparison
open Decimal
open Json (Number Value Members)

variable {m n : Number} {x : Float} {k : Int}

/-! Settled numbers -/

/-- Doubles below this size are settled. -/
def bound : Nat := 9000000000000000

lemma nearest_bound : Nearest bound 9.0e15 := by
  have h := nearest_ofScientific 90 false 14
  have hvalue : ((90 : Nat) * 10 ^ (if false = true then -(14 : Nat) else (14 : Nat) : ℤ) : ℚ) = bound := by
    norm_num [bound]
  rwa [hvalue] at h

lemma abs_lt_bound_iff (hx : x.isFinite) : x.abs < 9.0e15 ↔ |toRat x| < bound := by
  rw [lt_iff_toRat_lt (by rw [isNaN_abs]; exact not_isNaN_of_isFinite hx) nearest_bound.not_nan, toRat_abs,
    nearest_bound.toRat_natCast (by decide)]

lemma not_isNaN_toFloat (hn : n.isFinite) : ¬ n.toFloat.isNaN := by
  cases n with
  | integer n => exact not_isNaN_ofInt n
  | real x => exact not_isNaN_of_isFinite hn

lemma toRat_ofInt_of_lt (h : |k| < bound) : toRat (Float.ofInt k) = k :=
  toRat_ofInt (h.trans (by decide))

/-- An integer is of moderate size if its double is. -/
lemma abs_lt_of_toRat_lt (h : |toRat (Float.ofInt k)| < bound) : |k| < bound := by
  have hbound : toRat (Float.ofInt bound) = bound := by
    exact_mod_cast toRat_ofInt (by decide : |(bound : ℤ)| < 2 ^ 53)
  obtain ⟨hlow, hhigh⟩ := abs_lt.1 h
  refine abs_lt.2 ⟨lt_of_not_ge fun hge => ?_, lt_of_not_ge fun hge => ?_⟩
  · have hmono := toRat_ofInt_mono hge
    rw [toRat_ofInt_neg, hbound] at hmono
    exact absurd hlow (not_lt.2 hmono)
  · have hmono := toRat_ofInt_mono hge
    rw [hbound] at hmono
    exact absurd hhigh (not_lt.2 hmono)

/-- What a number of moderate size is settled to: the integer that it is, or itself. -/
lemma settled_of_small (hn : n.isFinite) (h : |toRat n.toFloat| < bound) :
    (∃ k : ℤ, toRat n.toFloat = k ∧ settled n = .integer k) ∨
      ∃ x, n = .real x ∧ (∀ k : ℤ, toRat x ≠ k) ∧ settled n = n := by
  cases n with
  | integer n => exact .inl ⟨n, toRat_ofInt_of_lt (abs_lt_of_toRat_lt h), rfl⟩
  | real x =>
    have hfinite : x.isFinite := hn
    have hsmall := (abs_lt_bound_iff hfinite).2 h
    cases hinteger : integer? x with
    | some k =>
      refine .inl ⟨k, (integer?_eq_some hfinite).1 hinteger, ?_⟩
      rw [settled, hinteger]
      exact if_pos hsmall
    | none =>
      refine .inr ⟨x, rfl, fun k hk => ?_, by rw [settled, hinteger]⟩
      rw [(integer?_eq_some hfinite).2 hk] at hinteger
      cases hinteger

lemma settled_of_large (hn : n.isFinite) (h : bound ≤ |toRat n.toFloat|) : settled n = n := by
  cases n with
  | integer n => rfl
  | real x =>
    have hlarge : ¬ x.abs < 9.0e15 := fun hlt => absurd ((abs_lt_bound_iff hn).1 hlt) (not_lt.2 h)
    rw [settled]
    split
    · exact if_neg hlarge
    · rfl

/-- Settling a number keeps its double. -/
lemma toRat_settled (hn : n.isFinite) : toRat (settled n).toFloat = toRat n.toFloat := by
  rcases lt_or_ge |toRat n.toFloat| bound with hsmall | hlarge
  · obtain ⟨k, hvalue, hsettled⟩ | ⟨x, rfl, -, hsettled⟩ := settled_of_small hn hsmall
    · have hk : |k| < bound := by
        rw [hvalue] at hsmall
        exact_mod_cast hsmall
      rw [hsettled, hvalue]
      exact toRat_ofInt_of_lt hk
    · rw [hsettled]
  · rw [settled_of_large hn hlarge]

lemma isFinite_settled (hn : n.isFinite) : (settled n).isFinite := by
  cases n with
  | integer n => rfl
  | real x =>
    rw [settled]
    split
    · split
      · rfl
      · exact hn
    · exact hn

/-! Numbers -/

lemma toRat_eq_of_order (h : orderNumbers? m n = some .eq) : toRat m.toFloat = toRat n.toFloat := by
  by_cases hexact : IsExact m ∧ IsExact n
  · match m, n, hexact with
    | .integer m, .integer n, ⟨hm, hn⟩ =>
      rw [orderNumbers?_of_exact hm hn, Option.some.injEq, compare_eq_iff_eq] at h
      rw [h]
  · rw [orderNumbers?_of_not_exact hexact, orderFloats?_eq_some, compare_eq_iff_eq] at h
    exact h.2

/-- Numbers that are settled to the same number are equal. -/
lemma order_of_settled (hm : m.isFinite) (hn : n.isFinite) (h : settled m = settled n) :
    orderNumbers? m n = some .eq := by
  by_cases hexact : IsExact m ∧ IsExact n
  · match m, n, hexact with
    | .integer m, .integer n, ⟨hm, hn⟩ =>
      cases h
      rw [orderNumbers?_of_exact hm hn, compare_eq_iff_eq.2 rfl]
  · have hvalue : toRat m.toFloat = toRat n.toFloat := by rw [← toRat_settled hm, h, toRat_settled hn]
    rw [orderNumbers?_of_not_exact hexact, orderFloats?_eq_some, compare_eq_iff_eq]
    exact ⟨⟨not_isNaN_toFloat hm, not_isNaN_toFloat hn⟩, hvalue⟩

/-- Equal numbers of moderate size are settled to the same number. -/
lemma settled_of_order (hm : m.isFinite) (hn : n.isFinite) (h : orderNumbers? m n = some .eq)
    (hsmall : |toRat m.toFloat| < bound) : settled m = settled n := by
  have hvalue := toRat_eq_of_order h
  obtain ⟨k, hk, hsm⟩ | ⟨x, rfl, hx, hsm⟩ := settled_of_small hm hsmall
  · obtain ⟨l, hl, hsn⟩ | ⟨y, rfl, hy, hsn⟩ := settled_of_small hn (hvalue ▸ hsmall)
    · have hkl : k = l := by
        rw [hk, hl] at hvalue
        exact_mod_cast hvalue
      rw [hsm, hsn, hkl]
    · exact absurd (hvalue.symm.trans hk) (hy k)
  · obtain ⟨l, hl, hsn⟩ | ⟨y, rfl, hy, hsn⟩ := settled_of_small hn (hvalue ▸ hsmall)
    · exact absurd (hvalue.trans hl) (hx l)
    · have hzero : toRat x ≠ 0 := by exact_mod_cast hx 0
      rw [eq_of_toRat_eq (not_isNaN_of_isFinite hm) (not_isNaN_of_isFinite hn) hzero hvalue]

lemma settled_ne_iff (hm : m.isFinite) (hn : n.isFinite) (h : orderNumbers? m n = some .eq) :
    settled m ≠ settled n ↔ m ≠ n ∧ bound ≤ |toRat m.toFloat| := by
  rcases lt_or_ge |toRat m.toFloat| bound with hsmall | hlarge
  · refine ⟨fun hne => absurd (settled_of_order hm hn h hsmall) hne, fun hlarge => ?_⟩
    exact absurd hsmall (not_lt.2 hlarge.2)
  · have hlarge' : bound ≤ |toRat n.toFloat| := toRat_eq_of_order h ▸ hlarge
    rw [settled_of_large hm hlarge, settled_of_large hn hlarge']
    exact (and_iff_left hlarge).symm

/-! Texts that name numbers -/

lemma not_isBlank_of_isNumeral {c : Char} (h : Json.isNumeral c) : ¬ Text.isBlank c := by
  have hrange : 43 ≤ c.toNat ∧ c.toNat ≤ 101 := by
    rcases Bool.or_eq_true_iff.1 h with h | h
    · obtain ⟨hleast, hmost⟩ := toNat_of_isDigit h
      exact ⟨(by decide : 43 ≤ 48).trans hleast, hmost.trans (by decide : 57 ≤ 101)⟩
    · simp only [List.mem_cons, List.not_mem_nil, or_false, decide_eq_true_eq] at h
      rcases h with rfl | rfl | rfl | rfl <;> decide
  simp only [Text.isBlank, Text.blankRanges, Bool.decide_and, List.any_cons, List.any_nil, Bool.or_false,
    Bool.or_eq_true, Bool.and_eq_true, decide_eq_true_eq, not_or, not_and, not_le]
  omega

lemma trimmed_of_not_blank {s : List Char} (h : ∀ c ∈ s, ¬ Text.isBlank c) : Text.trimmed s = s := by
  have hkeep {s : List Char} (h : ∀ c ∈ s, ¬ Text.isBlank c) : s.dropWhile Text.isBlank = s := by
    cases s with
    | nil => rfl
    | cons c s => exact List.dropWhile_cons_of_neg (h c List.mem_cons_self)
  rw [Text.trimmed, hkeep h, hkeep fun c hc => h c (List.mem_reverse.1 hc), List.reverse_reverse]

/-- The text of a number names it. -/
lemma ofText_text (hn : n.isFinite) : ofText (Value.number n).text = some n.toFloat := by
  have hchars : (Value.number n).text.toList = n.chars := String.toList_ofList
  have hblank : ∀ c ∈ n.chars, ¬ Text.isBlank c :=
    fun c hc => not_isBlank_of_isNumeral (Json.Number.isNumeral_of_mem_chars hc)
  rw [ofText, hchars, trimmed_of_not_blank hblank]
  exact Json.readFloat_chars hn

/-- The key of a number names a number that is equal to it. -/
lemma beq_of_numberKey (hn : n.isFinite) : (ofText (numberKey n)).any (· == n.toFloat) := by
  rw [numberKey, ofText_text (isFinite_settled hn), Option.any_some,
    beq_iff_toRat_eq (not_isNaN_toFloat (isFinite_settled hn)) (not_isNaN_toFloat hn), toRat_settled hn]

/-! Values -/

variable {a b : Value} {s : String} {P : Prop}

/-- A value whose text is the key. -/
def keyed : Value → Value
  | .number n => .number (settled n)
  | v => v

lemma isFinite_keyed (ha : a.isFinite) : (keyed a).isFinite := by
  cases a with
  | number n => exact isFinite_settled ha
  | null | bool _ | string _ | array _ | object _ => exact ha

/-- Values other than texts have the same key if they are the same after their numbers have been settled. -/
lemma joinKey?_eq_iff (ha : a.isFinite) (hb : b.isFinite) (hka : joinKey? a = some (keyed a).text)
    (hkb : joinKey? b = some (keyed b).text) : joinKey? a = joinKey? b ↔ keyed a = keyed b := by
  rw [hka, hkb, Option.some.injEq]
  refine ⟨fun h => ?_, fun h => by rw [h]⟩
  exact Json.compact_injective (isFinite_keyed ha) (isFinite_keyed hb) (String.ofList_injective h)

mutual

lemma same_self {v : Value} (h : v.isFinite) : same v v := by
  cases v with
  | null => rfl
  | bool b => exact decide_eq_true rfl
  | number n =>
    cases n with
    | integer n => exact decide_eq_true rfl
    | real x => exact (beq_iff_toRat_eq (not_isNaN_of_isFinite h) (not_isNaN_of_isFinite h)).2 rfl
  | string s => exact decide_eq_true rfl
  | array items => exact sameItems_self h
  | object members => exact sameMembers_self h

lemma sameItems_self {items : List Value} (h : Value.areFinite items) : sameItems items items := by
  match items with
  | [] => rfl
  | v :: vs =>
    obtain ⟨hv, hvs⟩ := Bool.and_eq_true_iff.1 h
    exact Bool.and_eq_true_iff.2 ⟨same_self hv, sameItems_self hvs⟩

lemma sameMembers_self {members : Members} (h : Value.membersFinite members) : sameMembers members members := by
  match members with
  | [] => rfl
  | (name, v) :: ms =>
    obtain ⟨hv, hms⟩ := Bool.and_eq_true_iff.1 h
    have hmember : (decide (name = name) && same v v) = true :=
      Bool.and_eq_true_iff.2 ⟨decide_eq_true rfl, same_self hv⟩
    exact Bool.and_eq_true_iff.2 ⟨hmember, sameMembers_self hms⟩

end

/-- Equal values with different keys. -/
def Overlooked : Value → Value → Prop
  | .number m, .number n => orderNumbers? m n = some .eq ∧ m ≠ n ∧ bound ≤ |toRat m.toFloat|
  | .string s, .number n | .number n, .string s => (ofText s).any (· == n.toFloat) ∧ s ≠ numberKey n
  | .array xs, .array ys => sameItems xs ys ∧ xs ≠ ys
  | .object ms, .object ns => sameMembers ms ns ∧ ms ≠ ns
  | _, _ => False

/-- A text that is the text of a value of another type, though not of a number. -/
def IsTextOf (s : String) : Value → Prop
  | .null | .number _ | .string _ => False
  | v => s = v.text

/-- Different values with the same key. -/
def Confused : Value → Value → Prop
  | .string s, v | v, .string s => IsTextOf s v
  | _, _ => False

/-- How far keys differ from equality. -/
structure Differ (a b : Value) (overlooked confused : Prop) : Prop where
  overlooked : equal a b ∧ joinKey? a ≠ joinKey? b ↔ overlooked
  confused : joinKey? a = joinKey? b ∧ ¬ equal a b ↔ confused

lemma Differ.of_equal (hkey : joinKey? a = joinKey? b → equal a b)
    (h : equal a b ∧ joinKey? a ≠ joinKey? b ↔ P) : Differ a b P False :=
  ⟨h, fun h => h.2 (hkey h.1), False.elim⟩

lemma Differ.of_iff (h : joinKey? a = joinKey? b ↔ equal a b) : Differ a b False False :=
  .of_equal h.1 ⟨fun hne => hne.2 (h.2 hne.1), False.elim⟩

lemma Differ.of_not_equal (hequal : equal a b = false) (hkey : joinKey? a = joinKey? b ↔ P) :
    Differ a b False P := by
  constructor
  · rw [hequal]
    exact ⟨fun h => Bool.false_ne_true h.1, False.elim⟩
  · rw [hequal]
    exact (and_iff_left Bool.false_ne_true).trans hkey

lemma equal_number_iff (hm : m.isFinite) (hn : n.isFinite) :
    equal (.number m) (.number n) ↔ orderNumbers? m n = some .eq := by
  have hsome : (orderNumbers? m n).isSome := by
    by_cases hexact : IsExact m ∧ IsExact n
    · match m, n, hexact with
      | .integer m, .integer n, ⟨hm, hn⟩ =>
        rw [orderNumbers?_of_exact hm hn]
        rfl
    · rw [orderNumbers?_of_not_exact hexact, orderFloats?_eq (not_isNaN_toFloat hm) (not_isNaN_toFloat hn)]
      rfl
  obtain ⟨o, ho⟩ := Option.isSome_iff_exists.1 hsome
  rw [equal, order?, ho, Option.some.injEq]
  exact decide_eq_true_iff

lemma differ_numbers (hm : m.isFinite) (hn : n.isFinite) :
    Differ (.number m) (.number n) (Overlooked (.number m) (.number n)) False := by
  have hkey : joinKey? (.number m) = joinKey? (.number n) ↔ settled m = settled n :=
    (joinKey?_eq_iff (a := .number m) (b := .number n) hm hn rfl rfl).trans
      (.of_eq (Value.number.injEq _ _))
  have hequal := equal_number_iff hm hn
  refine .of_equal (fun h => hequal.2 (order_of_settled hm hn (hkey.1 h))) ?_
  rw [hequal, ne_eq, hkey]
  exact and_congr_right fun h => settled_ne_iff hm hn h

lemma equal_text_number (s : String) (n : Number) :
    equal (.string s) (.number n) = (ofText s).any (· == n.toFloat) := by
  rw [equal, order?]
  cases ofText s with
  | none => rfl
  | some x =>
    rw [Option.bind_some, Option.any_some, Bool.eq_iff_iff, ← orderFloats?_eq_iff]
    cases orderFloats? x n.toFloat <;> simp [same]

lemma equal_number_text (s : String) (n : Number) :
    equal (.number n) (.string s) = (ofText s).any (· == n.toFloat) := by
  rw [← equal_text_number, equal_comm]

lemma differ_text_number (hn : n.isFinite) :
    Differ (.string s) (.number n) (Overlooked (.string s) (.number n)) False := by
  have hkey : joinKey? (.string s) = joinKey? (.number n) ↔ s = numberKey n := Option.some_inj
  rw [Overlooked, ← equal_text_number]
  refine .of_equal (fun h => ?_) (and_congr_right fun _ => not_congr hkey)
  rw [equal_text_number, hkey.1 h]
  exact beq_of_numberKey hn

lemma differ_number_text (hn : n.isFinite) :
    Differ (.number n) (.string s) (Overlooked (.number n) (.string s)) False := by
  have hkey : joinKey? (.number n) = joinKey? (.string s) ↔ s = numberKey n := Option.some_inj.trans eq_comm
  rw [Overlooked, ← equal_number_text]
  refine .of_equal (fun h => ?_) (and_congr_right fun _ => not_congr hkey)
  rw [equal_number_text, hkey.1 h]
  exact beq_of_numberKey hn

lemma differ_lists {xs ys : List Value} (hx : Value.areFinite xs) (hy : Value.areFinite ys) :
    Differ (.array xs) (.array ys) (Overlooked (.array xs) (.array ys)) False := by
  have hkey : joinKey? (.array xs) = joinKey? (.array ys) ↔ xs = ys :=
    (joinKey?_eq_iff (a := .array xs) (b := .array ys) hx hy rfl rfl).trans
      (.of_eq (Value.array.injEq xs ys))
  refine .of_equal (fun h => ?_) (and_congr_right fun _ => not_congr hkey)
  rw [← hkey.1 h]
  exact sameItems_self hx

lemma differ_objects {ms ns : Members} (hm : Value.membersFinite ms) (hn : Value.membersFinite ns) :
    Differ (.object ms) (.object ns) (Overlooked (.object ms) (.object ns)) False := by
  have hkey : joinKey? (.object ms) = joinKey? (.object ns) ↔ ms = ns :=
    (joinKey?_eq_iff (a := .object ms) (b := .object ns) hm hn rfl rfl).trans
      (.of_eq (Value.object.injEq ms ns))
  refine .of_equal (fun h => ?_) (and_congr_right fun _ => not_congr hkey)
  rw [← hkey.1 h]
  exact sameMembers_self hm

/-- Keys differ from equality where a value is overlooked or confused with another, and nowhere else. -/
theorem Differ.of_values (ha : a.isFinite) (hb : b.isFinite) (ha' : a ≠ .null) (hb' : b ≠ .null) :
    Differ a b (Overlooked a b) (Confused a b) := by
  have hkinds (hka : joinKey? a = some (keyed a).text) (hkb : joinKey? b = some (keyed b).text)
      (hequal : equal a b = false) (hkey : keyed a ≠ keyed b) : Differ a b False False :=
    .of_not_equal hequal (iff_of_false (mt (joinKey?_eq_iff ha hb hka hkb).1 hkey) id)
  cases a <;> cases b
  case null.null | null.bool | null.number | null.string | null.array | null.object => exact absurd rfl ha'
  case bool.null | number.null | string.null | array.null | object.null => exact absurd rfl hb'
  case bool.bool p q =>
    have hkey := (joinKey?_eq_iff (a := .bool p) (b := .bool q) ha hb rfl rfl).trans
      (.of_eq (Value.bool.injEq p q))
    exact .of_iff (hkey.trans (Std.compare_eq_iff_eq.symm.trans decide_eq_true_iff.symm))
  case number.number m n => exact differ_numbers ha hb
  case string.string s t =>
    have hkey : joinKey? (.string s) = joinKey? (.string t) ↔ s = t := Option.some_inj
    exact .of_iff (hkey.trans (Std.compare_eq_iff_eq.symm.trans decide_eq_true_iff.symm))
  case string.number s n => exact differ_text_number hb
  case number.string n s => exact differ_number_text ha
  case array.array xs ys => exact differ_lists ha hb
  case object.object ms ns => exact differ_objects ha hb
  case string.bool | string.array | string.object => exact .of_not_equal rfl Option.some_inj
  case bool.string | array.string | object.string => exact .of_not_equal rfl (Option.some_inj.trans eq_comm)
  all_goals exact hkinds rfl rfl rfl (by simp [keyed])

end Tabulation.Comparison
