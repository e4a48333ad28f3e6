import Tabulation.Proofs.Decimal.Scientific

/-! The partial order of values. It is transitive among numbers, and among values of which no text names a
number. -/
namespace Tabulation.Comparison
open Decimal
open Json (Number Value Members)

variable {a b c : Value} {m n k : Number} {wanted : Ordering}

lemma orderFloats?_eq_iff (x y : Float) : orderFloats? x y = some .eq ↔ (x == y) = true := by
  rw [orderFloats?_eq_some, compare_eq_iff_eq]
  by_cases h : x.isNaN ∨ y.isNaN
  · rw [beq_iff, compare_unpack_of_isNaN h]
    exact ⟨fun hnan => absurd h (not_or.2 hnan.1), nofun⟩
  · obtain ⟨hx, hy⟩ := not_or.1 h
    rw [beq_iff_toRat_eq hx hy]
    exact and_iff_right ⟨hx, hy⟩

lemma orderFloats?_swap (x y : Float) : orderFloats? y x = (orderFloats? x y).map Ordering.swap := by
  by_cases h : x.isNaN ∨ y.isNaN
  · rw [orderFloats?_of_isNaN h, orderFloats?_of_isNaN h.symm]
    rfl
  · obtain ⟨hx, hy⟩ := not_or.1 h
    rw [orderFloats?_eq hx hy, orderFloats?_eq hy hx, Option.map_some, ← Std.OrientedCmp.eq_swap]

/-- An integer of 64 bits, which compares exactly with others. -/
def IsExact : Number → Prop
  | .integer n => isInt64 n
  | .real _ => False

lemma orderNumbers?_of_not_exact (h : ¬ (IsExact m ∧ IsExact n)) :
    orderNumbers? m n = orderFloats? m.toFloat n.toFloat := by
  match m, n, h with
  | .integer m, .integer n, h => exact if_neg h
  | .integer _, .real _, _ | .real _, .integer _, _ | .real _, .real _, _ => rfl

lemma orderNumbers?_of_exact {m n : Int} (hm : isInt64 m) (hn : isInt64 n) :
    orderNumbers? (.integer m) (.integer n) = some (compare m n) := if_pos ⟨hm, hn⟩

lemma orderNumbers?_swap (m n : Number) : orderNumbers? n m = (orderNumbers? m n).map Ordering.swap := by
  by_cases h : IsExact m ∧ IsExact n
  · match m, n, h with
    | .integer m, .integer n, ⟨hm, hn⟩ =>
      rw [orderNumbers?_of_exact hm hn, orderNumbers?_of_exact hn hm, Option.map_some, ← Std.OrientedCmp.eq_swap]
  · rw [orderNumbers?_of_not_exact h, orderNumbers?_of_not_exact (mt And.symm h), orderFloats?_swap]

lemma orderNumbers?_self {o : Ordering} (h : orderNumbers? n n = some o) : o = .eq := by
  by_cases hexact : IsExact n ∧ IsExact n
  · match n, hexact with
    | .integer n, ⟨hn, _⟩ =>
      rw [orderNumbers?_of_exact hn hn] at h
      rw [← Option.some.inj h, compare_eq_iff_eq]
  · rw [orderNumbers?_of_not_exact hexact, orderFloats?_eq_some] at h
    rw [← h.2, compare_eq_iff_eq]

/-- A value that compares with itself at all compares equal. -/
lemma order?_self {o : Ordering} (h : order? a a = some o) : o = .eq := by
  cases a with
  | number n => exact orderNumbers?_self h
  | string s => rw [← Option.some.inj h]; exact Std.ReflCmp.compare_self
  | bool b => rw [← Option.some.inj h]; exact Std.ReflCmp.compare_self
  | null | array _ | object _ => cases h

lemma order?_swap (a b : Value) : order? b a = (order? a b).map Ordering.swap := by
  have hcompare {γ : Type} [Ord γ] [Std.OrientedOrd γ] (x y : γ) :
      some (compare y x) = (some (compare x y)).map Ordering.swap := by
    rw [Option.map_some, ← Std.OrientedCmp.eq_swap]
  have htext (s : String) (n : Number) :
      order? (.number n) (.string s) = (order? (.string s) (.number n)).map Ordering.swap := by
    simp only [order?]
    cases ofText s with
    | none => rfl
    | some x => exact orderFloats?_swap _ _
  have hnumber (s : String) (n : Number) :
      order? (.string s) (.number n) = (order? (.number n) (.string s)).map Ordering.swap := by
    rw [htext, Option.map_map]
    cases order? (.string s) (.number n) with
    | none => rfl
    | some o => cases o <;> rfl
  cases a <;> cases b
  case number.number m n => exact orderNumbers?_swap m n
  case string.string s t => exact hcompare s t
  case bool.bool p q => exact hcompare p q
  case string.number s n => exact htext s n
  case number.string n s => exact hnumber s n
  all_goals rfl

/-! Equality -/

lemma sameNumber_comm (m n : Number) : sameNumber m n = sameNumber n m := by
  cases m <;> cases n
  case integer.integer m n => exact decide_eq_decide.2 eq_comm
  case real.real x y => exact BEq.comm
  all_goals rfl

mutual

lemma same_comm (a b : Value) : same a b = same b a := by
  cases a <;> cases b
  case bool.bool p q => exact decide_eq_decide.2 eq_comm
  case number.number m n => exact sameNumber_comm m n
  case string.string s t => exact decide_eq_decide.2 eq_comm
  case array.array xs ys => exact sameItems_comm xs ys
  case object.object ms ns => exact sameMembers_comm ms ns
  all_goals rfl

lemma sameItems_comm (xs ys : List Value) : sameItems xs ys = sameItems ys xs := by
  match xs, ys with
  | [], [] | [], _ :: _ | _ :: _, [] => rfl
  | x :: xs, y :: ys => rw [sameItems, sameItems, same_comm x y, sameItems_comm xs ys]

lemma sameMembers_comm (ms ns : Members) : sameMembers ms ns = sameMembers ns ms := by
  match ms, ns with
  | [], [] | [], _ :: _ | _ :: _, [] => rfl
  | (a, x) :: ms, (b, y) :: ns =>
    have hname : decide (a = b) = decide (b = a) := decide_eq_decide.2 eq_comm
    rw [sameMembers, sameMembers, same_comm x y, sameMembers_comm ms ns, hname]

end

lemma equal_comm (a b : Value) : equal a b = equal b a := by
  rw [equal, equal, order?_swap b a]
  cases order? b a with
  | none => exact same_comm a b
  | some o => cases o <;> rfl

/-! Transitivity -/

/-- Of two numbers in order, the doubles are in order, too, though they may be the same. -/
lemma toRat_le_of_lt (h : orderNumbers? m n = some .lt) : toRat m.toFloat ≤ toRat n.toFloat := by
  by_cases hexact : IsExact m ∧ IsExact n
  · match m, n, hexact with
    | .integer m, .integer n, ⟨hm, hn⟩ =>
      rw [orderNumbers?_of_exact hm hn, Option.some.injEq, compare_lt_iff_lt] at h
      exact toRat_ofInt_mono h.le
  · rw [orderNumbers?_of_not_exact hexact, orderFloats?_eq_some, compare_lt_iff_lt] at h
    exact h.2.le

lemma not_isNaN_of_lt (h : orderNumbers? m n = some .lt) : ¬ m.toFloat.isNaN ∧ ¬ n.toFloat.isNaN := by
  by_cases hexact : IsExact m ∧ IsExact n
  · match m, n, hexact with
    | .integer m, .integer n, _ => exact ⟨not_isNaN_ofInt m, not_isNaN_ofInt n⟩
  · rw [orderNumbers?_of_not_exact hexact, orderFloats?_eq_some] at h
    exact h.1

lemma toRat_lt_of_lt (hexact : ¬ (IsExact m ∧ IsExact n)) (h : orderNumbers? m n = some .lt) :
    toRat m.toFloat < toRat n.toFloat := by
  rw [orderNumbers?_of_not_exact hexact, orderFloats?_eq_some, compare_lt_iff_lt] at h
  exact h.2

lemma lt_of_toRat_lt (hm : ¬ m.toFloat.isNaN) (hn : ¬ n.toFloat.isNaN) (h : toRat m.toFloat < toRat n.toFloat) :
    orderNumbers? m n = some .lt := by
  by_cases hexact : IsExact m ∧ IsExact n
  · match m, n, hexact with
    | .integer m, .integer n, ⟨hm, hn⟩ =>
      rw [orderNumbers?_of_exact hm hn, Option.some.injEq, compare_lt_iff_lt]
      exact lt_of_not_ge fun hle => absurd (toRat_ofInt_mono hle) (not_le.2 h)
  · rw [orderNumbers?_of_not_exact hexact, orderFloats?_eq_some, compare_lt_iff_lt]
    exact ⟨⟨hm, hn⟩, h⟩

/-- Integers compare exactly with each other and as doubles with other numbers, and still numbers are in order. -/
lemma orderNumbers?_trans (hmn : orderNumbers? m n = some .lt) (hnk : orderNumbers? n k = some .lt) :
    orderNumbers? m k = some .lt := by
  by_cases hexact : (IsExact m ∧ IsExact n) ∧ IsExact n ∧ IsExact k
  · match m, n, k, hexact with
    | .integer m, .integer n, .integer k, ⟨⟨hm, hn⟩, _, hk⟩ =>
      rw [orderNumbers?_of_exact hm hn, Option.some.injEq, compare_lt_iff_lt] at hmn
      rw [orderNumbers?_of_exact hn hk, Option.some.injEq, compare_lt_iff_lt] at hnk
      rw [orderNumbers?_of_exact hm hk, Option.some.injEq, compare_lt_iff_lt]
      exact hmn.trans hnk
  · refine lt_of_toRat_lt (not_isNaN_of_lt hmn).1 (not_isNaN_of_lt hnk).2 ?_
    rcases not_and_or.1 hexact with hstrict | hstrict
    · exact (toRat_lt_of_lt hstrict hmn).trans_le (toRat_le_of_lt hnk)
    · exact (toRat_le_of_lt hmn).trans_lt (toRat_lt_of_lt hstrict hnk)

/-- Values of which no text names a number, or with no numbers at all. -/
def Unmixed (values : List Value) : Prop :=
  (∀ n, .number n ∉ values) ∨ ∀ s, .string s ∈ values → ofText s = none

lemma Unmixed.kinds {values : List Value} {o : Ordering} (h : Unmixed values) (ha : a ∈ values) (hb : b ∈ values)
    (hab : order? a b = some o) :
    (∃ m n, a = .number m ∧ b = .number n) ∨ (∃ s t, a = .string s ∧ b = .string t) ∨
      ∃ p q, a = .bool p ∧ b = .bool q := by
  have hmixed {s : String} {n : Number} (hs : .string s ∈ values) (hn : .number n ∈ values) : ofText s = none :=
    h.elim (fun h => absurd hn (h n)) fun h => h s hs
  cases a <;> cases b
  case number.number m n => exact .inl ⟨m, n, rfl, rfl⟩
  case string.string s t => exact .inr (.inl ⟨s, t, rfl, rfl⟩)
  case bool.bool p q => exact .inr (.inr ⟨p, q, rfl, rfl⟩)
  case number.string n s =>
    rw [order?, hmixed hb ha] at hab
    cases hab
  case string.number s n =>
    rw [order?, hmixed ha hb] at hab
    cases hab
  all_goals cases hab

lemma Unmixed.trans_lt {values : List Value} (h : Unmixed values) (ha : a ∈ values) (hb : b ∈ values)
    (hc : c ∈ values) (hab : order? a b = some .lt) (hbc : order? b c = some .lt) : order? a c = some .lt := by
  rcases h.kinds ha hb hab with ⟨m, n, rfl, rfl⟩ | ⟨s, t, rfl, rfl⟩ | ⟨p, q, rfl, rfl⟩
  · obtain ⟨_, k, hn, rfl⟩ | ⟨_, _, hn, -⟩ | ⟨_, _, hn, -⟩ := h.kinds hb hc hbc <;> cases hn
    exact orderNumbers?_trans hab hbc
  · obtain ⟨_, _, ht, -⟩ | ⟨_, r, ht, rfl⟩ | ⟨_, _, ht, -⟩ := h.kinds hb hc hbc <;> cases ht
    exact congrArg some (Std.TransCmp.lt_trans (Option.some.inj hab) (Option.some.inj hbc))
  · obtain ⟨_, _, hq, -⟩ | ⟨_, _, hq, -⟩ | ⟨_, r, hq, rfl⟩ := h.kinds hb hc hbc <;> cases hq
    exact congrArg some (Std.TransCmp.lt_trans (Option.some.inj hab) (Option.some.inj hbc))

/-- Numbers without texts that name numbers compare transitively. -/
theorem Unmixed.trans {values : List Value} (h : Unmixed values) (hw : wanted ≠ .eq) (ha : a ∈ values)
    (hb : b ∈ values) (hc : c ∈ values) (hab : order? a b = some wanted) (hbc : order? b c = some wanted) :
    order? a c = some wanted := by
  have hswap {a b : Value} {o : Ordering} (h : order? a b = some o) : order? b a = some o.swap := by
    rw [order?_swap, h, Option.map_some]
  cases wanted with
  | lt => exact h.trans_lt ha hb hc hab hbc
  | eq => exact absurd rfl hw
  | gt => exact hswap (h.trans_lt hc hb ha (hswap hbc) (hswap hab))

end Tabulation.Comparison
