import Mathlib.Data.Nat.Digits.Defs
import Tabulation.Json.Printer
import Tabulation.Proofs.Decimal.Text

/-! Integers of 64 bits are read from exactly the texts that denote them: decimal digits after an optional sign. -/
namespace Tabulation.Decimal

variable {s digits : List Char} {n : Int} {k : Int64} {c : Char}

/-! Integers of 64 bits -/

lemma isInt64_iff : isInt64 n ↔ -2 ^ 63 ≤ n ∧ n < 2 ^ 63 := by
  have hleast : Int64.minValue.toInt = -2 ^ 63 := by decide
  have hmost : Int64.maxValue.toInt = 2 ^ 63 - 1 := by decide
  rw [isInt64, decide_eq_true_eq, hleast, hmost, Int.le_sub_one_iff]

lemma isInt64_toInt (k : Int64) : isInt64 k.toInt :=
  isInt64_iff.2 ⟨k.le_toInt, k.toInt_lt⟩

lemma toInt_ofInt (h : isInt64 n) : (Int64.ofInt n).toInt = n := by
  obtain ⟨hleast, hmost⟩ := isInt64_iff.1 h
  exact Int64.toInt_ofInt_of_le hleast hmost

lemma int64?_eq_some_iff : int64? n = some k ↔ k.toInt = n := by
  unfold int64?
  constructor
  · intro h
    split_ifs at h with hn
    cases h
    exact toInt_ofInt hn
  · rintro rfl
    rw [if_pos (isInt64_toInt k), Int64.ofInt_toInt]

/-! What a text denotes -/

/-- The sum of the digits at their places: the last one counts ones, the one before it tens. -/
def placeValue (digits : List Char) : Nat :=
  Nat.ofDigits 10 (digits.reverse.map fun d => d.toNat - '0'.toNat)

lemma natOfDigits_eq_placeValue (digits : List Char) : natOfDigits digits = placeValue digits := by
  induction digits with
  | nil => rfl
  | cons d digits ih =>
    rw [natOfDigits_cons, ih, placeValue, placeValue, List.reverse_cons, List.map_append, Nat.ofDigits_append,
      List.length_map, List.length_reverse, List.map_singleton, Nat.ofDigits_singleton, add_comm]

/-- An optional sign and one or more decimal digits denote a number. -/
inductive Denotes : List Char → Int → Prop
  | unsigned {digits : List Char} (ne_nil : digits ≠ []) (isDigit : ∀ c ∈ digits, c.isDigit) :
      Denotes digits (placeValue digits)
  | plus {digits : List Char} (ne_nil : digits ≠ []) (isDigit : ∀ c ∈ digits, c.isDigit) :
      Denotes ('+' :: digits) (placeValue digits)
  | minus {digits : List Char} (ne_nil : digits ≠ []) (isDigit : ∀ c ∈ digits, c.isDigit) :
      Denotes ('-' :: digits) (-placeValue digits)

lemma Denotes.mem (h : Denotes s n) (hc : c ∈ s) : c.isDigit ∨ c = '+' ∨ c = '-' := by
  cases h with
  | unsigned _ hdigits => exact .inl (hdigits c hc)
  | plus _ hdigits => exact (List.mem_cons.1 hc).elim (.inr ∘ .inl) (.inl ∘ hdigits c)
  | minus _ hdigits => exact (List.mem_cons.1 hc).elim (.inr ∘ .inr) (.inl ∘ hdigits c)

/-- The sign is taken off first, then digits are left. -/
lemma denotes_iff_takeSign {negative : Bool} (h : takeSign s = (negative, digits)) :
    Denotes s n ↔ digits ≠ [] ∧ (∀ c ∈ digits, c.isDigit) ∧
      n = if negative then -(placeValue digits : Int) else placeValue digits := by
  constructor
  · rintro (⟨hne, hdigits⟩ | ⟨hne, hdigits⟩ | ⟨hne, hdigits⟩)
    · obtain ⟨d, ds, rfl⟩ := List.exists_cons_of_ne_nil hne
      rw [takeSign_of_isDigit (hdigits d List.mem_cons_self)] at h
      cases h
      exact ⟨hne, hdigits, rfl⟩
    all_goals
      cases h
      exact ⟨hne, hdigits, rfl⟩
  · rintro ⟨hne, hdigits, rfl⟩
    unfold takeSign at h
    split at h <;> cases h
    · exact .minus hne hdigits
    · exact .plus hne hdigits
    · exact .unsigned hne hdigits

/-- Reading finds the number that is denoted, where 64 bits hold it, and nothing in any other text. -/
theorem readInt64_eq_some_iff : readInt64 s = some k ↔ Denotes s k.toInt := by
  obtain ⟨negative, digits, hsign⟩ : ∃ negative digits, takeSign s = (negative, digits) := ⟨_, _, rfl⟩
  rw [denotes_iff_takeSign hsign, ← and_assoc, readInt64, hsign]
  simp only [List.all_eq_true, natOfDigits_eq_placeValue]
  by_cases h : digits ≠ [] ∧ ∀ c ∈ digits, c.isDigit
  · rw [if_pos h, int64?_eq_some_iff, and_iff_right h]
  · rw [if_neg h, iff_false_left (Option.some_ne_none k).symm, not_and]
    exact fun hdigits => absurd hdigits h

/-- A number in its shortest form. -/
lemma denotes_integerChars (n : Int) : Denotes (Json.integerChars n) n := by
  have hvalue (m : Nat) : placeValue (digitChars m) = m := by
    rw [← natOfDigits_eq_placeValue, natOfDigits_digitChars]
  cases n with
  | ofNat m =>
    have h := Denotes.unsigned (digitChars_ne_nil m) isDigit_of_mem_digitChars
    rwa [hvalue] at h
  | negSucc m =>
    have h := Denotes.minus (digitChars_ne_nil (m + 1)) isDigit_of_mem_digitChars
    rwa [hvalue] at h

end Tabulation.Decimal
