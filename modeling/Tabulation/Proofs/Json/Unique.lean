import Tabulation.Json.Parser
import Tabulation.Proofs.Decimal.Text
import Tabulation.Proofs.Json.Text

/-! Different values have different texts, as long as their doubles are finite. -/
namespace Tabulation.Json
open Decimal

/-! Strings are read back -/

lemma hexValue_hexDigit (n : Nat) : hexValue (hexDigit n) = some (n % 16) := by
  have h : ∀ n : Fin 16, hexValue (Nat.digitChar n) = some n.1 := by decide
  exact h ⟨n % 16, Nat.mod_lt n (by decide)⟩

/-- Characters up to U+00FF are named by two digits after two zeros. -/
lemma unit16_hexDigit {n : Nat} (h : n < 256) :
    unit16 '0' '0' (hexDigit (n / 16)) (hexDigit n) = some n := by
  have hzero : hexValue '0' = some 0 := rfl
  simp only [unit16, hzero, hexValue_hexDigit, Option.bind_eq_bind, Option.bind_some, Option.pure_def]
  congr 1
  omega

/-- Each character is written so that it is read back, whatever follows it. -/
def ReadsBack (write : Char → List Char) : Prop :=
  ∀ c rest, readString (write c ++ rest) = (readString rest).map fun r => (c.toNat :: r.1, r.2)

/-- A character that need not be escaped. -/
lemma readString_cons {c : Char} (hquote : c ≠ '"') (hback : c ≠ '\\') (hc : ¬ c.toNat < 0x20)
    (rest : List Char) : readString (c :: rest) = (readString rest).map fun r => (c.toNat :: r.1, r.2) := by
  rw [readString, if_neg (by simp [hback, hc])]
  · exact fun h => hquote h
  · exact fun _ _ _ _ _ h => absurd h hback
  · exact fun _ _ h => absurd h hback

lemma ReadsBack.readString {write : Char → List Char} (h : ReadsBack write) (cs rest : List Char) :
    readString (cs.flatMap write ++ '"' :: rest) = some (cs.map Char.toNat, rest) := by
  induction cs with
  | nil => rfl
  | cons c cs ih =>
    rw [List.flatMap_cons, List.append_assoc, h, ih]
    rfl

lemma readsBack_escapeChar : ReadsBack escapeChar := by
  intro c rest
  have hchar {n : Nat} (h : c.toNat = n) : c = Char.ofNat n := by rw [← h, Char.ofNat_toNat]
  unfold escapeChar
  split_ifs with hquote hback hb ht hn hf hr hcontrol
  · rw [hquote]
    rfl
  · rw [hback]
    rfl
  · rw [hchar hb]
    rfl
  · rw [hchar ht]
    rfl
  · rw [hchar hn]
    rfl
  · rw [hchar hf]
    rfl
  · rw [hchar hr]
    rfl
  · have hunit := unit16_hexDigit (n := c.toNat) (by omega)
    simp only [List.cons_append, List.nil_append, readString, hunit]
  · exact readString_cons hquote hback hcontrol rest

/-- The end of a string shows. -/
lemma eq_of_quoted_append {s t : String} {r r' : List Char} (h : quoted s ++ r = quoted t ++ r') :
    s = t ∧ r = r' := by
  have hread (s : String) (r : List Char) :
      readString (quoted s ++ r).tail = some (s.toList.map Char.toNat, r) := by
    rw [quoted, List.cons_append, List.tail_cons, List.append_assoc]
    exact readsBack_escapeChar.readString s.toList r
  have heq := (hread s r).symm.trans ((congrArg (readString ·.tail) h).trans (hread t r'))
  obtain ⟨hcodes, hrest⟩ := Prod.mk.inj (Option.some.inj heq)
  have hinjective : Function.Injective Char.toNat := fun c d h => by
    rw [← Char.ofNat_toNat c, h, Char.ofNat_toNat]
  exact ⟨String.toList_injective (List.map_injective_iff.2 hinjective hcodes), hrest⟩

/-! Numbers are read back -/

/-- Every double is finite. -/
def Number.isFinite : Number → Bool
  | .integer _ => true
  | .real x => x.isFinite

section

variable {m n : Number} {x : Float}

lemma readFloat_integerChars (n : Int) : readFloat (integerChars n) = some (Float.ofInt n) := by
  have hwrites (n : Nat) : Writes (digitChars n) n := by
    have h := writes_integer isDigit_of_mem_digitChars (digitChars_ne_nil n) (rfl : readPower [] = some 0)
      (q := n) (by simp)
    rwa [List.append_nil] at h
  cases n with
  | ofNat n =>
    obtain ⟨y, hy, hread, -⟩ := (hwrites n).readFloat
    rw [hy.unique (nearest_floatOfNat n)] at hread
    exact hread
  | negSucc n =>
    obtain ⟨y, hy, -, hneg⟩ := (hwrites (n + 1)).readFloat
    rw [hy.unique (nearest_floatOfNat (n + 1))] at hneg
    exact hneg

/-- The text of a number names it. -/
theorem readFloat_chars (hn : n.isFinite) : readFloat n.chars = some n.toFloat := by
  cases n with
  | integer n => exact readFloat_integerChars n
  | real x => exact readFloat_render hn

/-- Doubles are written with a point or with a power of ten. -/
lemma exists_mem_render (x : Float) : ∃ c ∈ render x, c = '.' ∨ c = 'e' := by
  have hpositional (digits : List Char) (power : Int) : '.' ∈ positional digits power := by
    unfold positional
    split_ifs <;> simp
  have hscientific (digits : List Char) (power : Int) : 'e' ∈ scientific digits power := by simp [scientific]
  have hright {s t : List Char} : (∃ c ∈ t, c = '.' ∨ c = 'e') → ∃ c ∈ s ++ t, c = '.' ∨ c = 'e' := by
    rintro ⟨c, hc, hmark⟩
    exact ⟨c, List.mem_append_right s hc, hmark⟩
  refine hright ?_
  split_ifs
  · exact ⟨'.', by simp, .inl rfl⟩
  · exact ⟨'.', hpositional _ _, .inl rfl⟩
  · exact ⟨'e', hscientific _ _, .inr rfl⟩

lemma not_mem_digitChars {n : Nat} {c : Char} (hc : ¬ c.isDigit) : c ∉ digitChars n :=
  fun h => hc (isDigit_of_mem_digitChars c h)

lemma integerChars_ne_render (n : Int) (x : Float) : integerChars n ≠ render x := by
  intro h
  obtain ⟨c, hc, hmark⟩ := exists_mem_render x
  have hdigit : ¬ c.isDigit ∧ c ≠ '-' := by rcases hmark with rfl | rfl <;> decide
  rw [← h] at hc
  cases n with
  | ofNat n => exact not_mem_digitChars hdigit.1 hc
  | negSucc n => exact (List.mem_cons.1 hc).elim hdigit.2 (not_mem_digitChars hdigit.1)

lemma digitChars_injective : Function.Injective digitChars := fun m n h => by
  rw [← natOfDigits_digitChars m, h, natOfDigits_digitChars]

lemma integerChars_injective {m n : Int} (h : integerChars m = integerChars n) : m = n := by
  have hminus {k : Nat} {r : List Char} : digitChars k ≠ '-' :: r := fun h => by
    have hmem : '-' ∈ digitChars k := h ▸ List.mem_cons_self
    exact not_mem_digitChars (by decide) hmem
  cases m with
  | ofNat m =>
    cases n with
    | ofNat n => rw [digitChars_injective h]
    | negSucc n => exact absurd h hminus
  | negSucc m =>
    cases n with
    | ofNat n => exact absurd h.symm hminus
    | negSucc n => rw [Nat.succ_injective (digitChars_injective (List.cons.inj h).2)]

/-- Different numbers have different texts. -/
theorem chars_injective (hm : m.isFinite) (hn : n.isFinite) (h : m.chars = n.chars) : m = n := by
  cases m with
  | integer m =>
    cases n with
    | integer n => rw [integerChars_injective h]
    | real y => exact absurd h (integerChars_ne_render m y)
  | real x =>
    cases n with
    | integer n => exact absurd h.symm (integerChars_ne_render n x)
    | real y =>
      have hread := (readFloat_render hm).symm.trans ((congrArg readFloat h).trans (readFloat_render hn))
      rw [Option.some.inj hread]

end

/-! Values -/

mutual

/-- Every double is finite, at every depth. -/
def Value.isFinite : Value → Bool
  | .number n => n.isFinite
  | .array items => areFinite items
  | .object members => membersFinite members
  | _ => true

def Value.areFinite : List Value → Bool
  | [] => true
  | v :: vs => v.isFinite && areFinite vs

def Value.membersFinite : List (String × Value) → Bool
  | [] => true
  | (_, v) :: ms => v.isFinite && membersFinite ms

end

/-- What a text begins with: a value of some kind, or no value. -/
inductive Lead where
  | null | bool | numeral | quote | bracket | brace | none

def Lead.of (c : Char) : Lead :=
  if c = 'n' then .null
  else if c = 't' ∨ c = 'f' then .bool
  else if c = '"' then .quote
  else if c = '[' then .bracket
  else if c = '{' then .brace
  else if isNumeral c then .numeral
  else .none

def Value.lead : Value → Lead
  | .null => .null
  | .bool _ => .bool
  | .number _ => .numeral
  | .string _ => .quote
  | .array _ => .bracket
  | .object _ => .brace

lemma lead_of_isNumeral {c : Char} (h : isNumeral c) : Lead.of c = .numeral := by
  have hne (d : Char) (hd : isNumeral d = false) : c ≠ d := by
    rintro rfl
    rw [hd] at h
    cases h
  simp [Lead.of, h, hne 'n' rfl, hne 't' rfl, hne 'f' rfl, hne '"' rfl, hne '[' rfl, hne '{' rfl]

/-- The first character of a text tells the kind of the value. -/
lemma exists_lead (v : Value) : ∃ c r, v.compact = c :: r ∧ Lead.of c = v.lead := by
  cases v with
  | bool b => cases b <;> exact ⟨_, _, rfl, rfl⟩
  | number n =>
    obtain ⟨c, r, h⟩ := List.exists_cons_of_ne_nil n.chars_ne_nil
    refine ⟨c, r, h, lead_of_isNumeral (Number.isNumeral_of_mem_chars (n := n) ?_)⟩
    rw [h]
    exact List.mem_cons_self
  | null | string _ | array _ | object _ => exact ⟨_, _, rfl, rfl⟩

variable {v w : Value} {r r' : List Char}

lemma lead_eq_of_append (h : v.compact ++ r = w.compact ++ r') : v.lead = w.lead := by
  obtain ⟨c, s, hv, hlead⟩ := exists_lead v
  obtain ⟨c', s', hw, hlead'⟩ := exists_lead w
  rw [hv, hw] at h
  rw [← hlead, ← hlead', (List.cons.inj h).1]

lemma compact_append_ne {c : Char} (hc : Lead.of c = .none) : v.compact ++ r ≠ c :: r' := by
  obtain ⟨d, s, hv, hlead⟩ := exists_lead v
  rw [hv]
  intro h
  rw [(List.cons.inj h).1, hc] at hlead
  cases v <;> cases hlead

/-- What follows a value does not go on with a number. -/
def Ends (r : List Char) : Prop := ∀ c ∈ r.head?, ¬ isNumeral c

lemma ends_cons {c : Char} (h : isNumeral c = false) (r : List Char) : Ends (c :: r) := fun d hd => by
  cases hd
  rw [h]
  exact nofun

lemma eq_of_chars_append {m n : Number} (hr : Ends r) (hr' : Ends r') (h : m.chars ++ r = n.chars ++ r') :
    m.chars = n.chars ∧ r = r' := by
  have hspan {n : Number} {r : List Char} (hr : Ends r) :
      (n.chars ++ r).takeWhile isNumeral = n.chars ∧ (n.chars ++ r).dropWhile isNumeral = r := by
    rw [List.takeWhile_append_of_pos fun c => Number.isNumeral_of_mem_chars,
      List.dropWhile_append_of_pos fun c => Number.isNumeral_of_mem_chars]
    cases r with
    | nil => exact ⟨List.append_nil _, rfl⟩
    | cons c r =>
      have hc := hr c rfl
      rw [List.takeWhile_cons_of_neg hc, List.dropWhile_cons_of_neg hc, List.append_nil]
      exact ⟨rfl, rfl⟩
  constructor
  · rw [← (hspan hr).1, h, (hspan hr').1]
  · rw [← (hspan hr).2, h, (hspan hr').2]

/-- What follows an item or a member: nothing, or a comma and the others. -/
def others : List Char → List Char
  | [] => []
  | c :: cs => ',' :: c :: cs

lemma ends_others {closing : Char} (hclosing : isNumeral closing = false) (t r : List Char) :
    Ends (others t ++ closing :: r) := by
  cases t with
  | nil => exact ends_cons hclosing r
  | cons c cs => exact ends_cons rfl _

lemma eq_of_others {closing : Char} {s t : List Char} (hclosing : closing ≠ ',')
    (h : others s ++ closing :: r = others t ++ closing :: r') : s ++ closing :: r = t ++ closing :: r' := by
  cases s with
  | nil =>
    cases t with
    | nil => exact h
    | cons c t => exact absurd (List.cons.inj h).1 hclosing
  | cons c s =>
    cases t with
    | nil => exact absurd (List.cons.inj h).1.symm hclosing
    | cons d t => exact (List.cons.inj h).2

lemma compactItems_cons (v : Value) (vs : List Value) :
    Value.compactItems (v :: vs) = v.compact ++ others (Value.compactItems vs) := by
  cases vs with
  | nil => exact (List.append_nil _).symm
  | cons w vs =>
    have hne : Value.compactItems (w :: vs) ≠ [] := by
      cases vs <;> simp [Value.compactItems, Value.compact_ne_nil]
    obtain ⟨c, cs, hcons⟩ := List.exists_cons_of_ne_nil hne
    rw [Value.compactItems, hcons]
    rfl

lemma compactMembers_cons (name : String) (v : Value) (ms : Members) :
    Value.compactMembers ((name, v) :: ms) =
      quoted name ++ ':' :: (v.compact ++ others (Value.compactMembers ms)) := by
  cases ms with
  | nil => simp [Value.compactMembers, others]
  | cons m ms =>
    have hne : Value.compactMembers (m :: ms) ≠ [] := by
      cases ms <;> simp [Value.compactMembers]
    obtain ⟨c, cs, hcons⟩ := List.exists_cons_of_ne_nil hne
    rw [Value.compactMembers, hcons]
    rfl

mutual

/-- The end of a value shows in a text, and so does the value. -/
theorem eq_of_compact_append (v w : Value) {r r' : List Char} (hv : v.isFinite) (hw : w.isFinite) (hr : Ends r)
    (hr' : Ends r') (h : v.compact ++ r = w.compact ++ r') : v = w ∧ r = r' := by
  have hlead := lead_eq_of_append h
  cases v with
  | null =>
    cases w with
    | null => exact ⟨rfl, List.append_cancel_left h⟩
    | _ => cases hlead
  | bool b =>
    cases w with
    | bool c =>
      cases b <;> cases c
      · exact ⟨rfl, List.append_cancel_left h⟩
      · exact absurd (List.cons.inj h).1 (by decide)
      · exact absurd (List.cons.inj h).1 (by decide)
      · exact ⟨rfl, List.append_cancel_left h⟩
    | _ => cases hlead
  | number m =>
    cases w with
    | number n =>
      rw [Value.isFinite] at hv hw
      obtain ⟨hchars, hrest⟩ := eq_of_chars_append hr hr' h
      exact ⟨by rw [chars_injective hv hw hchars], hrest⟩
    | _ => cases hlead
  | string s =>
    cases w with
    | string t =>
      obtain ⟨rfl, hrest⟩ := eq_of_quoted_append h
      exact ⟨rfl, hrest⟩
    | _ => cases hlead
  | array xs =>
    cases w with
    | array ys =>
      rw [Value.isFinite] at hv hw
      rw [Value.compact, Value.compact, List.cons_append, List.cons_append, List.append_assoc,
        List.append_assoc] at h
      obtain ⟨rfl, hrest⟩ := eq_of_compactItems_append xs ys hv hw (List.cons.inj h).2
      exact ⟨rfl, hrest⟩
    | _ => cases hlead
  | object ms =>
    cases w with
    | object ns =>
      rw [Value.isFinite] at hv hw
      rw [Value.compact, Value.compact, List.cons_append, List.cons_append, List.append_assoc,
        List.append_assoc] at h
      obtain ⟨rfl, hrest⟩ := eq_of_compactMembers_append ms ns hv hw (List.cons.inj h).2
      exact ⟨rfl, hrest⟩
    | _ => cases hlead

theorem eq_of_compactItems_append (xs ys : List Value) {r r' : List Char} (hx : Value.areFinite xs)
    (hy : Value.areFinite ys) (h : Value.compactItems xs ++ ']' :: r = Value.compactItems ys ++ ']' :: r') :
    xs = ys ∧ r = r' := by
  match xs, ys with
  | [], [] => exact ⟨rfl, (List.cons.inj h).2⟩
  | [], y :: ys =>
    rw [compactItems_cons, List.append_assoc] at h
    exact absurd h.symm (compact_append_ne rfl)
  | x :: xs, [] =>
    rw [compactItems_cons, List.append_assoc] at h
    exact absurd h (compact_append_ne rfl)
  | x :: xs, y :: ys =>
    obtain ⟨hx, hxs⟩ := Bool.and_eq_true_iff.1 hx
    obtain ⟨hy, hys⟩ := Bool.and_eq_true_iff.1 hy
    rw [compactItems_cons, compactItems_cons, List.append_assoc, List.append_assoc] at h
    obtain ⟨rfl, hothers⟩ := eq_of_compact_append x y hx hy (ends_others rfl _ _) (ends_others rfl _ _) h
    obtain ⟨rfl, hrest⟩ := eq_of_compactItems_append xs ys hxs hys (eq_of_others (by decide) hothers)
    exact ⟨rfl, hrest⟩

theorem eq_of_compactMembers_append (ms ns : Members) {r r' : List Char} (hm : Value.membersFinite ms)
    (hn : Value.membersFinite ns)
    (h : Value.compactMembers ms ++ '}' :: r = Value.compactMembers ns ++ '}' :: r') : ms = ns ∧ r = r' := by
  match ms, ns with
  | [], [] => exact ⟨rfl, (List.cons.inj h).2⟩
  | [], (b, y) :: ns =>
    rw [compactMembers_cons] at h
    exact absurd (List.cons.inj h).1 (by decide)
  | (a, x) :: ms, [] =>
    rw [compactMembers_cons] at h
    exact absurd (List.cons.inj h).1 (by decide)
  | (a, x) :: ms, (b, y) :: ns =>
    obtain ⟨hx, hms⟩ := Bool.and_eq_true_iff.1 hm
    obtain ⟨hy, hns⟩ := Bool.and_eq_true_iff.1 hn
    rw [compactMembers_cons, compactMembers_cons, List.append_assoc, List.append_assoc, List.cons_append,
      List.cons_append, List.append_assoc, List.append_assoc] at h
    obtain ⟨rfl, hvalues⟩ := eq_of_quoted_append h
    obtain ⟨rfl, hothers⟩ := eq_of_compact_append x y hx hy (ends_others rfl _ _) (ends_others rfl _ _)
      (List.cons.inj hvalues).2
    obtain ⟨rfl, hrest⟩ := eq_of_compactMembers_append ms ns hms hns (eq_of_others (by decide) hothers)
    exact ⟨rfl, hrest⟩

end

/-- Different values have different texts. -/
theorem compact_injective (hv : v.isFinite) (hw : w.isFinite) (h : v.compact = w.compact) : v = w := by
  have hnil : Ends [] := nofun
  exact (eq_of_compact_append v w hv hw hnil hnil (by rw [h])).1

end Tabulation.Json
