import Mathlib.Tactic.Lemma
import Mathlib.Tactic.SplitIfs
import Tabulation.Json.Printer

/-! Where one text ends and the next one begins. In the text of a value, every comma stands in brackets,
braces or quotes, so texts that are joined by commas can be told apart again. -/
namespace Tabulation.Json
open Decimal

/-- How far a text has been read: in how many brackets or braces, and whether within quotes there. -/
inductive Mode where
  | plain (depth : Nat)
  | quoted (depth : Nat)
  /-- Within quotes, after a backslash. -/
  | escaped (depth : Nat)
deriving DecidableEq

def Mode.next : Mode → Char → Mode
  | .plain depth, c =>
    if c = '"' then .quoted depth
    else if c = '[' ∨ c = '{' then .plain (depth + 1)
    else if c = ']' ∨ c = '}' then .plain (depth - 1)
    else .plain depth
  | .quoted depth, c =>
    if c = '"' then .plain depth else if c = '\\' then .escaped depth else .quoted depth
  | .escaped depth, _ => .quoted depth

/-- What comes before the first comma outside of brackets, braces and quotes. -/
def beforeComma : Mode → List Char → List Char
  | _, [] => []
  | mode, c :: cs => if mode = .plain 0 ∧ c = ',' then [] else c :: beforeComma (mode.next c) cs

/-- From some depth on, no comma is found in a text, and reading it leads back to the same depth. -/
def Passes (least : Nat) (t : List Char) : Prop :=
  ∀ depth, least ≤ depth → ∀ rest,
    beforeComma (.plain depth) (t ++ rest) = t ++ beforeComma (.plain depth) rest

/-- A character that has no part in the structure of a text. -/
def isPlain (c : Char) : Bool := c ∉ ['"', ',', '[', ']', '{', '}']

/-- A character with which numbers are written. -/
def isNumeral (c : Char) : Bool := c.isDigit || c ∈ ['-', '+', '.', 'e']

section

variable {least : Nat} {s t : List Char}

lemma passes_nil : Passes least [] := fun _ _ _ => rfl

lemma Passes.append (hs : Passes least s) (ht : Passes least t) : Passes least (s ++ t) :=
  fun depth hd rest => by rw [List.append_assoc, hs depth hd, ht depth hd, List.append_assoc]

lemma Passes.mono (h : Passes 0 t) : Passes least t := fun depth _ => h depth (Nat.zero_le depth)

lemma passes_of_plain (h : t.all isPlain) : Passes 0 t := by
  intro depth _ rest
  induction t with
  | nil => rfl
  | cons c t ih =>
    obtain ⟨hc, ht⟩ := Bool.and_eq_true_iff.1 (List.all_cons.symm.trans h)
    simp only [isPlain, List.mem_cons, List.not_mem_nil, or_false, not_or, decide_eq_true_eq] at hc
    have hnext : (Mode.plain depth).next c = .plain depth := by simp [Mode.next, hc]
    rw [List.cons_append, beforeComma, if_neg (fun h => hc.2.1 h.2), hnext, ih ht]
    rfl

lemma passes_comma : Passes 1 [','] := by
  intro depth hd rest
  have hdepth : Mode.plain depth ≠ .plain 0 := by
    rw [ne_eq, Mode.plain.injEq]
    omega
  rw [List.singleton_append, beforeComma, if_neg fun h => hdepth h.1]
  rfl

/-- A text in brackets may hold commas. -/
lemma Passes.bracketed (h : Passes 1 t) {opening closing : Char} (ho : opening = '[' ∨ opening = '{')
    (hc : closing = ']' ∨ closing = '}') : Passes 0 (opening :: (t ++ [closing])) := by
  intro depth _ rest
  have hopen : opening ≠ ',' ∧ (Mode.plain depth).next opening = .plain (depth + 1) := by
    rcases ho with rfl | rfl <;> exact ⟨by decide, rfl⟩
  have hclose : closing ≠ ',' ∧ (Mode.plain (depth + 1)).next closing = .plain depth := by
    rcases hc with rfl | rfl <;> exact ⟨by decide, rfl⟩
  rw [List.cons_append, beforeComma, if_neg fun h => hopen.1 h.2, hopen.2, List.append_assoc,
    h (depth + 1) (by omega), List.singleton_append, beforeComma, if_neg fun h => hclose.1 h.2, hclose.2]
  simp

end

/-! Quotes: what is escaped does not end them. -/

lemma beforeComma_quoted_escapeChar (depth : Nat) (c : Char) (rest : List Char) :
    beforeComma (.quoted depth) (escapeChar c ++ rest) =
      escapeChar c ++ beforeComma (.quoted depth) rest := by
  have hhex : ∀ n, hexDigit n ≠ '"' ∧ hexDigit n ≠ '\\' := fun n => by
    simp [hexDigit]
  unfold escapeChar
  split_ifs with hquote hback
  all_goals simp [beforeComma, Mode.next, *]

lemma passes_quoted (s : String) : Passes 0 (quoted s) := by
  intro depth _ rest
  have hescape : ∀ cs rest, beforeComma (.quoted depth) (escape cs ++ rest) =
      escape cs ++ beforeComma (.quoted depth) rest := by
    intro cs
    induction cs with
    | nil => exact fun _ => rfl
    | cons c cs ih =>
      intro rest
      have hcons : escape (c :: cs) = escapeChar c ++ escape cs := List.flatMap_cons
      rw [hcons, List.append_assoc, beforeComma_quoted_escapeChar, ih, List.append_assoc]
  have hstart : (Mode.plain depth).next '"' = .quoted depth := rfl
  have hend : (Mode.quoted depth).next '"' = .plain depth := rfl
  rw [quoted, List.cons_append, beforeComma, if_neg (by simp), hstart, List.append_assoc, hescape,
    List.singleton_append, beforeComma, if_neg (by simp), hend]
  simp

/-! Numbers -/

lemma isPlain_of_isNumeral {c : Char} (h : isNumeral c) : isPlain c := by
  unfold isPlain
  rw [decide_eq_true_eq]
  intro hmem
  simp only [List.mem_cons, List.not_mem_nil, or_false] at hmem
  rcases hmem with rfl | rfl | rfl | rfl | rfl | rfl <;> exact absurd h (by decide)

lemma isNumeral_of_mem_digitChars {n : Nat} {c : Char} (h : c ∈ digitChars n) : isNumeral c :=
  Bool.or_eq_true_iff.2 (.inl (Nat.isDigit_of_mem_toDigits (by decide) (by decide) h))

lemma isNumeral_of_mem_integerChars {n : Int} {c : Char} (h : c ∈ integerChars n) : isNumeral c := by
  cases n with
  | ofNat n => exact isNumeral_of_mem_digitChars h
  | negSucc n =>
    rcases List.mem_cons.1 h with rfl | h
    · rfl
    · exact isNumeral_of_mem_digitChars h

lemma isNumeral_of_mem_scientific {digits : List Char} {power : Int} (hd : ∀ c ∈ digits, isNumeral c)
    {c : Char} (h : c ∈ scientific digits power) : isNumeral c := by
  simp only [scientific, List.mem_append] at h
  rcases h with (h | h) | h
  · match digits, hd, h with
    | [], _, h => rw [List.mem_singleton.1 h]; rfl
    | [d], hd, h => exact hd c h
    | d :: e :: ds, hd, h =>
      rcases List.mem_cons.1 h with rfl | h
      · exact hd _ List.mem_cons_self
      · rcases List.mem_cons.1 h with rfl | h
        · rfl
        · exact hd c (List.mem_cons_of_mem _ h)
  · rcases List.mem_cons.1 h with rfl | h
    · rfl
    · rw [List.mem_singleton.1 h]
      split_ifs <;> rfl
  · exact isNumeral_of_mem_digitChars h

lemma isNumeral_of_mem_positional {digits : List Char} {power : Int} (hd : ∀ c ∈ digits, isNumeral c)
    {c : Char} (h : c ∈ positional digits power) : isNumeral c := by
  have hzero : ∀ n, c ∈ List.replicate n '0' → isNumeral c := fun n hc => by
    rw [List.eq_of_mem_replicate hc]
    rfl
  unfold positional at h
  split_ifs at h with hpower
  · simp only [List.mem_append, List.mem_cons, List.not_mem_nil, or_false] at h
    rcases h with ((rfl | rfl) | h) | h
    · rfl
    · rfl
    · exact hzero _ h
    · exact hd c h
  · simp only [List.mem_append, List.mem_cons] at h
    rcases h with (h | h) | rfl | h
    · exact hd c (List.mem_of_mem_take h)
    · exact hzero _ h
    · rfl
    · split_ifs at h
      · rw [List.mem_singleton.1 h]
        rfl
      · exact hd c (List.mem_of_mem_drop h)

lemma isNumeral_of_mem_render {x : Float} {c : Char} (h : c ∈ render x) : isNumeral c := by
  simp only [render, List.mem_append] at h
  rcases h with h | h
  · split_ifs at h
    · simp at h
    · rw [List.mem_singleton.1 h]
      rfl
  · split_ifs at h
    · simp only [List.mem_cons, List.not_mem_nil, or_false] at h
      rcases h with rfl | rfl | rfl <;> rfl
    · exact isNumeral_of_mem_positional (fun c hc => isNumeral_of_mem_digitChars hc) h
    · exact isNumeral_of_mem_scientific (fun c hc => isNumeral_of_mem_digitChars hc) h

lemma render_ne_nil (x : Float) : render x ≠ [] := by
  unfold render
  intro h
  have hdigits := (List.append_eq_nil_iff.1 h).2
  split_ifs at hdigits
  · unfold positional at hdigits
    split_ifs at hdigits <;> simp at hdigits
  · simp [scientific] at hdigits

lemma Number.isNumeral_of_mem_chars {n : Number} {c : Char} (h : c ∈ n.chars) : isNumeral c := by
  cases n with
  | integer n => exact isNumeral_of_mem_integerChars h
  | real x => exact isNumeral_of_mem_render h

lemma passes_number (n : Number) : Passes 0 n.chars :=
  passes_of_plain (List.all_eq_true.2 fun _ hc => isPlain_of_isNumeral (Number.isNumeral_of_mem_chars hc))

lemma integerChars_ne_nil (n : Int) : integerChars n ≠ [] := by
  cases n with
  | ofNat n => exact Nat.toDigits_ne_nil
  | negSucc n => exact List.cons_ne_nil _ _

lemma Number.chars_ne_nil (n : Number) : n.chars ≠ [] := by
  cases n with
  | integer n => exact integerChars_ne_nil n
  | real x => exact render_ne_nil x

namespace Value

mutual

theorem passes_compact (v : Value) : Passes 0 v.compact := by
  cases v with
  | null => exact passes_of_plain rfl
  | bool b => cases b <;> exact passes_of_plain rfl
  | number n => exact passes_number n
  | string s => exact passes_quoted s
  | array items => exact (passes_compactItems items).bracketed (.inl rfl) (.inl rfl)
  | object members => exact (passes_compactMembers members).bracketed (.inr rfl) (.inr rfl)

theorem passes_compactItems (items : List Value) : Passes 1 (compactItems items) := by
  match items with
  | [] => exact passes_nil
  | [v] => exact (passes_compact v).mono
  | v :: w :: vs =>
    exact (passes_compact v).mono.append (passes_comma.append (passes_compactItems (w :: vs)))

theorem passes_compactMembers (members : List (String × Value)) : Passes 1 (compactMembers members) := by
  have hcolon : Passes 1 [':'] := (passes_of_plain rfl).mono
  match members with
  | [] => exact passes_nil
  | [(n, v)] => exact (passes_quoted n).mono.append (hcolon.append (passes_compact v).mono)
  | (n, v) :: m :: ms =>
    exact (passes_quoted n).mono.append (hcolon.append
      ((passes_compact v).mono.append (passes_comma.append (passes_compactMembers (m :: ms)))))

end

lemma compact_ne_nil (v : Value) : v.compact ≠ [] := by
  cases v with
  | bool b => cases b <;> exact List.cons_ne_nil _ _
  | number n => exact n.chars_ne_nil
  | null | string _ | array _ | object _ => exact List.cons_ne_nil _ _

end Value

/-! Joining texts -/

/-- Texts that are joined by commas. -/
def joined (ts : List (List Char)) : List Char := [','].intercalate ts

lemma joined_cons_cons (t u : List Char) (us : List (List Char)) :
    joined (t :: u :: us) = t ++ ',' :: joined (u :: us) := by
  simp [joined, List.intercalate_cons_cons]

lemma beforeComma_joined {t : List Char} (ht : Passes 0 t) (ts : List (List Char)) :
    beforeComma (.plain 0) (joined (t :: ts)) = t := by
  cases ts with
  | nil =>
    have hsingle : joined [t] = t ++ [] := by simp [joined]
    rw [hsingle, ht 0 (Nat.le_refl 0), beforeComma, List.append_nil]
  | cons u us =>
    rw [joined_cons_cons, ht 0 (Nat.le_refl 0), beforeComma, if_pos ⟨rfl, rfl⟩, List.append_nil]

/-- Texts that pass and are not empty can be told apart after they have been joined. -/
theorem eq_of_joined {ts us : List (List Char)} (ht : ∀ t ∈ ts, Passes 0 t ∧ t ≠ [])
    (hu : ∀ u ∈ us, Passes 0 u ∧ u ≠ []) (h : joined ts = joined us) : ts = us := by
  have hnil : ∀ {t : List Char} (ts : List (List Char)), t ≠ [] → joined (t :: ts) ≠ [] := by
    intro t ts hne
    cases ts with
    | nil => simpa [joined] using hne
    | cons u us => simp [joined_cons_cons]
  induction ts generalizing us with
  | nil =>
    cases us with
    | nil => rfl
    | cons u us => exact absurd h.symm (hnil us (hu u List.mem_cons_self).2)
  | cons t ts ih =>
    obtain ⟨⟨htp, htne⟩, hts⟩ := List.forall_mem_cons.1 ht
    cases us with
    | nil => exact absurd h (hnil ts htne)
    | cons u us =>
      obtain ⟨⟨hup, -⟩, hus⟩ := List.forall_mem_cons.1 hu
      obtain rfl : t = u := by
        rw [← beforeComma_joined htp ts, h, beforeComma_joined hup us]
      -- what follows the first text is the same, too: nothing, or a comma and the rest
      match ts, us with
      | [], [] => rfl
      | [], v :: vs => simp [joined] at h
      | w :: ws, [] => simp [joined] at h
      | w :: ws, v :: vs =>
        rw [joined_cons_cons, joined_cons_cons] at h
        rw [ih hts hus (List.cons.inj (List.append_cancel_left h)).2]

/-- What is joined may stand in brackets. -/
lemma passes_joined {ts : List (List Char)} (ht : ∀ t ∈ ts, Passes 0 t) : Passes 1 (joined ts) := by
  induction ts with
  | nil => exact passes_nil
  | cons t ts ih =>
    obtain ⟨htp, hts⟩ := List.forall_mem_cons.1 ht
    cases ts with
    | nil => simpa [joined] using htp.mono
    | cons u us =>
      rw [joined_cons_cons]
      exact htp.mono.append (passes_comma.append (ih hts))

end Tabulation.Json
