import Tabulation.Calendar.Reading
import Tabulation.Proofs.Calendar.Order
import Tabulation.Proofs.Comparison.JoinKeys

/-! The texts that name a day, described without reading them, and that reading finds the day of each of them and
of no other text. -/
namespace Tabulation.Calendar
open Decimal

variable {α : Type} {a : α} {d e : Date} {n hour minute second : Nat} {s t rest : List Char}

/-! What a text of a day consists of -/

def IsNumeral (digits : List Char) : Prop := digits ≠ [] ∧ ∀ c ∈ digits, c.isDigit

/-- The fraction of a second, which may be missing. -/
def IsFraction (s : List Char) : Prop := s = [] ∨ ∃ digits, IsNumeral digits ∧ s = '.' :: digits

/-- The distance from universal time. -/
def IsOffset (s : List Char) : Prop :=
  s = ['Z'] ∨ s = ['z'] ∨ ∃ sign hours minutes, sign ∈ ['+', '-', '\u2212'] ∧ hours ≤ 23 ∧ minutes ≤ 59 ∧
    s = sign :: (Date.padded 2 hours ++ ':' :: Date.padded 2 minutes)

/-- A timestamp on a day: the day, a letter or blank, the time of day and its distance from universal time. -/
def IsTimestamp (s : List Char) (d : Date) : Prop :=
  d.Exists ∧ d.HasPlainYear ∧ ∃ separator hour minute second fraction offset,
    separator ∈ ['T', 't', ' '] ∧ isTime hour minute second ∧ IsFraction fraction ∧ IsOffset offset ∧
    s = d.dayText ++ separator :: (Date.padded 2 hour ++ ':' :: (Date.padded 2 minute ++ ':' ::
      (Date.padded 2 second ++ (fraction ++ offset))))

def AreBlank (s : List Char) : Prop := ∀ c ∈ s, Text.isBlank c

/-- A number of one or two digits with any blanks before it. -/
def IsShort (width : Nat) (s : List Char) (n : Nat) : Prop :=
  ∃ blanks digits, AreBlank blanks ∧ IsNumeral digits ∧ digits.length = width ∧ width ≤ 2 ∧
    natOfDigits digits = n ∧ s = blanks ++ digits

/-- A year with any blanks before it: at most four digits, or any number of them after a sign. -/
def IsYear (s : List Char) (year : Int) : Prop :=
  ∃ blanks digits, AreBlank blanks ∧ IsNumeral digits ∧
    ((-natOfDigits digits = year ∧ s = blanks ++ '-' :: digits) ∨
      (natOfDigits digits = year ∧ s = blanks ++ '+' :: digits) ∨
      (digits.length ≤ 4 ∧ natOfDigits digits = year ∧ s = blanks ++ digits))

/-- Year, month and day with hyphens between them; the number of the day has the given width. -/
def IsDay (width : Nat) (s : List Char) (d : Date) : Prop :=
  d.Exists ∧ ∃ year month day, IsYear year d.year ∧ (∃ w, IsShort w month d.month) ∧ IsShort width day d.day ∧
    s = year ++ '-' :: (month ++ '-' :: day)

/-- Hour, minute and second with colons between them. -/
def IsClock (s : List Char) : Prop :=
  ∃ hour minute second h m n, (∃ w, IsShort w hour h) ∧ (∃ w, IsShort w minute m) ∧ (∃ w, IsShort w second n) ∧
    isTime h m n ∧ s = hour ++ ':' :: (minute ++ ':' :: second)

/-- Whether a number of a width would not go on with the text after it. -/
def Ends (width : Nat) (rest : List Char) : Prop := width = 2 ∨ ∀ c ∈ rest.head?, ¬ c.isDigit

/-- A day without a distance from universal time: alone, or before a time of day, from which `T` or nothing has to
separate it. -/
inductive IsLocal : List Char → Date → Prop
  | day {width : Nat} {s : List Char} {d : Date} (day : IsDay width s d) : IsLocal s d
  | lettered {width : Nat} {s t : List Char} {d : Date} (day : IsDay width s d) (clock : IsClock t) :
      IsLocal (s ++ 'T' :: t) d
  | adjacent {width : Nat} {s t : List Char} {d : Date} (day : IsDay width s d) (clock : IsClock t)
      (ends : Ends width t) : IsLocal (s ++ t) d

/-- The day that a text names. -/
def Names (text : String) (d : Date) : Prop := IsTimestamp text.toList d ∨ IsLocal text.toList d

/-! Numbers -/

/-- Digits at the beginning of a text, up to a count, that are all the digits there or as many as counted. -/
structure Leading (most : Nat) (digits rest : List Char) : Prop where
  isDigit : ∀ c ∈ digits, c.isDigit
  length_le : digits.length ≤ most
  ends : digits.length = most ∨ ∀ c ∈ rest.head?, ¬ c.isDigit

lemma exists_leading (most : Nat) (s : List Char) : ∃ digits rest, s = digits ++ rest ∧ Leading most digits rest := by
  induction most generalizing s with
  | zero => exact ⟨[], s, rfl, nofun, Nat.le_refl 0, .inl rfl⟩
  | succ most ih =>
    cases s with
    | nil => exact ⟨[], [], rfl, nofun, Nat.zero_le _, .inr nofun⟩
    | cons c s =>
      by_cases hc : c.isDigit
      · obtain ⟨digits, rest, rfl, h⟩ := ih s
        exact ⟨c :: digits, rest, rfl, List.forall_mem_cons.2 ⟨hc, h.isDigit⟩, Nat.succ_le_succ h.length_le,
          h.ends.imp_left (congrArg Nat.succ)⟩
      · refine ⟨[], c :: s, rfl, nofun, Nat.zero_le _, .inr fun d hd => ?_⟩
        cases hd
        exact hc

lemma Leading.readNumber {least most : Nat} {digits : List Char} (h : Leading most digits rest) :
    readNumber least most (digits ++ rest) =
      if least ≤ digits.length then some (natOfDigits digits, rest) else none := by
  have htaken : ((digits ++ rest).take most).takeWhile Char.isDigit = digits := by
    rw [List.take_append, List.take_of_length_le h.length_le, List.takeWhile_append_of_pos h.isDigit]
    rcases h.ends with hlength | hrest
    · rw [hlength, Nat.sub_self, List.take_zero, List.takeWhile_nil, List.append_nil]
    · cases rest with
      | nil => rw [List.take_nil, List.takeWhile_nil, List.append_nil]
      | cons c r =>
        cases most - digits.length with
        | zero => rw [List.take_zero, List.takeWhile_nil, List.append_nil]
        | succ k => rw [List.take_succ_cons, List.takeWhile_cons_of_neg (hrest c rfl), List.append_nil]
  simp only [Calendar.readNumber, htaken, List.drop_left]

lemma readNumber_eq_some_iff {least most : Nat} : readNumber least most s = some (n, rest) ↔
    ∃ digits, Leading most digits rest ∧ least ≤ digits.length ∧ natOfDigits digits = n ∧ s = digits ++ rest := by
  constructor
  · intro h
    obtain ⟨digits, r, rfl, hleading⟩ := exists_leading most s
    rw [hleading.readNumber] at h
    split_ifs at h with hleast
    cases h
    exact ⟨digits, hleading, hleast, rfl, rfl⟩
  · rintro ⟨digits, hleading, hleast, rfl, rfl⟩
    rw [hleading.readNumber, if_pos hleast]

lemma exists_numeral {most : Nat} (h : readNumber 1 most s = some (n, rest)) :
    ∃ digits, IsNumeral digits ∧ digits.length ≤ most ∧ natOfDigits digits = n ∧ s = digits ++ rest := by
  obtain ⟨digits, hleading, hleast, hn, hs⟩ := readNumber_eq_some_iff.1 h
  exact ⟨digits, ⟨List.ne_nil_of_length_pos hleast, hleading.isDigit⟩, hleading.length_le, hn, hs⟩

lemma IsNumeral.readNumber {most : Nat} {digits : List Char} (h : IsNumeral digits) (hmost : digits.length ≤ most)
    (hrest : ∀ c ∈ rest.head?, ¬ c.isDigit) :
    readNumber 1 most (digits ++ rest) = some (natOfDigits digits, rest) :=
  readNumber_eq_some_iff.2 ⟨digits, ⟨h.2, hmost, .inr hrest⟩, List.length_pos_of_ne_nil h.1, rfl, rfl⟩

lemma length_le_length_append (s t : List Char) : s.length ≤ (s ++ t).length := by
  rw [List.length_append]
  exact Nat.le_add_right _ _

/-- A number of a fixed width is padded to it. -/
lemma readNumber_self_iff {width : Nat} (hwidth : 0 < width) :
    readNumber width width s = some (n, rest) ↔ n < 10 ^ width ∧ s = Date.padded width n ++ rest := by
  rw [readNumber_eq_some_iff]
  constructor
  · rintro ⟨digits, hleading, hleast, rfl, rfl⟩
    obtain rfl : digits.length = width := le_antisymm hleading.length_le hleast
    rw [← Date.eq_padded (List.ne_nil_of_length_pos hwidth) hleading.isDigit]
    exact ⟨natOfDigits_lt hleading.isDigit, rfl⟩
  · rintro ⟨hn, rfl⟩
    have hlength := Date.length_padded hwidth hn
    exact ⟨_, ⟨Date.isDigit_of_mem_padded, hlength.le, .inl hlength⟩, hlength.ge, Date.natOfDigits_padded, rfl⟩

lemma readOne_eq_some_iff {accepted : List Char} :
    readOne accepted s = some rest ↔ ∃ c ∈ accepted, s = c :: rest := by
  cases s with
  | nil => simp [readOne]
  | cons c s => simp [readOne]

lemma readNumber_padded {width : Nat} (hwidth : 0 < width) (hn : n < 10 ^ width) (rest : List Char) :
    readNumber width width (Date.padded width n ++ rest) = some (n, rest) :=
  (readNumber_self_iff hwidth).2 ⟨hn, rfl⟩

lemma readOne_self (c : Char) (rest : List Char) : readOne [c] (c :: rest) = some rest :=
  readOne_eq_some_iff.2 ⟨c, List.mem_cons_self, rfl⟩

lemma exists_of_bind_readNumber {width : Nat} (hwidth : 0 < width) {f : Nat × List Char → Option α}
    (h : readNumber width width s >>= f = some a) :
    ∃ n rest, n < 10 ^ width ∧ s = Date.padded width n ++ rest ∧ f (n, rest) = some a := by
  obtain ⟨⟨n, rest⟩, hnumber, h⟩ := Option.bind_eq_some_iff.1 h
  obtain ⟨hn, hs⟩ := (readNumber_self_iff hwidth).1 hnumber
  exact ⟨n, rest, hn, hs, h⟩

lemma exists_of_bind_readOne {accepted : List Char} {f : List Char → Option α}
    (h : readOne accepted s >>= f = some a) : ∃ c ∈ accepted, ∃ rest, s = c :: rest ∧ f rest = some a := by
  obtain ⟨rest, hone, h⟩ := Option.bind_eq_some_iff.1 h
  obtain ⟨c, hc, hs⟩ := readOne_eq_some_iff.1 hone
  exact ⟨c, hc, rest, hs, h⟩

lemma exists_of_bind_mark {c : Char} {f : List Char → Option α} (h : readOne [c] s >>= f = some a) :
    ∃ rest, s = c :: rest ∧ f rest = some a := by
  obtain ⟨_, hc, rest, hs, h⟩ := exists_of_bind_readOne h
  exact ⟨rest, List.mem_singleton.1 hc ▸ hs, h⟩

/-! Timestamps -/

lemma exists_fraction (h : readFraction s = some rest) : ∃ fraction, IsFraction fraction ∧ s = fraction ++ rest := by
  unfold readFraction at h
  split at h
  next s =>
    obtain ⟨⟨n, rest⟩, hnumber, rfl⟩ := Option.map_eq_some_iff.1 h
    obtain ⟨digits, hdigits, -, -, rfl⟩ := exists_numeral hnumber
    exact ⟨'.' :: digits, .inr ⟨digits, hdigits, rfl⟩, rfl⟩
  next =>
    cases h
    exact ⟨[], .inl rfl, rfl⟩

lemma IsFraction.readFraction {fraction : List Char} (h : IsFraction fraction)
    (hrest : ∀ c ∈ rest.head?, ¬ c.isDigit ∧ c ≠ '.') : readFraction (fraction ++ rest) = some rest := by
  rcases h with rfl | ⟨digits, hdigits, rfl⟩
  · unfold Calendar.readFraction
    split
    next s hs => exact absurd rfl (hrest '.' (by rw [List.nil_append] at hs; rw [hs]; rfl)).2
    next => rfl
  · rw [List.cons_append, Calendar.readFraction,
      hdigits.readNumber (length_le_length_append digits rest) fun c hc => (hrest c hc).1, Option.map_some]

lemma readOffset_eq_some_iff : readOffset s = some rest ↔ ∃ offset, IsOffset offset ∧ s = offset ++ rest := by
  constructor
  · intro h
    unfold readOffset at h
    split at h
    · cases h
      exact ⟨['Z'], .inl rfl, rfl⟩
    · cases h
      exact ⟨['z'], .inr (.inl rfl), rfl⟩
    · simp only [Option.bind_eq_bind, Option.bind_eq_some_iff, Prod.exists, readOne_eq_some_iff,
        readNumber_self_iff Nat.two_pos, List.mem_singleton, exists_eq_left] at h
      obtain ⟨_, ⟨sign, hsign, rfl⟩, hours, _, ⟨-, rfl⟩, _, rfl, minutes, _, ⟨-, rfl⟩, h⟩ := h
      split_ifs at h with hbounds
      cases h
      refine ⟨_, .inr (.inr ⟨sign, hours, minutes, hsign, hbounds.1, hbounds.2, rfl⟩), ?_⟩
      simp only [List.cons_append, List.append_assoc]
  · rintro ⟨offset, rfl | rfl | ⟨sign, hours, minutes, hsign, hhours, hminutes, rfl⟩, rfl⟩
    · rfl
    · rfl
    · have hletter : sign ≠ 'Z' ∧ sign ≠ 'z' := by
        constructor <;> (rintro rfl; revert hsign; decide)
      rw [List.cons_append, List.append_assoc, List.cons_append]
      unfold readOffset
      split
      next h => exact absurd (List.cons.inj h).1 hletter.1
      next h => exact absurd (List.cons.inj h).1 hletter.2
      next =>
        simp only [Option.bind_eq_bind, Option.bind_eq_some_iff, Prod.exists, readOne_eq_some_iff,
          readNumber_self_iff Nat.two_pos, List.mem_singleton, exists_eq_left]
        exact ⟨_, ⟨sign, hsign, rfl⟩, hours, _, ⟨by omega, rfl⟩, _, rfl, minutes, rest, ⟨by omega, rfl⟩,
          if_pos ⟨hhours, hminutes⟩⟩

lemma IsOffset.not_isDigit {offset : List Char} (h : IsOffset offset) :
    ∀ c ∈ offset.head?, ¬ c.isDigit ∧ c ≠ '.' := by
  have hsigns : ∀ c ∈ ['Z', 'z', '+', '-', '\u2212'], ¬ c.isDigit ∧ c ≠ '.' := by simp
  rcases h with rfl | rfl | ⟨sign, hours, minutes, hsign, -, -, rfl⟩ <;> rintro _ ⟨⟩
  · exact hsigns _ List.mem_cons_self
  · exact hsigns _ (List.mem_cons_of_mem _ List.mem_cons_self)
  · exact hsigns _ (List.mem_cons_of_mem _ (List.mem_cons_of_mem _ hsign))

lemma isTime_iff : isTime hour minute second ↔ hour ≤ 23 ∧ minute ≤ 59 ∧ second ≤ 60 := by
  rw [isTime, decide_eq_true_eq]

lemma IsTimestamp.of_readTimestamp (h : readTimestamp s = some d) : IsTimestamp s d := by
  unfold readTimestamp at h
  -- every step tells what the text left over begins with; the text is put together when all of it is known
  replace ⟨year, _, hyear, hs, h⟩ := exists_of_bind_readNumber (by decide) h
  replace ⟨_, hs₁, h⟩ := exists_of_bind_mark h
  replace ⟨month, _, _, hs₂, h⟩ := exists_of_bind_readNumber (by decide) h
  replace ⟨_, hs₃, h⟩ := exists_of_bind_mark h
  replace ⟨day, _, _, hs₄, h⟩ := exists_of_bind_readNumber (by decide) h
  replace ⟨separator, hseparator, _, hs₅, h⟩ := exists_of_bind_readOne h
  replace ⟨hour, _, _, hs₆, h⟩ := exists_of_bind_readNumber (by decide) h
  replace ⟨_, hs₇, h⟩ := exists_of_bind_mark h
  replace ⟨minute, _, _, hs₈, h⟩ := exists_of_bind_readNumber (by decide) h
  replace ⟨_, hs₉, h⟩ := exists_of_bind_mark h
  replace ⟨second, _, _, hs₁₀, h⟩ := exists_of_bind_readNumber (by decide) h
  obtain ⟨_, hfraction, h⟩ := Option.bind_eq_some_iff.1 h
  obtain ⟨_, hoffset, h⟩ := Option.bind_eq_some_iff.1 h
  replace ⟨fraction, hfraction, hs₁₁⟩ := exists_fraction hfraction
  replace ⟨offset, hoffset, hs₁₂⟩ := readOffset_eq_some_iff.1 hoffset
  split_ifs at h with htime
  obtain ⟨htime, rfl⟩ := htime
  obtain ⟨rfl, hexists⟩ := Date.of?_eq_some_iff.1 h
  subst hs hs₁ hs₂ hs₃ hs₄ hs₅ hs₆ hs₇ hs₈ hs₉ hs₁₀ hs₁₁ hs₁₂
  have hplain : Date.HasPlainYear ⟨year, month, day⟩ := ⟨Int.natCast_nonneg year, by dsimp only; omega⟩
  refine ⟨hexists, hplain, separator, hour, minute, second, fraction, offset, hseparator, htime, hfraction, hoffset, ?_⟩
  rw [hplain.dayText]
  simp only [Int.natAbs_natCast, List.append_nil, List.append_assoc, List.cons_append]

lemma IsTimestamp.readTimestamp (h : IsTimestamp s d) : readTimestamp s = some d := by
  obtain ⟨hexists, hplain, separator, hour, minute, second, fraction, offset, hseparator, htime, hfraction, hoffset,
    rfl⟩ := h
  obtain ⟨hhour, hminute, hsecond⟩ := isTime_iff.1 htime
  have hnumber {n : Nat} (hn : n < 100) := readNumber_padded Nat.two_pos hn
  have hend := readOffset_eq_some_iff.2 ⟨offset, hoffset, (List.append_nil offset).symm⟩
  rw [hplain.dayText, List.append_assoc, List.cons_append, List.append_assoc, List.cons_append]
  refine Option.bind_eq_some_iff.2 ⟨_, readNumber_padded (by decide) hplain.natAbs_lt _, ?_⟩
  refine Option.bind_eq_some_iff.2 ⟨_, readOne_self '-' _, ?_⟩
  refine Option.bind_eq_some_iff.2 ⟨_, hnumber hexists.month_lt _, ?_⟩
  refine Option.bind_eq_some_iff.2 ⟨_, readOne_self '-' _, ?_⟩
  refine Option.bind_eq_some_iff.2 ⟨_, hnumber hexists.day_lt _, ?_⟩
  refine Option.bind_eq_some_iff.2 ⟨_, readOne_eq_some_iff.2 ⟨separator, hseparator, rfl⟩, ?_⟩
  refine Option.bind_eq_some_iff.2 ⟨_, hnumber (by omega) _, ?_⟩
  refine Option.bind_eq_some_iff.2 ⟨_, readOne_self ':' _, ?_⟩
  refine Option.bind_eq_some_iff.2 ⟨_, hnumber (by omega) _, ?_⟩
  refine Option.bind_eq_some_iff.2 ⟨_, readOne_self ':' _, ?_⟩
  refine Option.bind_eq_some_iff.2 ⟨_, hnumber (by omega) _, ?_⟩
  refine Option.bind_eq_some_iff.2 ⟨_, hfraction.readFraction hoffset.not_isDigit, ?_⟩
  refine Option.bind_eq_some_iff.2 ⟨_, hend, ?_⟩
  rw [if_pos ⟨htime, rfl⟩, Int.natAbs_of_nonneg hplain.1]
  exact Date.of?_eq_some_iff.2 ⟨rfl, hexists⟩

/-! Days and times of day -/

lemma not_isBlank_of_isDigit {c : Char} (h : c.isDigit) : ¬ Text.isBlank c :=
  Comparison.not_isBlank_of_isNumeral (Bool.or_eq_true_iff.2 (.inl h))

lemma dropWhile_blanks {blanks : List Char} (hblanks : AreBlank blanks) (hs : ∀ c ∈ s.head?, ¬ Text.isBlank c) :
    (blanks ++ s).dropWhile Text.isBlank = s := by
  rw [List.dropWhile_append_of_pos hblanks]
  cases s with
  | nil => rfl
  | cons c s => exact List.dropWhile_cons_of_neg (hs c rfl)

lemma exists_blanks (s : List Char) : ∃ blanks, AreBlank blanks ∧ s = blanks ++ s.dropWhile Text.isBlank :=
  ⟨s.takeWhile Text.isBlank, fun _ => List.mem_takeWhile_imp, List.takeWhile_append_dropWhile.symm⟩

lemma IsNumeral.isDigit_head {digits : List Char} (h : IsNumeral digits) (rest : List Char) :
    ∀ c ∈ (digits ++ rest).head?, c.isDigit := by
  obtain ⟨c, digits, rfl⟩ := List.exists_cons_of_ne_nil h.1
  rintro _ ⟨⟩
  exact h.2 c List.mem_cons_self

lemma IsNumeral.dropWhile_blanks {blanks digits : List Char} (h : IsNumeral digits) (hblanks : AreBlank blanks)
    (rest : List Char) : (blanks ++ (digits ++ rest)).dropWhile Text.isBlank = digits ++ rest :=
  Calendar.dropWhile_blanks hblanks fun c hc => not_isBlank_of_isDigit (h.isDigit_head rest c hc)

lemma readShort_eq_some_iff : readShort s = some (n, rest) ↔
    ∃ width short, IsShort width short n ∧ Ends width rest ∧ s = short ++ rest := by
  unfold readShort
  constructor
  · intro h
    obtain ⟨digits, hleading, hleast, hn, hs⟩ := readNumber_eq_some_iff.1 h
    obtain ⟨blanks, hblanks, hsplit⟩ := exists_blanks s
    refine ⟨digits.length, blanks ++ digits, ⟨blanks, digits, hblanks,
      ⟨List.ne_nil_of_length_pos hleast, hleading.isDigit⟩, rfl, hleading.length_le, hn, rfl⟩, hleading.ends, ?_⟩
    rw [hsplit, hs, List.append_assoc]
  · rintro ⟨width, short, ⟨blanks, digits, hblanks, hdigits, rfl, hwidth, rfl, rfl⟩, hends, rfl⟩
    rw [List.append_assoc, hdigits.dropWhile_blanks hblanks]
    exact readNumber_eq_some_iff.2 ⟨digits, ⟨hdigits.2, hwidth, hends⟩, List.length_pos_of_ne_nil hdigits.1, rfl, rfl⟩

lemma exists_year {year : Int} (h : readYear s = some (year, rest)) : ∃ text, IsYear text year ∧ s = text ++ rest := by
  obtain ⟨blanks, hblanks, hs⟩ := exists_blanks s
  unfold readYear at h
  split at h
  next r hr =>
    obtain ⟨⟨n, _⟩, hnumber, ⟨⟩⟩ := Option.map_eq_some_iff.1 h
    obtain ⟨digits, hdigits, -, rfl, rfl⟩ := exists_numeral hnumber
    exact ⟨_, ⟨blanks, digits, hblanks, hdigits, .inl ⟨rfl, rfl⟩⟩, by rw [hs, hr, List.append_assoc]; rfl⟩
  next r hr =>
    obtain ⟨⟨n, _⟩, hnumber, ⟨⟩⟩ := Option.map_eq_some_iff.1 h
    obtain ⟨digits, hdigits, -, rfl, rfl⟩ := exists_numeral hnumber
    exact ⟨_, ⟨blanks, digits, hblanks, hdigits, .inr (.inl ⟨rfl, rfl⟩)⟩, by rw [hs, hr, List.append_assoc]; rfl⟩
  next =>
    obtain ⟨⟨n, _⟩, hnumber, ⟨⟩⟩ := Option.map_eq_some_iff.1 h
    obtain ⟨digits, hdigits, hmost, rfl, hr⟩ := exists_numeral hnumber
    exact ⟨_, ⟨blanks, digits, hblanks, hdigits, .inr (.inr ⟨hmost, rfl, rfl⟩)⟩, by rw [hs, hr, List.append_assoc]⟩

lemma IsYear.readYear {year : Int} (h : IsYear s year) (hrest : ∀ c ∈ rest.head?, ¬ c.isDigit) :
    readYear (s ++ rest) = some (year, rest) := by
  obtain ⟨blanks, digits, hblanks, hdigits, h⟩ := h
  have hall := hdigits.readNumber (length_le_length_append digits rest) hrest
  unfold Calendar.readYear
  rcases h with ⟨rfl, rfl⟩ | ⟨rfl, rfl⟩ | ⟨hmost, rfl, rfl⟩
  · rw [List.append_assoc, List.cons_append, dropWhile_blanks hblanks (by rintro _ ⟨⟩; decide)]
    simp only [hall, Option.map_some]
  · rw [List.append_assoc, List.cons_append, dropWhile_blanks hblanks (by rintro _ ⟨⟩; decide)]
    simp only [hall, Option.map_some]
  · have hsign (c : Char) (r : List Char) (hr : digits ++ rest = c :: r) : c.isDigit :=
      hdigits.isDigit_head rest c (congrArg List.head? hr)
    rw [List.append_assoc, hdigits.dropWhile_blanks hblanks]
    split
    next r hr => exact absurd (hsign '-' r hr) (by decide)
    next r hr => exact absurd (hsign '+' r hr) (by decide)
    next => rw [hdigits.readNumber hmost hrest, Option.map_some]

lemma exists_of_bind_readShort {f : Nat × List Char → Option α} (h : readShort s >>= f = some a) :
    ∃ width short n rest, IsShort width short n ∧ Ends width rest ∧ s = short ++ rest ∧ f (n, rest) = some a := by
  obtain ⟨⟨n, rest⟩, hread, h⟩ := Option.bind_eq_some_iff.1 h
  obtain ⟨width, short, hshort, hends, hs⟩ := readShort_eq_some_iff.1 hread
  exact ⟨width, short, n, rest, hshort, hends, hs, h⟩

lemma not_isDigit_mark (rest : List Char) {c : Char} (hc : c ∈ ['-', ':', 'T']) :
    ∀ d ∈ (c :: rest).head?, ¬ d.isDigit := by
  have hmarks : ∀ c ∈ ['-', ':', 'T'], ¬ c.isDigit := by simp
  rintro _ ⟨⟩
  exact hmarks c hc

lemma exists_day (h : readDay s = some (d, rest)) :
    ∃ width day, IsDay width day d ∧ Ends width rest ∧ s = day ++ rest := by
  unfold readDay at h
  replace ⟨⟨year, _⟩, hyear, h⟩ := Option.bind_eq_some_iff.1 h
  replace ⟨yearText, hyear, hs⟩ := exists_year hyear
  replace ⟨_, hs₁, h⟩ := exists_of_bind_mark h
  replace ⟨w, monthText, month, _, hmonth, _, hs₂, h⟩ := exists_of_bind_readShort h
  replace ⟨_, hs₃, h⟩ := exists_of_bind_mark h
  replace ⟨width, dayText, day, _, hday, hends, hs₄, h⟩ := exists_of_bind_readShort h
  replace ⟨e, hdate, h⟩ := Option.bind_eq_some_iff.1 h
  cases h
  obtain ⟨rfl, hexists⟩ := Date.of?_eq_some_iff.1 hdate
  subst hs hs₁ hs₂ hs₃ hs₄
  refine ⟨width, _, ⟨hexists, yearText, monthText, dayText, hyear, ⟨w, hmonth⟩, hday, rfl⟩, hends, ?_⟩
  simp only [List.append_assoc, List.cons_append]

lemma IsDay.readDay {width : Nat} (h : IsDay width s d) (hends : Ends width rest) :
    readDay (s ++ rest) = some (d, rest) := by
  obtain ⟨hexists, year, month, day, hyear, ⟨w, hmonth⟩, hday, rfl⟩ := h
  have hhyphen (r : List Char) := not_isDigit_mark r (c := '-') (by decide)
  simp only [List.append_assoc, List.cons_append]
  refine Option.bind_eq_some_iff.2 ⟨_, hyear.readYear (hhyphen _), ?_⟩
  refine Option.bind_eq_some_iff.2 ⟨_, readOne_self '-' _, ?_⟩
  refine Option.bind_eq_some_iff.2 ⟨_, readShort_eq_some_iff.2 ⟨w, month, hmonth, .inr (hhyphen _), rfl⟩, ?_⟩
  refine Option.bind_eq_some_iff.2 ⟨_, readOne_self '-' _, ?_⟩
  refine Option.bind_eq_some_iff.2 ⟨_, readShort_eq_some_iff.2 ⟨width, day, hday, hends, rfl⟩, ?_⟩
  exact Option.bind_eq_some_iff.2 ⟨d, Date.of?_eq_some_iff.2 ⟨rfl, hexists⟩, rfl⟩

lemma IsDay.readDay_self {width : Nat} (h : IsDay width s d) : Calendar.readDay s = some (d, []) := by
  have hends : Ends width [] := .inr nofun
  rw [← h.readDay hends, List.append_nil]

lemma readTime_eq_some_nil_iff : readTime s = some [] ↔ IsClock s := by
  constructor
  · intro h
    unfold readTime at h
    replace ⟨_, hourText, hour, _, hhour, _, hs, h⟩ := exists_of_bind_readShort h
    replace ⟨_, hs₁, h⟩ := exists_of_bind_mark h
    replace ⟨_, minuteText, minute, _, hminute, _, hs₂, h⟩ := exists_of_bind_readShort h
    replace ⟨_, hs₃, h⟩ := exists_of_bind_mark h
    replace ⟨_, secondText, second, _, hsecond, _, hs₄, h⟩ := exists_of_bind_readShort h
    dsimp only at h
    split_ifs at h with htime
    cases h
    subst hs hs₁ hs₂ hs₃ hs₄
    refine ⟨hourText, minuteText, secondText, hour, minute, second, ⟨_, hhour⟩, ⟨_, hminute⟩, ⟨_, hsecond⟩, htime, ?_⟩
    rw [List.append_nil]
  · rintro ⟨hourText, minuteText, secondText, hour, minute, second, ⟨_, hhour⟩, ⟨_, hminute⟩, ⟨_, hsecond⟩, htime, rfl⟩
    have hcolon (r : List Char) := not_isDigit_mark r (c := ':') (by decide)
    refine Option.bind_eq_some_iff.2 ⟨_, readShort_eq_some_iff.2 ⟨_, hourText, hhour, .inr (hcolon _), rfl⟩, ?_⟩
    refine Option.bind_eq_some_iff.2 ⟨_, readOne_self ':' _, ?_⟩
    refine Option.bind_eq_some_iff.2 ⟨_, readShort_eq_some_iff.2 ⟨_, minuteText, hminute, .inr (hcolon _), rfl⟩, ?_⟩
    refine Option.bind_eq_some_iff.2 ⟨_, readOne_self ':' _, ?_⟩
    refine Option.bind_eq_some_iff.2 ⟨(second, []),
      readShort_eq_some_iff.2 ⟨_, secondText, hsecond, .inr nofun, (List.append_nil _).symm⟩, ?_⟩
    exact if_pos htime

/-- A time of day begins with a blank or a digit. -/
lemma IsClock.head (h : IsClock t) : ∃ c r, t = c :: r ∧ (Text.isBlank c ∨ c.isDigit) := by
  obtain ⟨-, minute, second, -, -, -, ⟨_, blanks, digits, hblanks, hdigits, -, -, -, rfl⟩, -, -, -, rfl⟩ := h
  cases blanks with
  | cons c blanks => exact ⟨c, _, rfl, .inl (hblanks c List.mem_cons_self)⟩
  | nil =>
    obtain ⟨c, digits, rfl⟩ := List.exists_cons_of_ne_nil hdigits.1
    exact ⟨c, _, rfl, .inr (hdigits.2 c List.mem_cons_self)⟩

lemma readLocal_eq_some_iff : readLocal s = some d ↔ IsLocal s d := by
  constructor
  · intro h
    unfold readLocal at h
    replace ⟨⟨e, rest⟩, hday, h⟩ := Option.bind_eq_some_iff.1 h
    replace ⟨width, day, hday, hends, hs⟩ := exists_day hday
    subst hs
    dsimp only at h
    split at h
    · cases h
      exact (List.append_nil day).symm ▸ .day hday
    · obtain ⟨r, hclock, h⟩ := Option.bind_eq_some_iff.1 h
      split_ifs at h with hr
      cases h
      subst hr
      exact .lettered hday (readTime_eq_some_nil_iff.1 hclock)
    · obtain ⟨r, hclock, h⟩ := Option.bind_eq_some_iff.1 h
      split_ifs at h with hr
      cases h
      subst hr
      exact .adjacent hday (readTime_eq_some_nil_iff.1 hclock) hends
  · rintro (hday | ⟨hday, hclock⟩ | ⟨hday, hclock, hends⟩)
    · exact Option.bind_eq_some_iff.2 ⟨_, hday.readDay_self, rfl⟩
    · refine Option.bind_eq_some_iff.2 ⟨_, hday.readDay (.inr (not_isDigit_mark _ (by decide))), ?_⟩
      exact Option.bind_eq_some_iff.2 ⟨[], readTime_eq_some_nil_iff.2 hclock, rfl⟩
    · refine Option.bind_eq_some_iff.2 ⟨_, hday.readDay hends, ?_⟩
      obtain ⟨c, r, rfl, hc⟩ := hclock.head
      have hletter : c ≠ 'T' := by
        rintro rfl
        revert hc
        decide
      dsimp only
      split
      next h => cases h
      next h => exact absurd (List.cons.inj h).1 hletter
      next => exact Option.bind_eq_some_iff.2 ⟨[], readTime_eq_some_nil_iff.2 hclock, rfl⟩

lemma isNumeral_padded {width : Nat} (hwidth : 0 < width) (hn : n < 10 ^ width) : IsNumeral (Date.padded width n) :=
  ⟨List.ne_nil_of_length_pos ((Date.length_padded hwidth hn).symm ▸ hwidth), Date.isDigit_of_mem_padded⟩

lemma isShort_padded (hn : n < 100) : IsShort 2 (Date.padded 2 n) n :=
  ⟨[], _, nofun, isNumeral_padded (by decide) hn, Date.length_padded (by decide) hn, Nat.le_refl 2,
    Date.natOfDigits_padded, rfl⟩

/-- The text of a day is one way to write it. -/
lemma isDay_dayText (hexists : d.Exists) (hplain : d.HasPlainYear) : IsDay 2 d.dayText d := by
  refine ⟨hexists, _, _, _, ⟨[], _, nofun, isNumeral_padded (by decide) hplain.natAbs_lt, .inr (.inr ⟨?_, ?_, rfl⟩)⟩,
    ⟨2, isShort_padded hexists.month_lt⟩, isShort_padded hexists.day_lt, hplain.dayText⟩
  · exact (Date.length_padded (by decide) hplain.natAbs_lt).le
  · rw [Date.natOfDigits_padded, Int.natAbs_of_nonneg hplain.1]

lemma IsLocal.readDay (h : IsLocal s d) : ∃ rest, readDay s = some (d, rest) := by
  rcases h with hday | ⟨hday, -⟩ | ⟨hday, -, hends⟩
  · exact ⟨[], hday.readDay_self⟩
  · exact ⟨_, hday.readDay (.inr (not_isDigit_mark _ (by decide)))⟩
  · exact ⟨_, hday.readDay hends⟩

lemma IsLocal.exists (h : IsLocal s d) : d.Exists := by
  rcases h with hday | ⟨hday, -⟩ | ⟨hday, -, -⟩
  all_goals exact hday.1

/-- A text with two readings has the same day in both. -/
lemma IsTimestamp.eq_of_isLocal (h : IsTimestamp s d) (he : IsLocal s e) : d = e := by
  -- a timestamp begins with its day in full width, after which a local reading has no choice
  obtain ⟨hexists, hplain, separator, hour, minute, second, fraction, offset, -, -, -, -, rfl⟩ := h
  obtain ⟨rest, hread⟩ := he.readDay
  rw [(isDay_dayText hexists hplain).readDay (.inl rfl)] at hread
  cases hread
  rfl

lemma Names.exists {text : String} (h : Names text d) : d.Exists := h.elim And.left IsLocal.exists

/-- A text names the day that is read from it, and no other. -/
theorem readDate_eq_some_iff {text : String} : readDate text = some d ↔ Names text d := by
  unfold readDate Names
  constructor
  · intro h
    cases hread : readTimestamp text.toList with
    | some e =>
      rw [hread, Option.some_or, Option.some.injEq] at h
      exact .inl (.of_readTimestamp (h ▸ hread))
    | none =>
      rw [hread, Option.none_or] at h
      exact .inr (readLocal_eq_some_iff.1 h)
  · rintro (h | h)
    · rw [h.readTimestamp, Option.some_or]
    · cases hread : readTimestamp text.toList with
      | some e => rw [Option.some_or, (IsTimestamp.of_readTimestamp hread).eq_of_isLocal h]
      | none => rw [Option.none_or, readLocal_eq_some_iff.2 h]

end Tabulation.Calendar
