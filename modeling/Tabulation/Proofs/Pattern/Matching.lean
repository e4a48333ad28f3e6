import Mathlib.Logic.Function.Iterate
import Mathlib.Tactic.Lemma
import Mathlib.Tactic.SplitIfs
import Tabulation.Pattern.Regex

/-! What a regular expression matches. An expression matches a part of a text between what stands before and what
stands after that part, and it is found in a text of which it matches some part. The columns by which it is
looked for tell exactly this. -/
namespace Tabulation.Pattern

variable {P Q R : List Char → List Char → Prop} {before after : List Char}

/-- A text is cut at a place of it, or just before it. -/
lemma exists_cut_cons {c : Char} :
    (∃ part rest, c :: after = part ++ rest ∧ P part rest) ↔
      P [] (c :: after) ∨ ∃ part rest, after = part ++ rest ∧ P (c :: part) rest := by
  constructor
  · rintro ⟨part, rest, heq, hP⟩
    cases part with
    | nil => exact .inl (heq ▸ hP)
    | cons d part =>
      obtain ⟨rfl, hafter⟩ := List.cons.inj heq
      exact .inr ⟨part, rest, hafter, hP⟩
  · rintro (hP | ⟨part, rest, rfl, hP⟩)
    · exact ⟨[], _, rfl, hP⟩
    · exact ⟨c :: part, rest, rfl, hP⟩

lemma exists_cut_nil : (∃ part rest, [] = part ++ rest ∧ P part rest) ↔ P [] [] := by
  constructor
  · rintro ⟨part, rest, heq, hP⟩
    obtain ⟨rfl, rfl⟩ := List.append_eq_nil_iff.1 heq.symm
    exact hP
  · exact fun hP => ⟨[], [], rfl, hP⟩

namespace Column

variable {accepts : Char → Bool} {column other : Column}

/-- For every place of a text from one place on, a column says whether what stands before and after it has a
property. -/
inductive Tells (P : List Char → List Char → Prop) : List Char → List Char → Column → Prop
  | finish {before : List Char} {b : Bool} (hb : b = true ↔ P before []) : Tells P before [] [b]
  | next {before : List Char} {c : Char} {after : List Char} {b : Bool} {bs : Column}
      (hb : b = true ↔ P before (c :: after)) (hbs : Tells P (before ++ [c]) after bs) :
      Tells P before (c :: after) (b :: bs)

lemma Tells.congr (h : Tells P before after column) (hPQ : ∀ b a, b ++ a = before ++ after → (P b a ↔ Q b a)) :
    Tells Q before after column := by
  induction h with
  | finish hb => exact .finish (hb.trans (hPQ _ _ rfl))
  | next hb _ ih => exact .next (hb.trans (hPQ _ _ rfl)) (ih fun b a hcut => hPQ b a (by simpa using hcut))

lemma Tells.exists_cons (h : Tells P before after column) :
    ∃ b bs, column = b :: bs ∧ (b = true ↔ P before after) := by
  cases h with
  | finish hb => exact ⟨_, _, rfl, hb⟩
  | next hb _ => exact ⟨_, _, rfl, hb⟩

lemma Tells.one (h : Tells P before after column) :
    Tells (fun before after => ∃ c rest, after = c :: rest ∧ accepts c ∧ P (before ++ [c]) rest) before after
      (column.one accepts after) := by
  induction h with
  | finish hb => exact .finish (by simp)
  | next hb hbs ih =>
    obtain ⟨b, bs, rfl, hb⟩ := hbs.exists_cons
    refine .next ?_ ih
    rw [Bool.and_eq_true, hb]
    simp only [List.cons.injEq]
    exact ⟨fun hc => ⟨_, _, ⟨rfl, rfl⟩, hc⟩, by rintro ⟨_, _, ⟨rfl, rfl⟩, hc⟩; exact hc⟩

lemma Tells.run (h : Tells P before after column) :
    Tells (fun before after => ∃ part rest, after = part ++ rest ∧ (∀ c ∈ part, accepts c) ∧ P (before ++ part) rest)
      before after (column.run accepts after) := by
  induction h with
  | finish hb =>
    refine .finish ?_
    rw [exists_cut_nil]
    simpa using hb
  | next hb hbs ih =>
    obtain ⟨b, bs, heq, hrest⟩ := ih.exists_cons
    refine .next ?_ ih
    rw [exists_cut_cons, heq, Bool.or_eq_true, Bool.and_eq_true, List.headD_cons, hrest, hb]
    refine or_congr (by simp) ?_
    simp only [List.forall_mem_cons, List.append_assoc, List.singleton_append, and_assoc]
    constructor
    · exact fun ⟨hc, part, rest, hafter, hpart⟩ => ⟨part, rest, hafter, hc, hpart⟩
    · exact fun ⟨part, rest, hafter, hc, hpart⟩ => ⟨hc, part, rest, hafter, hpart⟩

lemma tells_between {holds : Option Char → Option Char → Bool} (before after : List Char) :
    Tells (fun before after => holds before.getLast? after.head?) before after
      (Column.between holds before.getLast? after) := by
  induction after generalizing before with
  | nil => exact .finish Iff.rfl
  | cons c after ih =>
    have hrest := ih (before ++ [c])
    rw [List.getLast?_concat] at hrest
    exact .next Iff.rfl hrest

lemma Tells.both (h : Tells P before after column) (hother : Tells Q before after other) :
    Tells (fun before after => P before after ∧ Q before after) before after (column.both other) := by
  induction h generalizing other with
  | finish hb =>
    cases hother with
    | finish hb' => exact .finish (by rw [Bool.and_eq_true, hb, hb'])
  | next hb _ ih =>
    cases hother with
    | next hb' hbs' => exact .next (by rw [Bool.and_eq_true, hb, hb']) (ih hbs')

lemma Tells.either (h : Tells P before after column) (hother : Tells Q before after other) :
    Tells (fun before after => P before after ∨ Q before after) before after (column.either other) := by
  induction h generalizing other with
  | finish hb =>
    cases hother with
    | finish hb' => exact .finish (by rw [Bool.or_eq_true, hb, hb'])
  | next hb _ ih =>
    cases hother with
    | next hb' hbs' => exact .next (by rw [Bool.or_eq_true, hb, hb']) (ih hbs')

lemma tells_true (before after : List Char) :
    Tells (fun _ _ => True) before after (List.replicate (after.length + 1) true) := by
  induction after generalizing before with
  | nil => exact .finish (by simp)
  | cons c after ih => exact .next (by simp) (ih _)

lemma Tells.any (h : Tells P before after column) :
    column.any id ↔ ∃ part rest, after = part ++ rest ∧ P (before ++ part) rest := by
  induction h with
  | finish hb =>
    rw [exists_cut_nil]
    simpa using hb
  | next hb _ ih =>
    rw [exists_cut_cons, List.any_cons, Bool.or_eq_true, ih]
    simp [hb]

end Column

namespace Regex

/-- What stands before a part of a text, the part, and what stands after it. -/
abbrev Match := List Char → List Char → List Char → Prop

/-- The empty part, wherever it stands. -/
def Match.nothing : Match := fun _ part _ => part = []

/-- One match right after another. -/
def Match.next (first second : Match) : Match := fun before part after =>
  ∃ p q, part = p ++ q ∧ first before p (q ++ after) ∧ second (before ++ p) q after

/-- A number of matches, each right after the one before it. -/
def Match.times (m : Match) : Nat → Match
  | 0 => nothing
  | n + 1 => m.next (m.times n)

/-- The parts that an expression matches. -/
def Takes : Regex → Match
  | .empty => .nothing
  | .one set => fun _ part _ => ∃ c, part = [c] ∧ set.contains c
  | .assertion a => fun before part after => part = [] ∧ a.holds before.getLast? after.head?
  | .group body => body.Takes
  | .seq a b => Match.next a.Takes b.Takes
  | .alt a b => fun before part after => a.Takes before part after ∨ b.Takes before part after
  | .repeated least most body => fun before part after =>
    ∃ n, (least ≤ n ∧ ∀ k ∈ most, n ≤ max least k) ∧ Match.times body.Takes n before part after

/-- A match leads from one place of a text to another one, where something holds. -/
def Match.LeadsTo (m : Match) (P : List Char → List Char → Prop) (before after : List Char) : Prop :=
  ∃ part rest, after = part ++ rest ∧ m before part rest ∧ P (before ++ part) rest

namespace Match

variable {m first second : Match} {part : List Char} {n k : Nat}

lemma nothing_next : nothing.next m = m := by
  funext before part after
  apply propext
  constructor
  · rintro ⟨_, q, rfl, rfl, hm⟩
    rwa [List.append_nil] at hm
  · exact fun hm => ⟨[], part, rfl, rfl, by rwa [List.append_nil]⟩

lemma next_nothing : m.next nothing = m := by
  funext before part after
  apply propext
  constructor
  · rintro ⟨p, _, rfl, hm, rfl⟩
    rwa [List.append_nil]
  · exact fun hm => ⟨part, [], by simp, hm, rfl⟩

lemma leadsTo_nothing : LeadsTo nothing P = P := by
  funext before after
  apply propext
  constructor
  · rintro ⟨_, rest, rfl, rfl, hP⟩
    rwa [List.append_nil] at hP
  · exact fun hP => ⟨[], after, rfl, rfl, by rwa [List.append_nil]⟩

lemma leadsTo_next : (first.next second).LeadsTo P = first.LeadsTo (second.LeadsTo P) := by
  funext before after
  apply propext
  constructor
  · rintro ⟨_, rest, rfl, ⟨p, q, rfl, hp, hq⟩, hP⟩
    exact ⟨p, q ++ rest, by simp, hp, q, rest, rfl, hq, by simpa using hP⟩
  · rintro ⟨p, _, rfl, hp, q, rest, rfl, hq, hP⟩
    exact ⟨p ++ q, rest, by simp, ⟨p, q, rfl, hp, hq⟩, by simpa using hP⟩

lemma leadsTo_times_add : (m.times (n + k)).LeadsTo P = (m.times n).LeadsTo ((m.times k).LeadsTo P) := by
  induction n with
  | zero => rw [Nat.zero_add, times, leadsTo_nothing]
  | succ n ih => rw [Nat.succ_add, times, times, leadsTo_next, leadsTo_next, ih]

lemma leadsTo_or : LeadsTo (fun before part after => first before part after ∨ second before part after) P before
    after ↔ first.LeadsTo P before after ∨ second.LeadsTo P before after := by
  simp only [LeadsTo, and_or_left, or_and_right, exists_or]

/-- A match that leads to one of several kinds of places. -/
lemma leadsTo_exists {ι : Type} {admits : ι → Prop} {kinds : ι → List Char → List Char → Prop} :
    m.LeadsTo (fun before after => ∃ i, admits i ∧ kinds i before after) before after ↔
      ∃ i, admits i ∧ m.LeadsTo (kinds i) before after := by
  constructor
  · rintro ⟨part, rest, rfl, hm, i, hi, hP⟩
    exact ⟨i, hi, part, rest, rfl, hm, hP⟩
  · rintro ⟨i, hi, part, rest, rfl, hm, hP⟩
    exact ⟨part, rest, rfl, hm, i, hi, hP⟩

/-- One of several matches. -/
lemma exists_leadsTo {ι : Type} {admits : ι → Prop} {ms : ι → Match} :
    LeadsTo (fun before part after => ∃ i, admits i ∧ ms i before part after) P before after ↔
      ∃ i, admits i ∧ (ms i).LeadsTo P before after := by
  constructor
  · rintro ⟨part, rest, rfl, ⟨i, hi, hm⟩, hP⟩
    exact ⟨i, hi, part, rest, rfl, hm, hP⟩
  · rintro ⟨i, hi, part, rest, rfl, hm, hP⟩
    exact ⟨part, rest, rfl, ⟨i, hi, hm⟩, hP⟩

/-- Repetitions of nothing can be left out, so no part takes more repetitions than it has characters. -/
lemma exists_times_le_length (h : m.times n before part after) :
    ∃ k ≤ part.length, m.times k before part after := by
  induction n generalizing before part with
  | zero => exact ⟨0, Nat.zero_le _, h⟩
  | succ n ih =>
    obtain ⟨p, q, rfl, hp, hq⟩ := h
    obtain ⟨k, hk, hq⟩ := ih hq
    rw [List.length_append]
    by_cases hnil : p = []
    · subst hnil
      rw [List.append_nil] at hq
      exact ⟨k, by omega, hq⟩
    · have hpos := List.length_pos_iff.2 hnil
      exact ⟨k + 1, by omega, p, q, rfl, hp, hq⟩

/-- Any number of single characters of a set. -/
lemma exists_times_one {set : CharSet} (before after : List Char) :
    (∃ n, (Regex.one set).Takes.times n before part after) ↔ ∀ c ∈ part, set.contains c := by
  constructor
  · rintro ⟨n, h⟩
    induction n generalizing before part with
    | zero => simp [show part = [] from h]
    | succ n ih =>
      obtain ⟨_, q, rfl, ⟨c, rfl, hc⟩, hq⟩ := h
      exact List.forall_mem_cons.2 ⟨hc, ih _ hq⟩
  · intro h
    induction part generalizing before with
    | nil => exact ⟨0, rfl⟩
    | cons c part ih =>
      obtain ⟨hc, hpart⟩ := List.forall_mem_cons.1 h
      obtain ⟨n, hn⟩ := ih (before ++ [c]) hpart
      exact ⟨n + 1, [c], part, rfl, ⟨c, rfl, hc⟩, hn⟩

end Match

/-- Rounds in which nothing changes can be left out. -/
lemma settle_eq_iterate (f : Column → Column) (n : Nat) (column : Column) : settle f n column = f^[n] column := by
  induction n generalizing column with
  | zero => rfl
  | succ n ih =>
    rw [settle, Function.iterate_succ_apply]
    split_ifs with hfixed
    · rw [hfixed, Function.iterate_fixed hfixed]
    · exact ih _

section
variable {s : List Char} {f : Column → Column} {m : Match} {column : Column}
  (hf : ∀ {P column}, Column.Tells P [] s column → Column.Tells (m.LeadsTo P) [] s (f column))
include hf

lemma tells_times (h : Column.Tells P [] s column) (n : Nat) :
    Column.Tells ((m.times n).LeadsTo P) [] s (settle f n column) := by
  rw [settle_eq_iterate]
  induction n with
  | zero => rwa [Match.times, Match.leadsTo_nothing]
  | succ n ih =>
    rw [Function.iterate_succ_apply', Match.times, Match.leadsTo_next]
    exact hf ih

lemma tells_loop (h : Column.Tells P [] s column) (rounds : Nat) :
    Column.Tells (fun before after => ∃ n ≤ rounds, (m.times n).LeadsTo P before after) [] s
      (settle (fun next => column.either (f next)) rounds column) := by
  rw [settle_eq_iterate]
  induction rounds with
  | zero => exact h.congr fun _ _ _ => by simp [Match.times, Match.leadsTo_nothing]
  | succ rounds ih =>
    rw [Function.iterate_succ_apply']
    refine (h.either (hf ih)).congr fun before after _ => ?_
    rw [Match.leadsTo_exists]
    simp only [← Match.leadsTo_next]
    constructor
    · rintro (hP | ⟨n, hn, hleads⟩)
      · exact ⟨0, Nat.zero_le _, by rwa [Match.times, Match.leadsTo_nothing]⟩
      · exact ⟨n + 1, Nat.succ_le_succ hn, hleads⟩
    · rintro ⟨_ | n, hn, hleads⟩
      · exact .inl (by rwa [Match.times, Match.leadsTo_nothing] at hleads)
      · exact .inr ⟨n, Nat.le_of_succ_le_succ hn, hleads⟩

/-- There is no need for more rounds than the text has characters. -/
lemma tells_endless_loop (h : Column.Tells P [] s column) :
    Column.Tells (fun before after => ∃ n, (m.times n).LeadsTo P before after) [] s
      (settle (fun next => column.either (f next)) (s.length + 1) column) := by
  refine (tells_loop hf h _).congr fun before after hcut => ?_
  constructor
  · exact fun ⟨n, _, hleads⟩ => ⟨n, hleads⟩
  · rintro ⟨n, part, rest, rfl, htimes, hP⟩
    obtain ⟨k, hk, htimes⟩ := Match.exists_times_le_length htimes
    have hlength := congrArg List.length hcut
    simp only [List.length_append, List.nil_append] at hlength
    exact ⟨k, by omega, part, rest, rfl, htimes, hP⟩

end

/-- The column of single characters in a row tells of any number of them. -/
lemma tells_run {s : List Char} {set : CharSet} {column : Column} (h : Column.Tells P [] s column) :
    Column.Tells (fun before after => ∃ n, ((Regex.one set).Takes.times n).LeadsTo P before after) [] s
      (column.run (set.contains ·) s) := by
  refine h.run.congr fun before after _ => ?_
  constructor
  · rintro ⟨part, rest, rfl, hpart, hP⟩
    obtain ⟨n, hn⟩ := (Match.exists_times_one before rest).2 hpart
    exact ⟨n, part, rest, rfl, hn, hP⟩
  · rintro ⟨n, part, rest, rfl, hn, hP⟩
    exact ⟨part, rest, rfl, (Match.exists_times_one _ _).1 ⟨n, hn⟩, hP⟩

/-- The optional repetitions come after the required ones. -/
lemma tells_repeated {s : List Char} {least : Nat} {most : Option Nat} {body : Regex} {looped : Column}
    (hbody : ∀ {P column}, Column.Tells P [] s column → Column.Tells (body.Takes.LeadsTo P) [] s (body.column s column))
    (h : Column.Tells (fun before after =>
      ∃ n, (∀ k ∈ most, n ≤ k - least) ∧ (body.Takes.times n).LeadsTo P before after) [] s looped) :
    Column.Tells ((repeated least most body).Takes.LeadsTo P) [] s (settle (body.column s) least looped) := by
  refine (tells_times hbody h least).congr fun before after _ => ?_
  rw [Match.leadsTo_exists, Takes, Match.exists_leadsTo]
  simp only [← Match.leadsTo_times_add]
  constructor
  · rintro ⟨n, hn, hleads⟩
    refine ⟨least + n, ⟨Nat.le_add_right _ _, fun k hk => ?_⟩, hleads⟩
    have := hn k hk
    omega
  · rintro ⟨n, ⟨hleast, hmost⟩, hleads⟩
    refine ⟨n - least, fun k hk => ?_, by rwa [Nat.add_sub_cancel' hleast]⟩
    have := hmost k hk
    omega

/-- The column of an expression tells from which places a match leads to a place that the column after it tells
of. -/
theorem tells_column {s : List Char} (r : Regex) {column : Column} (h : Column.Tells P [] s column) :
    Column.Tells (r.Takes.LeadsTo P) [] s (r.column s column) := by
  induction r generalizing P column with
  | empty => rwa [Takes, Match.leadsTo_nothing]
  | one set =>
    refine h.one.congr fun before after _ => ?_
    constructor
    · rintro ⟨c, rest, rfl, hc, hP⟩
      exact ⟨[c], rest, rfl, ⟨c, rfl, hc⟩, hP⟩
    · rintro ⟨_, rest, rfl, ⟨c, rfl, hc⟩, hP⟩
      exact ⟨c, rest, rfl, hc, hP⟩
  | assertion a =>
    refine ((Column.tells_between [] s).both h).congr fun before after _ => ?_
    constructor
    · exact fun ⟨ha, hP⟩ => ⟨[], after, rfl, ⟨rfl, ha⟩, by rwa [List.append_nil]⟩
    · rintro ⟨_, rest, rfl, ⟨rfl, ha⟩, hP⟩
      exact ⟨ha, by rwa [List.append_nil] at hP⟩
  | group body ih => exact ih h
  | seq a b iha ihb =>
    rw [Takes, Match.leadsTo_next]
    exact iha (ihb h)
  | alt a b iha ihb =>
    exact ((iha h).either (ihb h)).congr fun _ _ _ => Match.leadsTo_or.symm
  | repeated least most body ih =>
    refine tells_repeated ih ?_
    cases most with
    | some most => exact (tells_loop ih h _).congr fun _ _ _ => by simp
    | none =>
      cases body with
      | one set => exact (tells_run h).congr fun _ _ _ => by simp
      | _ => exact (tells_endless_loop ih h).congr fun _ _ _ => by simp

lemma takes_sequence_cons (r : Regex) (rs : List Regex) :
    (sequence (r :: rs)).Takes = Match.next r.Takes (sequence rs).Takes := by
  rw [sequence.eq_def]
  dsimp only
  split
  · exact Match.nothing_next.symm
  · rename_i hrest
    rw [hrest]
    exact Match.next_nothing.symm
  · rfl

/-- An expression is found in a text if it matches some part of it. -/
theorem accepts_iff {r : Regex} {s : List Char} :
    r.accepts s ↔ ∃ before part after, s = before ++ (part ++ after) ∧ r.Takes before part after := by
  rw [accepts, (tells_column r (Column.tells_true [] s)).any]
  constructor
  · rintro ⟨before, _, rfl, part, after, rfl, hr, -⟩
    exact ⟨before, part, after, rfl, hr⟩
  · rintro ⟨before, part, after, rfl, hr⟩
    exact ⟨before, _, rfl, part, after, rfl, hr, trivial⟩

end Regex
end Tabulation.Pattern
