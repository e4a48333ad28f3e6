import Mathlib.Data.List.Forall2
import Mathlib.Data.List.Infix
import Mathlib.Tactic.Lemma
import Tabulation.Evaluation.Condition
import Tabulation.Proofs.Outcome
import Tabulation.Proofs.Pattern.AutomatonSize
import Tabulation.Proofs.Pattern.Matching

/-! Wildcard patterns and the ways to split a text along them. The expression for a pattern is found in the texts that
can be split so that no wildcard takes a line feed. -/
namespace Tabulation
namespace Pattern

/-- What a character of a pattern stands for: `%` for any text, `_` for one character, and every other
character for itself. -/
def StandsFor (c : Char) (part : List Char) : Prop :=
  if c = '%' then True else if c = '_' then part.length = 1 else part = [c]

/-- The same, but a wildcard stands for no line feed. -/
def StandsInLineFor (c : Char) (part : List Char) : Prop :=
  StandsFor c part ∧ (c = '%' ∨ c = '_' → '\n' ∉ part)

/-- A text is cut into parts for which the characters of a pattern stand, one after the other. -/
def SplitsBy (stands : Char → List Char → Prop) (pattern text : String) : Prop :=
  ∃ parts, List.Forall₂ stands pattern.toList parts ∧ parts.flatten = text.toList

lemma SplitsBy.of_inLine {pattern text : String} (h : SplitsBy StandsInLineFor pattern text) :
    SplitsBy StandsFor pattern text := by
  obtain ⟨parts, hparts, hflat⟩ := h
  exact ⟨parts, hparts.imp fun _ _ hc => hc.1, hflat⟩

/-- Where a text has no line feed, none is taken by a wildcard. -/
lemma SplitsBy.inLine {pattern text : String} (h : SplitsBy StandsFor pattern text)
    (htext : '\n' ∉ text.toList) : SplitsBy StandsInLineFor pattern text := by
  obtain ⟨parts, hparts, hflat⟩ := h
  have hfree : ∀ part ∈ parts, '\n' ∉ part := fun part hpart hmem =>
    htext (hflat ▸ List.mem_flatten_of_mem hpart hmem)
  refine ⟨parts, ?_, hflat⟩
  clear hflat
  generalize pattern.toList = cs at hparts ⊢
  induction hparts with
  | nil => exact .nil
  | cons hc _ ih =>
    obtain ⟨hpart, hparts⟩ := List.forall_mem_cons.1 hfree
    exact .cons ⟨hc, fun _ => hpart⟩ (ih hparts)

namespace Wildcard
open Regex (Match)

variable {c d : Char} {before cut after : List Char}

lemma contains_inLine : inLine.contains c ↔ c ≠ '\n' := by
  have hranges : inLine.ranges = [(0, 9), (11, 0x10FFFF)] := by decide
  have hlast : c.toNat ≤ 0x10FFFF := by
    rcases c.valid with hc | hc
    · exact hc.le.trans (by decide)
    · exact Nat.le_of_lt_succ hc.2
  have hfeed : c = '\n' ↔ c.toNat = 10 := Char.toNat_inj.symm
  simp only [CharSet.contains, CharSet.containsCode, hranges, List.any_cons, List.any_nil, Bool.or_eq_true,
    decide_eq_true_eq, ne_eq, hfeed, Bool.false_eq_true, or_false]
  omega

lemma contains_range_self : (CharSet.range c c).contains d ↔ d = c := by
  simp only [CharSet.contains, CharSet.containsCode, CharSet.range, List.any_cons, List.any_nil, Bool.or_false,
    decide_eq_true_eq, ← Char.toNat_inj]
  omega

/-- A part of the expression takes what its character stands for within a line. -/
lemma takes_part : (part c).regex.Takes before cut after ↔ StandsInLineFor c cut := by
  unfold part StandsInLineFor StandsFor
  split
  · have hrun : (Part.times ⟨.one inLine, 0, []⟩ 0 none).regex.Takes before cut after ↔ ∀ c ∈ cut, c ≠ '\n' := by
      simp only [← contains_inLine]
      rw [← Match.exists_times_one before after]
      exact exists_congr fun n => by simp
    rw [hrun]
    simp only [if_true, true_and, true_or, true_imp_iff]
    exact ⟨fun h hmem => h _ hmem rfl, fun h c hc heq => h (heq ▸ hc)⟩
  · simp only [Regex.Takes, contains_inLine, List.length_eq_one_iff, if_true, or_true, true_imp_iff]
    constructor
    · rintro ⟨d, rfl, hd⟩
      exact ⟨⟨d, rfl⟩, by simpa [eq_comm] using hd⟩
    · rintro ⟨⟨d, rfl⟩, hd⟩
      exact ⟨d, rfl, by simpa [eq_comm] using hd⟩
  · simp_all [Regex.Takes, contains_range_self]

lemma takes_rest (pattern : List Char) :
    (Regex.sequence ((pattern.map part ++ [anchor .textEnd]).map (·.regex))).Takes before cut after ↔
      after = [] ∧ ∃ cuts, List.Forall₂ StandsInLineFor pattern cuts ∧ cuts.flatten = cut := by
  induction pattern generalizing before cut with
  | nil =>
    have hend : (Regex.sequence [(anchor .textEnd).regex]).Takes before cut after ↔ cut = [] ∧ after = [] := by
      simp [Regex.sequence, anchor, Regex.Takes, Assertion.holds]
    simpa [and_comm, eq_comm] using hend
  | cons c pattern ih =>
    rw [List.map_cons, List.cons_append, List.map_cons, Regex.takes_sequence_cons]
    simp only [Match.next, takes_part, ih, List.forall₂_cons_left_iff]
    constructor
    · rintro ⟨part, _, rfl, hpart, rfl, cuts, hcuts, rfl⟩
      exact ⟨rfl, _, ⟨part, cuts, hpart, hcuts, rfl⟩, rfl⟩
    · rintro ⟨rfl, _, ⟨part, cuts, hpart, hcuts, rfl⟩, rfl⟩
      exact ⟨part, _, rfl, hpart, rfl, cuts, hcuts, rfl⟩

/-- The expression for a pattern takes whole texts, cut into what its characters stand for. -/
lemma takes_whole {pattern : List Char} : (whole pattern).Takes before cut after ↔
    before = [] ∧ after = [] ∧ ∃ cuts, List.Forall₂ StandsInLineFor pattern cuts ∧ cuts.flatten = cut := by
  rw [whole, parts, List.map_cons, Regex.takes_sequence_cons]
  simp only [Match.next, takes_rest]
  have hstart {q after : List Char} : (anchor .textStart).regex.Takes before q after ↔ q = [] ∧ before = [] := by
    simp [anchor, Regex.Takes, Assertion.holds]
  simp only [hstart]
  constructor
  · rintro ⟨_, _, rfl, ⟨rfl, rfl⟩, hrest⟩
    exact ⟨rfl, hrest⟩
  · rintro ⟨rfl, hrest⟩
    exact ⟨[], cut, rfl, ⟨rfl, rfl⟩, hrest⟩

theorem accepts_whole_iff {pattern text : String} :
    (whole pattern.toList).accepts text.toList ↔ SplitsBy StandsInLineFor pattern text := by
  rw [Regex.accepts_iff, SplitsBy]
  simp only [takes_whole]
  constructor
  · rintro ⟨_, cut, _, htext, rfl, rfl, cuts, hcuts, rfl⟩
    exact ⟨cuts, hcuts, by simpa using htext.symm⟩
  · rintro ⟨cuts, hcuts, htext⟩
    exact ⟨[], _, [], by simpa using htext.symm, rfl, rfl, cuts, hcuts, rfl⟩

end Wildcard
end Pattern

namespace Evaluation
open Json (Value)
open Pattern (SplitsBy StandsFor StandsInLineFor)
open Plan (Predicate)

variable {specials : Specials} {p : Predicate} {c : Condition} {pattern : String} {others : List Value}

/-- Preparing a pattern reads the expression that it is translated into, which is refused only for its size. -/
lemma prepare_like (specials : Specials) (hlike : p.operation = .like)
    (hvalues : p.values = .string pattern :: others) :
    Condition.prepare specials p =
      if (Pattern.Wildcard.whole pattern.toList).fits then
        .ok ⟨p.column, finds (Pattern.Wildcard.whole pattern.toList)⟩
      else .error (.likePattern pattern) := by
  simp only [Condition.prepare, hlike, hvalues, Pattern.Wildcard.ofText_expression]
  split_ifs <;> rfl

/-- Patterns of at most eight thousand characters are never refused. -/
lemma exists_prepare_like (specials : Specials) (hlike : p.operation = .like)
    (hvalues : p.values = .string pattern :: others) (hlength : pattern.length ≤ 8000) :
    ∃ c, Condition.prepare specials p = .ok c := by
  have hfits : (Pattern.Wildcard.whole pattern.toList).fits :=
    Pattern.Wildcard.fits_whole_of_length_le (by rwa [String.length_toList])
  exact ⟨_, (prepare_like specials hlike hvalues).trans (if_pos hfits)⟩

lemma holds_like_iff (hlike : p.operation = .like) (hvalues : p.values = .string pattern :: others)
    (h : Condition.prepare specials p = .ok c) (v : Option Value) :
    c.holds v ↔ ∃ text, v = some (.string text) ∧ SplitsBy StandsInLineFor pattern text := by
  have htest : c.test = finds (Pattern.Wildcard.whole pattern.toList) := by
    rw [prepare_like specials hlike hvalues] at h
    split_ifs at h
    rw [← Except.ok.inj h]
  rcases v with _ | v
  · simp [Condition.holds]
  · cases v <;> simp [Condition.holds, htest, finds, Pattern.Wildcard.accepts_whole_iff]

/-- A pattern of at most eight thousand characters can be prepared. A prepared pattern holds of the texts that can be
split along it with no line feed for a wildcard, and of no other value. Of a text without line feeds it holds if
there is any split. -/
theorem like_splits_in_lines (specials : Specials) (hlike : p.operation = .like)
    (hvalues : p.values = .string pattern :: others) :
    (pattern.length ≤ 8000 → ∃ c, Condition.prepare specials p = .ok c) ∧
    ∀ c, Condition.prepare specials p = .ok c → ∀ v,
      (c.holds v ↔ ∃ text, v = some (.string text) ∧ SplitsBy StandsInLineFor pattern text) ∧
      ∀ text, v = some (.string text) → '\n' ∉ text.toList → (c.holds v ↔ SplitsBy StandsFor pattern text) := by
  refine ⟨exists_prepare_like specials hlike hvalues, fun c h v => ?_⟩
  refine ⟨holds_like_iff hlike hvalues h v, ?_⟩
  rintro text rfl htext
  rw [holds_like_iff hlike hvalues h]
  constructor
  · rintro ⟨_, heq, hsplits⟩
    cases heq
    exact hsplits.of_inLine
  · exact fun hsplits => ⟨text, rfl, hsplits.inLine htext⟩

/-- The states of tickets that are like a pattern. -/
def stateLike (pattern : String) : Predicate where
  column := ⟨"ticket", "Ticket", "state", "TICKET_STATE", .text⟩
  operation := .like
  values := [.string pattern]

/-- A dot stands for itself, and a wildcard for several characters, for one or for none. -/
theorem like_splits_in_lines_state : ∃ c, Condition.prepare .builtin (stateLike "_.o%n%") = .ok c ∧
    '\n' ∉ "1.open".toList ∧ SplitsBy StandsFor "_.o%n%" "1.open" ∧ c.holds (some (.string "1.open")) := by
  have hlike : (stateLike "_.o%n%").operation = .like ∧ (stateLike "_.o%n%").values = [.string "_.o%n%"] := ⟨rfl, rfl⟩
  have hsplit := like_splits_in_lines .builtin hlike.1 hlike.2
  obtain ⟨c, hc⟩ := hsplit.1 (by decide)
  have hline : '\n' ∉ "1.open".toList := by decide
  have hsplits : SplitsBy StandsFor "_.o%n%" "1.open" := by
    refine ⟨[['1'], ['.'], ['o'], ['p', 'e'], ['n'], []], ?_, by decide⟩
    have hpattern : "_.o%n%".toList = ['_', '.', 'o', '%', 'n', '%'] := by decide
    rw [hpattern]
    simp [StandsFor]
  refine ⟨c, hc, hline, hsplits, ?_⟩
  exact ((hsplit.2 c hc _).2 "1.open" rfl hline).2 hsplits

/-- A text of two lines is not like the pattern that stands for any text. -/
theorem like_misses_line_feed : ∃ c, Condition.prepare .builtin (stateLike "%") = .ok c ∧
    SplitsBy StandsFor "%" "a\nb" ∧ ¬ c.holds (some (.string "a\nb")) := by
  obtain ⟨c, hc⟩ := exists_prepare_like (p := stateLike "%") .builtin rfl rfl (by decide)
  have hpattern : "%".toList = ['%'] := by decide
  refine ⟨c, hc, ⟨["a\nb".toList], ?_, by simp⟩, ?_⟩
  · rw [hpattern]
    simp [StandsFor]
  · rw [holds_like_iff rfl rfl hc]
    rintro ⟨text, heq, parts, hparts, hflat⟩
    cases heq
    rw [hpattern] at hparts
    obtain ⟨part, rfl, -, hline⟩ := Outcome.eq_singleton_of_forall₂ hparts
    refine hline (.inl rfl) ?_
    have hpart : part = "a\nb".toList := by simpa using hflat
    rw [hpart]
    decide

end Evaluation
end Tabulation
