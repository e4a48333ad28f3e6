import Mathlib.Tactic.Lemma
import Tabulation.Pattern.Like
import Tabulation.Pattern.RegexReading

/-! How the expression that a wildcard pattern is translated into is read. Each character of the pattern becomes one
part of the expression, whatever it would say without its backslash, and nothing else stands between the ends. -/
namespace Tabulation.Pattern
namespace Wildcard

/-- The characters within a line. -/
def inLine : CharSet := (CharSet.range '\n' '\n').complement

/-- The part that a character of a pattern is read as. -/
def part : Char → Part
  | '%' => Part.times ⟨.one inLine, 0, []⟩ 0 none
  | '_' => ⟨.one inLine, 0, []⟩
  | c => ⟨.one (.range c c), 0, []⟩

/-- An anchor. -/
def anchor (a : Assertion) : Part := ⟨.assertion a, 0, []⟩

/-- All parts of the expression for a pattern. -/
def parts (pattern : List Char) : List Part := anchor .textStart :: (pattern.map part ++ [anchor .textEnd])

/-- The expression for a pattern. -/
def whole (pattern : List Char) : Regex := .sequence ((parts pattern).map (·.regex))

variable {c : Char} {s rest : List Char} {p : Part} {g : Contents} {fuel : Nat}

/-- A backslash makes every character that says something stand for itself. -/
lemma escapeRead_meta (hc : c ∈ metaCharacters) : Escape.read {} (c :: s) = some (.literal c, s) := by
  simp only [metaCharacters, List.mem_cons, List.not_mem_nil, or_false] at hc
  rcases hc with rfl | rfl | rfl | rfl | rfl | rfl | rfl | rfl | rfl | rfl | rfl | rfl | rfl | rfl | rfl | rfl | rfl |
    rfl <;> rfl

lemma readSingle_of_not_meta (hc : c ∉ metaCharacters) :
    readSingle {} (c :: s) = some (⟨.one (.range c c), 0, []⟩, s) := by
  unfold readSingle
  split <;> simp_all [metaCharacters, Flags.literal, Flags.fold]

lemma readContents_single (hc : c ∉ [')', '|', '(', '*', '+', '?', '\x7b'])
    (h : readSingle {} (c :: s) = some (p, rest)) :
    readContents (fuel + 1) 0 {} g (c :: s) = readContents fuel 0 {} (g.push p) rest := by
  have hskip : Flags.skip {} (c :: s) = c :: s := rfl
  rw [readContents, hskip]
  split <;> simp_all

lemma readContents_quoted (c : Char) :
    readContents (fuel + 1) 0 {} g (quoted c ++ s) = readContents fuel 0 {} (g.push ⟨.one (.range c c), 0, []⟩) s := by
  unfold quoted
  split
  · rename_i hc
    have hread : readSingle {} ('\\' :: c :: s) = some (⟨.one (.range c c), 0, []⟩, s) := by
      simp [readSingle, escapeRead_meta hc, Escape.char?, Flags.literal, Flags.fold]
    exact readContents_single (by simp) hread
  · rename_i hc
    have hmeta : [')', '|', '(', '*', '+', '?', '\x7b'] ⊆ metaCharacters := by decide
    exact readContents_single (fun hmem => hc (hmeta hmem)) (readSingle_of_not_meta hc)

lemma readContents_dot : readContents (fuel + 1) 0 {} g ('.' :: s) =
    readContents fuel 0 {} (g.push ⟨.one inLine, 0, []⟩) s :=
  readContents_single (by simp) rfl

/-- A star repeats the last part, and a question mark after it would only prefer the shorter match. -/
lemma readContents_star (hs : s.head? ≠ some '?') : readContents (fuel + 1) 0 {} (g.push p) ('*' :: s) =
    readContents fuel 0 {} (g.push (p.times 0 none)) s := by
  have hpreference : dropPreference s = s := by
    unfold dropPreference
    split
    · simp at hs
    · rfl
  have hskip : Flags.skip {} ('*' :: s) = '*' :: s := rfl
  rw [readContents, hskip]
  simp [readBounds, Bounds.ofSign?, hpreference, Contents.repeatLast, Contents.push]

/-- Apart from the wildcards, a character stands for itself. -/
lemma translated_of_ne (hrun : c ≠ '%') (hone : c ≠ '_') :
    translated c = quoted c ∧ part c = ⟨.one (.range c c), 0, []⟩ := by
  unfold translated part
  split <;> simp_all

lemma length_quoted_pos (c : Char) : 0 < (quoted c).length := by
  unfold quoted
  split <;> simp

/-- Each character of a pattern is read as its part, with fuel for the rest left over. -/
lemma readContents_translated (hs : s.head? ≠ some '?') (hfuel : (translated c ++ s).length < fuel) :
    ∃ left, s.length < left ∧
      readContents fuel 0 {} g (translated c ++ s) = readContents left 0 {} (g.push (part c)) s := by
  rw [List.length_append] at hfuel
  by_cases hrun : c = '%'
  · subst hrun
    have hlength : (translated '%').length = 2 := rfl
    obtain ⟨left, rfl⟩ : ∃ left, fuel = left + 2 := ⟨fuel - 2, by omega⟩
    exact ⟨left, by omega, readContents_dot.trans (readContents_star hs)⟩
  by_cases hone : c = '_'
  · subst hone
    have hlength : (translated '_').length = 1 := rfl
    obtain ⟨left, rfl⟩ : ∃ left, fuel = left + 1 := ⟨fuel - 1, by omega⟩
    exact ⟨left, by omega, readContents_dot⟩
  obtain ⟨htranslated, hpart⟩ := translated_of_ne hrun hone
  rw [htranslated] at hfuel ⊢
  have hlength := length_quoted_pos c
  obtain ⟨left, rfl⟩ : ∃ left, fuel = left + 1 := ⟨fuel - 1, by omega⟩
  exact ⟨left, by omega, hpart ▸ readContents_quoted c⟩

lemma head_rest_ne (pattern : List Char) : (pattern.flatMap translated ++ ['$']).head? ≠ some '?' := by
  cases pattern with
  | nil => simp
  | cons c pattern =>
    rw [List.flatMap_cons, List.append_assoc]
    unfold translated quoted
    split
    · simp
    · simp
    · split <;> simp_all [metaCharacters]

/-- The contents with further parts. -/
lemma readContents_rest (pattern : List Char) (g : Contents)
    (hfuel : (pattern.flatMap translated ++ ['$']).length < fuel) :
    readContents fuel 0 {} g (pattern.flatMap translated ++ ['$']) =
      some (((pattern.map part ++ [anchor .textEnd]).foldl Contents.push g).part, []) := by
  induction pattern generalizing g fuel with
  | nil =>
    obtain ⟨left, rfl⟩ : ∃ left, fuel = left + 2 := ⟨fuel - 2, by simp at hfuel; omega⟩
    exact readContents_single (c := '$') (by simp) rfl
  | cons c pattern ih =>
    rw [List.flatMap_cons, List.append_assoc] at hfuel ⊢
    obtain ⟨left, hleft, hread⟩ := readContents_translated (g := g) (head_rest_ne pattern) hfuel
    rw [hread, ih _ hleft]
    rfl

lemma foldl_push (ps : List Part) (g : Contents) :
    ps.foldl Contents.push g = ⟨g.finished, ps.reverse ++ g.parts, g.repeatable || !ps.isEmpty⟩ := by
  induction ps generalizing g with
  | nil => simp
  | cons p ps ih => simp [ih, Contents.push]

lemma sequence_parts (pattern : List Char) :
    Part.sequence (parts pattern) = .above (parts pattern) (whole pattern) := by
  cases pattern <;> rfl

lemma mem_parts {pattern : List Char} (hp : p ∈ parts pattern) : p.depth ≤ 1 ∧ p.names = [] := by
  have hpart (c : Char) : (part c).depth ≤ 1 ∧ (part c).names = [] := by
    unfold part
    split
    · exact ⟨Nat.le_refl 1, rfl⟩
    · exact ⟨Nat.zero_le _, rfl⟩
    · exact ⟨Nat.zero_le _, rfl⟩
  simp only [parts, List.mem_cons, List.mem_append, List.mem_map, List.not_mem_nil, or_false] at hp
  rcases hp with rfl | ⟨c, -, rfl⟩ | rfl
  · exact ⟨Nat.zero_le _, rfl⟩
  · exact hpart c
  · exact ⟨Nat.zero_le _, rfl⟩

lemma foldl_max_le {k : Nat} {depths : List Nat} (h : ∀ n ∈ depths, n ≤ k) : depths.foldl max 0 ≤ k := by
  have hfrom (start : Nat) (hstart : start ≤ k) : depths.foldl max start ≤ k := by
    induction depths generalizing start with
    | nil => exact hstart
    | cons n depths ih =>
      obtain ⟨hn, hdepths⟩ := List.forall_mem_cons.1 h
      exact ih hdepths _ (Nat.max_le.2 ⟨hstart, hn⟩)
  exact hfrom 0 (Nat.zero_le _)

/-- Only the size of a pattern can be a reason to refuse it: its parts stand two levels in one another at most, and
have no names. -/
lemma isAllowed_sequence (pattern : List Char) : (Part.sequence (parts pattern)).isAllowed = (whole pattern).fits := by
  have hdepth : (Part.above (parts pattern) (whole pattern)).depth ≤ Part.maxDepth := by
    have hparts : ((parts pattern).map Part.depth).foldl max 0 ≤ 1 := foldl_max_le <| by
      rw [List.forall_mem_map]
      exact fun p hp => (mem_parts hp).1
    simp only [Part.above, Part.maxDepth]
    omega
  have hnames : (Part.above (parts pattern) (whole pattern)).names = [] :=
    List.flatMap_eq_nil_iff.2 fun p hp => (mem_parts hp).2
  simp only [sequence_parts, Part.isAllowed, hnames, hdepth, List.nodup_nil, true_and]
  exact Bool.decide_eq_true

lemma read_expression (pattern : List Char) {rest : List Char} (hrest : rest = pattern.flatMap translated ++ ['$']) :
    readContents (('^' :: rest).length + 1) 0 {} {} ('^' :: rest) = some (Part.sequence (parts pattern), []) := by
  have hstart : readContents (('^' :: rest).length + 1) 0 {} {} ('^' :: rest) =
      readContents (rest.length + 1) 0 {} (Contents.push {} (anchor .textStart)) rest :=
    readContents_single (by simp) rfl
  rw [hstart, hrest, readContents_rest _ _ (Nat.lt_succ_self _), foldl_push]
  simp [Contents.part, Contents.nextAlternative, Part.either, Contents.push, parts]

/-- The expression that a pattern is translated into is read as the parts of the pattern between the anchors, unless
they are too large together. -/
theorem ofText_expression (pattern : String) : Regex.ofText (expression pattern) =
    if (whole pattern.toList).fits then some (whole pattern.toList) else none := by
  have hregex : (Part.sequence (parts pattern.toList)).regex = whole pattern.toList := by rw [sequence_parts]; rfl
  rw [Regex.ofText, expression, String.toList_ofList, List.cons_append]
  simp only [read_expression pattern.toList rfl, isAllowed_sequence, hregex]

end Wildcard
end Tabulation.Pattern
