import Tabulation.Json.Parser
import Tabulation.Pattern.Flags

/-! Reading escapes and bracketed classes of regular expressions. -/
namespace Tabulation.Pattern

/-- What a backslash and the characters after it stand for. -/
inductive Escape where
  | literal (c : Char)
  /-- A character by exactly two hexadecimal digits. -/
  | byte (c : Char)
  | set (s : CharSet)
  | assertion (a : Assertion)

namespace Escape

/-- The character with the code point that the digits name. -/
def codePoint? (digits : List Char) : Option Char := do
  let values ← digits.mapM Json.hexValue
  let n := values.foldl (fun n v => 16 * n + v) 0
  if digits ≠ [] ∧ n.isValidChar then some (Char.ofNat n) else none

/-- Takes digits, with what says nothing passed over after each. -/
def takeDigits (flags : Flags) : (width : Nat) → List Char → Option (List Char × List Char)
  | 0, s => some ([], s)
  | width + 1, c :: s => (takeDigits flags width (flags.skip s)).map fun r => (c :: r.1, r.2)
  | _ + 1, [] => none

/-- Takes digits up to the closing brace, with what says nothing passed over after each. -/
def takeBraced (flags : Flags) : List Char → Option (List Char × List Char)
  | '\x7d' :: s => some ([], flags.skip s)
  | c :: s => (takeBraced flags (flags.skip s)).map fun r => (c :: r.1, r.2)
  | [] => none
termination_by s => s.length
decreasing_by exact Nat.lt_succ_of_le (flags.length_skip_le s)

/-- A code point in a fixed number of hexadecimal digits, or in braces. -/
def readCodePoint (flags : Flags) (width : Nat) (s : List Char) : Option (Escape × List Char) :=
  match flags.skip s with
  | '\x7b' :: s => do
    let (digits, rest) ← takeBraced flags (flags.skip s)
    return (.literal (← codePoint? digits), rest)
  | s => do
    let (digits, rest) ← takeDigits flags width s
    let c ← codePoint? digits
    return (if width = 2 then .byte c else .literal c, rest)

/-- The place that a name in braces after a word boundary stands for. -/
def placeOfName : List Char → Option WordPlace
  | ['s', 't', 'a', 'r', 't'] => some .start
  | ['e', 'n', 'd'] => some .finish
  | ['s', 't', 'a', 'r', 't', '-', 'h', 'a', 'l', 'f'] => some .startHalf
  | ['e', 'n', 'd', '-', 'h', 'a', 'l', 'f'] => some .finishHalf
  | _ => none

/-- A word boundary. What is in braces after it is the name of a place, unless it begins like the
number of a repetition. -/
def readBoundary (flags : Flags) (s : List Char) : Option (Escape × List Char) :=
  let word (place : WordPlace) : Escape := .assertion (.word flags.word place)
  let plain := some (word .boundary, s)
  match s with
  | '\x7b' :: t =>
    match flags.skip t with
    | [] => none
    | c :: t =>
      if c.isAlpha ∨ c = '-' then do
        let (name, rest) ← takeBraced flags (c :: t)
        return (word (← placeOfName name), rest)
      else plain
  | _ => plain

def isMeta (c : Char) : Bool :=
  c.toNat < 128 ∧ ¬ c.isAlphanum ∧ c ≠ '<' ∧ c ≠ '>'

/-- What comes after a backslash. -/
def read (flags : Flags) : List Char → Option (Escape × List Char)
  | 'd' :: s => some (.set flags.digit, s)
  | 'D' :: s => (flags.complementIf? true flags.digit).map (.set ·, s)
  | 'w' :: s => some (.set flags.word, s)
  | 'W' :: s => (flags.complementIf? true flags.word).map (.set ·, s)
  | 's' :: s => some (.set flags.blank, s)
  | 'S' :: s => (flags.complementIf? true flags.blank).map (.set ·, s)
  | 'b' :: s => readBoundary flags s
  | 'B' :: s => some (.assertion (.word flags.word .noBoundary), s)
  | '<' :: s => some (.assertion (.word flags.word .start), s)
  | '>' :: s => some (.assertion (.word flags.word .finish), s)
  | 'A' :: s => some (.assertion .textStart, s)
  | 'z' :: s => some (.assertion .textEnd, s)
  | 'a' :: s => some (.literal '\x07', s)
  | 'f' :: s => some (.literal '\x0c', s)
  | 'n' :: s => some (.literal '\n', s)
  | 'r' :: s => some (.literal '\r', s)
  | 't' :: s => some (.literal '\t', s)
  | 'v' :: s => some (.literal '\x0b', s)
  | 'x' :: s => readCodePoint flags 2 s
  | 'u' :: s => readCodePoint flags 4 s
  | 'U' :: s => readCodePoint flags 8 s
  | c :: s => if isMeta c then some (.literal c, s) else none
  | [] => none

/-- The character, if it is one on its own. -/
def char? (flags : Flags) : Escape → Option Char
  | .literal c => some c
  | .byte c => if flags.unicode ∨ c.toNat < 128 then some c else none
  | .set _ | .assertion _ => none

end Escape

/-- A set with the number of brackets and operators that stand in one another in it. -/
structure ClassItem where
  set : CharSet
  depth : Nat := 0

/-- Items side by side. More than one of them count as a level of their own. -/
def ClassItem.union : List ClassItem → ClassItem
  | [] => ⟨{}, 0⟩
  | [item] => item
  | items => ⟨.union (items.map set), 1 + (items.map depth).foldl max 0⟩

/-- An operation on the sets at its sides. -/
def ClassItem.operate (operation : CharSet → CharSet → CharSet) (a b : ClassItem) : ClassItem :=
  ⟨operation a.set b.set, 1 + max a.depth b.depth⟩

/-- The part of a class that has been read: how what follows combines with what stands before the
last operator, and the items since, last first. -/
structure ClassPart where
  combine : ClassItem → ClassItem := id
  items : List ClassItem := []

namespace ClassPart

def push (p : ClassPart) (item : ClassItem) : ClassPart := { p with items := item :: p.items }

def item (p : ClassPart) : ClassItem := p.combine (.union p.items.reverse)

/-- Goes on to the right side of an operation. -/
def operate (p : ClassPart) (operation : CharSet → CharSet → CharSet) : ClassPart :=
  ⟨.operate operation p.item, []⟩

end ClassPart

namespace Flags

/-- A whole class from what stands between its brackets. -/
def bracketed? (flags : Flags) (negated : Bool) (item : ClassItem) : Option ClassItem :=
  (flags.complementIf? negated item.set).map fun set => ⟨set, 1 + item.depth⟩

/-- Takes a caret in front. -/
def takeCaret : List Char → Bool × List Char
  | '^' :: s => (true, s)
  | s => (false, s)

/-- A set by its name between colons, after the opening bracket. There is none if the name is
unknown; the second one is whether the set may be used. -/
def readNamedSet (flags : Flags) : List Char → Option (Option CharSet × List Char)
  | ':' :: s =>
    let (negated, s) := takeCaret s
    match s.dropWhile (· ≠ ':') with
    | ':' :: ']' :: rest =>
      (CharSet.named.lookup (String.ofList (s.takeWhile (· ≠ ':')))).map fun set =>
        (flags.complementIf? negated (flags.fold set), rest)
    | _ => none
  | _ => none

/-- Takes hyphens in front, with what says nothing passed over after each. -/
def takeHyphens (flags : Flags) : List Char → Nat × List Char
  | '-' :: s =>
    let (n, rest) := takeHyphens flags (flags.skip s)
    (n + 1, rest)
  | s => (0, s)
termination_by s => s.length
decreasing_by exact Nat.lt_succ_of_le (flags.length_skip_le s)

/-- What comes right after an opening bracket. A caret takes the complement; hyphens in front stand
for themselves, and so does a closing bracket that comes first. -/
def readClassStart (flags : Flags) (s : List Char) : Bool × ClassPart × List Char :=
  let (negated, s) := takeCaret (flags.skip s)
  let (hyphens, s) := flags.takeHyphens (flags.skip s)
  match hyphens, s with
  | 0, ']' :: s => (negated, ⟨id, [⟨flags.literal ']', 0⟩]⟩, flags.skip s)
  | n, s => (negated, ⟨id, List.replicate n ⟨flags.literal '-', 0⟩⟩, s)

/-- One element of a class: a character by itself, or an escape. -/
def readElement (flags : Flags) : List Char → Option (Escape × List Char)
  | '\\' :: s => Escape.read flags s
  | c :: s => some (.literal c, s)
  | [] => none

/-- The set of an element that is no part of a range. -/
def alone? (flags : Flags) (e : Escape) : Option CharSet :=
  match e with
  | .set s => some s
  | e => (e.char? flags).bind fun c => flags.range? c c

/-- An element or a range. A hyphen between two characters makes a range, but not one before the
closing bracket or before another hyphen. -/
def readItem (flags : Flags) (s : List Char) : Option (CharSet × List Char) := do
  let (first, rest) ← flags.readElement s
  let single := (flags.alone? first).map (·, rest)
  match flags.skip rest with
  | '-' :: s =>
    match flags.skip s with
    | ']' :: _ | '-' :: _ => single
    | s =>
      let (last, rest) ← flags.readElement s
      let first ← first.char? flags
      let last ← last.char? flags
      if first ≤ last then (flags.range? first last).map (·, rest) else none
  | _ => single

/-- The elements of a class up to its closing bracket. A doubled sign combines what stands on its
sides. -/
def readElements (flags : Flags) : (fuel : Nat) → ClassPart → List Char →
    Option (ClassItem × List Char)
  | 0, _, _ => none
  | fuel + 1, part, s =>
    match flags.skip s with
    | ']' :: s => some (part.item, s)
    | '[' :: s =>
      match flags.readNamedSet s with
      | some (set, s) =>
        match set with
        | some set => readElements flags fuel (part.push ⟨set, 0⟩) s
        | none => none
      | none =>
        let (negated, inner, s) := flags.readClassStart s
        match readElements flags fuel inner s with
        | some (item, s) =>
          match flags.bracketed? negated item with
          | some item => readElements flags fuel (part.push item) s
          | none => none
        | none => none
    | '&' :: '&' :: s => readElements flags fuel (part.operate .intersection) s
    | '-' :: '-' :: s => readElements flags fuel (part.operate .difference) s
    | '~' :: '~' :: s => readElements flags fuel (part.operate .symmetricDifference) s
    | s =>
      match flags.readItem s with
      | some (set, s) => readElements flags fuel (part.push ⟨set, 0⟩) s
      | none => none

/-- A class after its opening bracket. -/
def readClass (flags : Flags) (s : List Char) : Option (ClassItem × List Char) := do
  let (negated, part, s) := flags.readClassStart s
  let (item, rest) ← flags.readElements (s.length + 1) part s
  return (← flags.bracketed? negated item, rest)

end Flags

end Tabulation.Pattern
