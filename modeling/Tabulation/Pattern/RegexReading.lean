import Tabulation.Decimal.Reading
import Tabulation.Pattern.AutomatonSize
import Tabulation.Pattern.ClassReading
import Tabulation.Text.Letter

/-! Reading regular expressions. -/
namespace Tabulation.Pattern

inductive GroupKind where
  /-- It only holds its contents together. -/
  | plain
  /-- Its place in a match can be asked for by its number. -/
  | counted
  /-- Its place can be asked for by its name as well. -/
  | named (name : List Char)

/-- An expression that has been read, with the number of levels that stand in one another in it and
the names of its groups. -/
structure Part where
  regex : Regex
  depth : Nat := 0
  names : List (List Char) := []

namespace Part

/-- What stands one level above its contents. -/
def above (contents : List Part) (regex : Regex) : Part :=
  ⟨regex, 1 + (contents.map depth).foldl max 0, contents.flatMap names⟩

/-- Parts one after the other. A single part is no level of its own. -/
def sequence : List Part → Part
  | [] => ⟨.empty, 0, []⟩
  | [p] => p
  | ps => above ps (.sequence (ps.map regex))

/-- One of several parts. A single part is no level of its own. -/
def either : List Part → Part
  | [p] => p
  | ps => above ps (.either (ps.map regex))

/-- A group around its contents. -/
def enclosed (kind : GroupKind) (body : Part) : Part :=
  match kind with
  | .plain => above [body] body.regex
  | .counted => above [body] (.group body.regex)
  | .named name => above [⟨body.regex, body.depth, name :: body.names⟩] (.group body.regex)

def times (body : Part) (least : Nat) (most : Option Nat) : Part :=
  above [body] (body.regex.times least most)

/-- The largest number of levels in one another. -/
def maxDepth : Nat := 250

/-- Whether no limit is exceeded and no two groups share a name. -/
def isAllowed (p : Part) : Bool := p.depth ≤ maxDepth ∧ p.names.Nodup ∧ p.regex.fits

end Part

/-- How often an expression is to be repeated. -/
structure Bounds where
  least : Nat
  most : Option Nat

namespace Bounds

/-- Takes decimal digits, with what says nothing passed over after each. -/
def takeDigits (flags : Flags) : List Char → List Char × List Char
  | c :: s =>
    if c.isDigit then
      let (digits, rest) := takeDigits flags (flags.skip s)
      (c :: digits, rest)
    else ([], c :: s)
  | [] => ([], [])
termination_by s => s.length
decreasing_by exact Nat.lt_succ_of_le (flags.length_skip_le s)

/-- A number in braces, with white space around it. -/
def readCount (flags : Flags) (s : List Char) : Option (Nat × List Char) :=
  let (digits, rest) := takeDigits flags (s.dropWhile Text.isBlank)
  let n := Decimal.natOfDigits digits
  if digits ≠ [] ∧ n < UInt32.size then some (n, flags.skip (rest.dropWhile Text.isBlank)) else none

/-- The bounds of a repetition after its opening brace, up to the closing one. -/
def read (flags : Flags) (s : List Char) : Option (Bounds × List Char) := do
  let (least, s) ← readCount flags (flags.skip s)
  match s with
  | '\x7d' :: s => some (⟨least, some least⟩, s)
  | ',' :: s =>
    match flags.skip s with
    | '\x7d' :: s => some (⟨least, none⟩, s)
    | s =>
      match ← readCount flags s with
      | (most, '\x7d' :: s) => if least ≤ most then some (⟨least, some most⟩, s) else none
      | _ => none
  | _ => none

/-- What a repetition that is a single sign stands for. -/
def ofSign? : Char → Option Bounds
  | '*' => some ⟨0, none⟩
  | '+' => some ⟨1, none⟩
  | '?' => some ⟨0, some 1⟩
  | _ => none

end Bounds

/-- What an opening parenthesis begins: a group, or a change of flags for the rest of the group
around it. -/
inductive Opening where
  | group (kind : GroupKind) (flags : Flags)
  | change (flags : Flags)

namespace Opening

/-- Letters of flags up to a colon or a closing parenthesis; a hyphen comes before those to be
switched off. No letter occurs twice, and some letter comes after the hyphen. -/
def readFlags (flags : Flags) (on : Bool) (seen : List Char) :
    List Char → Option (Opening × List Char)
  | ')' :: s => if seen = [] ∨ seen.head? = some '-' then none else some (.change flags, s)
  | ':' :: s => if seen.head? = some '-' then none else some (.group .plain flags, s)
  | c :: s =>
    if c ∈ seen then none
    else if c = '-' then readFlags flags false (c :: seen) s
    else
      match flags.switch? c on with
      | some flags => readFlags flags on (c :: seen) s
      | none => none
  | [] => none

/-- The name of a group up to the bracket that closes it. -/
def readName (s : List Char) : Option (List Char × List Char) :=
  match s.takeWhile (· ≠ '>'), s.dropWhile (· ≠ '>') with
  | c :: cs, _ :: rest =>
    if (c = '_' ∨ Text.isLetter c) ∧ cs.all isNameCharacter then some (c :: cs, rest) else none
  | _, _ => none
where
  isNameCharacter (c : Char) : Bool :=
    c ∈ ['_', '.', '[', ']'] ∨ Text.isLetter c ∨ Text.isNumeral c

/-- What comes after an opening parenthesis, up to the contents of the group. There are no
conditions on what stands before or after a place. -/
def read (flags : Flags) (s : List Char) : Option (Opening × List Char) :=
  match flags.skip s with
  | '?' :: '<' :: '=' :: _ | '?' :: '<' :: '!' :: _ => none
  | '?' :: '<' :: s | '?' :: 'P' :: '<' :: s =>
    (readName s).map fun (name, s) => (.group (.named name) flags, s)
  | '?' :: s => readFlags flags true [] s
  | s => some (.group .counted flags, s)

end Opening

/-- The part of a group that has been read: its finished alternatives and the parts of the open one,
last first each, and whether the last one can be repeated. -/
structure Contents where
  finished : List Part := []
  parts : List Part := []
  repeatable : Bool := false

namespace Contents

def push (g : Contents) (p : Part) : Contents :=
  { g with parts := p :: g.parts, repeatable := true }

/-- A change of flags counts as a part, but cannot be repeated. -/
def pushChange (g : Contents) : Contents := { g.push ⟨.empty, 0, []⟩ with repeatable := false }

def nextAlternative (g : Contents) : Contents :=
  ⟨.sequence g.parts.reverse :: g.finished, [], false⟩

/-- The whole group. -/
def part (g : Contents) : Part := .either g.nextAlternative.finished.reverse

def repeatLast (g : Contents) (b : Bounds) : Option Contents :=
  match g.repeatable, g.parts with
  | true, p :: ps => some { g with parts := p.times b.least b.most :: ps }
  | _, _ => none

end Contents

/-- A question mark after a repetition says which match is preferred, and finds the same texts. -/
def dropPreference : List Char → List Char
  | '?' :: s => s
  | s => s

/-- A single character, class or assertion. -/
def readSingle (flags : Flags) : List Char → Option (Part × List Char)
  | '[' :: s => (flags.readClass s).map fun (item, s) => (⟨.one item.set, item.depth, []⟩, s)
  | '\\' :: s => do
    let (escape, s) ← Escape.read flags s
    match escape with
    | .set set => some (⟨.one set, 0, []⟩, s)
    | .assertion a => some (⟨.assertion a, 0, []⟩, s)
    | e => (e.char? flags).map fun c => (⟨.one (flags.literal c), 0, []⟩, s)
  | '.' :: s => flags.dot?.map fun set => (⟨.one set, 0, []⟩, s)
  | '^' :: s => some (⟨.assertion flags.lineStart, 0, []⟩, s)
  | '$' :: s => some (⟨.assertion flags.lineEnd, 0, []⟩, s)
  | c :: s => some (⟨.one (flags.literal c), 0, []⟩, s)
  | [] => none

/-- A repetition with the question mark that may follow it. -/
def readBounds (flags : Flags) : List Char → Option (Bounds × List Char)
  | '\x7b' :: s => (Bounds.read flags s).map fun (b, s) => (b, dropPreference (flags.skip s))
  | c :: s => (Bounds.ofSign? c).map (·, dropPreference s)
  | [] => none

/-- Reads up to the end of the group, or of the text if there is no group around; `level` groups
stand around the contents. -/
def readContents : (fuel level : Nat) → Flags → Contents → List Char → Option (Part × List Char)
  | 0, _, _, _, _ => none
  | fuel + 1, level, flags, g, s =>
    match flags.skip s with
    | [] => if level = 0 then some (g.part, []) else none
    | ')' :: s => if level = 0 then none else some (g.part, s)
    | '|' :: s => readContents fuel level flags g.nextAlternative s
    | '(' :: s =>
      match Opening.read flags s with
      | none => none
      | some (.change flags, s) => readContents fuel level flags g.pushChange s
      | some (.group kind inner, s) =>
        if Part.maxDepth ≤ level then none
        else
          match readContents fuel (level + 1) inner {} s with
          | some (p, s) => readContents fuel level flags (g.push (p.enclosed kind)) s
          | none => none
    | c :: s =>
      if c ∈ ['*', '+', '?', '\x7b'] then
        match readBounds flags (c :: s) with
        | none => none
        | some (b, s) =>
          match g.repeatLast b with
          | some g => readContents fuel level flags g s
          | none => none
      else
        match readSingle flags (c :: s) with
        | some (p, s) => readContents fuel level flags (g.push p) s
        | none => none

/-- The expression that a pattern writes; there is none for a malformed or an oversized pattern. -/
def Regex.ofText (pattern : String) : Option Regex :=
  let s := pattern.toList
  match readContents (s.length + 1) 0 {} {} s with
  | some (p, _) => if p.isAllowed then some p.regex else none
  | none => none

end Tabulation.Pattern
