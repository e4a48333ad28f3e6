import Std.Data.HashMap
import Tabulation.Pattern.Regex

/-! The memory of the automata that a regular expression stands for. They read the bytes of a text,
one forwards and one backwards, and an expression for which either of them grows too large is
refused. A state takes 32 bytes, a branch of a state 8 bytes if it reads bytes and 4 if it does
not. -/
namespace Tabulation.Pattern

/-- An inclusive range of bytes. -/
abbrev ByteRange := Nat × Nat

/-- The ranges of continuation bytes, `count` of them, that spell the numbers from `low` to `high`
below `64 ^ count`, in sequences of one range for each byte. The first bytes start at `base`. -/
def byteRanges (base : Nat) : (count : Nat) → (low high : Nat) → List (List ByteRange)
  | 0, low, high => [[(base + low, base + high)]]
  | count + 1, low, high =>
    let unit := Nat.pow 64 (count + 1)
    let first := low / unit
    let last := high / unit
    let under (lead low high : Nat) : List (List ByteRange) :=
      (byteRanges 0x80 count low high).map ((base + lead, base + lead) :: ·)
    if first = last then under first (low % unit) (high % unit)
    else
      let cutsLow := low % unit ≠ 0
      let cutsHigh := high % unit ≠ unit - 1
      let lower := if cutsLow then first + 1 else first
      let upper := if cutsHigh then last else last + 1
      (if cutsLow then under first (low % unit) (unit - 1) else []) ++
      (if lower < upper then
        [(base + lower, base + upper - 1) :: List.replicate (count + 1) (0x80, 0xBF)] else []) ++
      (if cutsHigh then under last 0 (high % unit) else [])

/-- The code points that are written with one, two, three and four bytes: the first and the last of
them, and what the first byte is counted from. Surrogates are not written at all. -/
def encodings : List (Nat × Nat × Nat × Nat) :=
  [(0, 0x7F, 0, 0), (0x80, 0x7FF, 0xC0, 1), (0x800, 0xD7FF, 0xE0, 2), (0xE000, 0xFFFF, 0xE0, 2),
    (0x10000, 0x10FFFF, 0xF0, 3)]

/-- The sequences of bytes that spell the code points of a range. -/
def spellings (r : Nat × Nat) : List (List ByteRange) :=
  encodings.flatMap fun (first, last, base, continuations) =>
    if max r.1 first ≤ min r.2 last then
      byteRanges base continuations (max r.1 first) (min r.2 last)
    else []

/-- Groups neighbours that begin with the same range: the range, and how each of them goes on. -/
def groupByFirst : List (List ByteRange) → List (ByteRange × List (List ByteRange))
  | [] => []
  | [] :: rest => groupByFirst rest
  | (r :: tail) :: rest =>
    match groupByFirst rest with
    | (q, tails) :: groups =>
      if q = r then (r, tail :: tails) :: groups else (r, [tail]) :: (q, tails) :: groups
    | [] => [(r, [tail])]

/-- The states of an automaton that shares states which go on in the same way: by their branches,
each with the state that it leads to. -/
abbrev SharedStates := Std.HashMap (List (ByteRange × Nat)) Nat

/-- The state from which sequences are read, among those entered before. State 0 is the end. -/
def enterState : (depth : Nat) → List (List ByteRange) → SharedStates → Nat × SharedStates
  | 0, _, states => (0, states)
  | depth + 1, sequences, states =>
    let (branches, states) := (groupByFirst sequences).foldl (fun (branches, states) group =>
      if group.2 = [[]] then ((group.1, 0) :: branches, states)
      else
        let (next, states) := enterState depth group.2 states
        ((group.1, next) :: branches, states)) ([], states)
    match states[branches]? with
    | some state => (state, states)
    | none => (states.size + 1, states.insert branches (states.size + 1))

/-- The number of beginnings that sequences have, each counted once. -/
def beginningCount : (depth : Nat) → List (List ByteRange) → Nat
  | 0, _ => 0
  | depth + 1, sequences =>
    (groupByFirst sequences).foldl (fun n group => n + 1 + beginningCount depth group.2) 0

/-- The direction in which an automaton reads. -/
inductive Direction where
  | forwards
  | backwards
deriving DecidableEq, Repr

namespace CharSet

/-- The number of bytes that spell a character. -/
def byteCount (code : Nat) : Nat :=
  if code < 0x80 then 1 else if code < 0x800 then 2 else if code < 0x10000 then 3 else 4

/-- The memory for one character of the set. -/
def memory (d : Direction) (s : CharSet) : Nat :=
  match s.ranges with
  | [(first, last)] => if first = last then 32 * byteCount first else several
  | _ => several
where
  several : Nat :=
    if s.isAscii then 64 + 8 * s.ranges.length
    else
      let sequences := s.ranges.flatMap spellings
      match d with
      | .forwards =>
        (enterState 4 sequences ∅).2.fold (fun n branches _ => n + 32 + 8 * branches.length) 32
      | .backwards => 64 + 4 * sequences.length + 32 * beginningCount 4 sequences

end CharSet

namespace Regex

/-- Whether every match has a character. -/
def needsCharacter : Regex → Bool
  | .empty | .assertion _ => false
  | .one set => set.ranges ≠ []
  | .group body => body.needsCharacter
  | .seq a b => a.needsCharacter || b.needsCharacter
  | .alt a b => a.needsCharacter && b.needsCharacter
  | .repeated least _ body => least ≠ 0 && body.needsCharacter

/-- The memory of an expression as one of several branches. Branches among branches are joined with
those around them. -/
def branchMemory (r : Regex) (memory : Nat) : Nat :=
  match r with
  | .alt _ _ => memory - 64
  | _ => memory + 4

/-- The memory for an expression within an automaton. -/
def memory (d : Direction) : Regex → Nat
  | .empty | .assertion _ => 32
  | .one set => set.memory d
  | .group body => (if d = .forwards then 64 else 0) + body.memory d
  | .seq a b => a.memory d + b.memory d
  | .alt a b => 64 + a.branchMemory (a.memory d) + b.branchMemory (b.memory d)
  | .repeated least most body =>
    let once := body.memory d
    match least, most with
    | 0, some 1 => once + 72
    | 0, none => if body.needsCharacter then once + 40 else once + 112
    | least, none => least * once + 40
    | least, some most =>
      if least = most then least * once
      else (if least = 0 then 32 else least * once) + 32 + (most - least) * (once + 40)

/-- Whether a match has to begin where the text begins, or end where it ends. -/
def isAnchored (d : Direction) : Regex → Bool
  | .assertion .textStart => d = .forwards
  | .assertion .textEnd => d = .backwards
  | .empty | .one _ | .assertion _ => false
  | .group body => body.isAnchored d
  | .seq a b =>
    match d with
    | .forwards => a.isAnchored d || (a.isZeroWidth && b.isAnchored d)
    | .backwards => b.isAnchored d || (b.isZeroWidth && a.isAnchored d)
  | .alt a b => a.isAnchored d && b.isAnchored d
  | .repeated least _ body => least ≠ 0 && body.isAnchored d

/-- The memory of the whole automaton. Unless it is anchored, it may start at any place. -/
def automatonMemory (d : Direction) (r : Regex) : Nat :=
  (if r.isAnchored d then 32 else 112) + (if d = .forwards then 64 else 0) + r.memory d + 32

def maxMemory : Nat := 10485760

/-- Whether neither automaton is too large. -/
def fits (r : Regex) : Bool :=
  r.automatonMemory .forwards ≤ maxMemory ∧ r.automatonMemory .backwards ≤ maxMemory

end Regex

end Tabulation.Pattern
