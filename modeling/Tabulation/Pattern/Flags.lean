import Tabulation.Pattern.Regex

/-! The flags of a regular expression, and what its parts mean under them. -/
namespace Tabulation.Pattern

structure Flags where
  foldsCase : Bool := false
  multiline : Bool := false
  dotAll : Bool := false
  /-- Repetitions are reluctant unless a question mark follows, which finds the same texts. -/
  reluctant : Bool := false
  /-- Without it, named sets are those of ASCII, and no part may go beyond them. -/
  unicode : Bool := true
  /-- A carriage return ends a line. -/
  returns : Bool := false
  /-- White space and comments between parts say nothing. -/
  verbose : Bool := false
deriving DecidableEq, Repr

namespace Flags

/-- Switches the flag of a letter. -/
def switch? (flags : Flags) (letter : Char) (on : Bool) : Option Flags :=
  match letter with
  | 'i' => some { flags with foldsCase := on }
  | 'm' => some { flags with multiline := on }
  | 's' => some { flags with dotAll := on }
  | 'U' => some { flags with reluctant := on }
  | 'u' => some { flags with unicode := on }
  | 'R' => some { flags with returns := on }
  | 'x' => some { flags with verbose := on }
  | _ => none

/-- With the other case of every character, if case says nothing. -/
def fold (flags : Flags) (set : CharSet) : CharSet :=
  if ¬ flags.foldsCase then set
  else if flags.unicode then set.folded
  else if set.isAscii then set.folded.intersection .ascii
  else set

/-- One character. -/
def literal (flags : Flags) (c : Char) : CharSet := flags.fold (.range c c)

/-- The characters of a range. -/
def range? (flags : Flags) (first last : Char) : Option CharSet :=
  let set := CharSet.range first last
  if flags.unicode ∨ set.isAscii then some (flags.fold set) else none

/-- The complement of a set, if it is wanted. -/
def complementIf? (flags : Flags) (negated : Bool) (set : CharSet) : Option CharSet :=
  if ¬ negated then some set else if flags.unicode then some set.complement else none

def digit (flags : Flags) : CharSet := if flags.unicode then .digit else .asciiDigit

def word (flags : Flags) : CharSet := if flags.unicode then .word else .asciiWord

def blank (flags : Flags) : CharSet := if flags.unicode then .blank else .asciiBlank

/-- Any character, or any that does not end a line. -/
def dot? (flags : Flags) : Option CharSet :=
  let excluded : CharSet :=
    if flags.dotAll then {}
    else if flags.returns then ⟨[(0xA, 0xA), (0xD, 0xD)]⟩
    else ⟨[(0xA, 0xA)]⟩
  flags.complementIf? true excluded

def lineStart (flags : Flags) : Assertion :=
  if flags.multiline then .lineStart flags.returns else .textStart

def lineEnd (flags : Flags) : Assertion :=
  if flags.multiline then .lineEnd flags.returns else .textEnd

/-- Passes over what says nothing. A comment goes up to the end of its line. -/
def skip (flags : Flags) (s : List Char) : List Char :=
  if flags.verbose then skipFrom false s else s
where
  skipFrom (comment : Bool) : List Char → List Char
    | [] => []
    | c :: s =>
      if comment then skipFrom (c ≠ '\n') s
      else if Text.isBlank c then skipFrom false s
      else if c = '#' then skipFrom true s
      else c :: s

theorem length_skipFrom_le (comment : Bool) (s : List Char) :
    (skip.skipFrom comment s).length ≤ s.length := by
  fun_induction skip.skipFrom comment s <;> grind

/-- What is left after passing over something is no longer than before. -/
theorem length_skip_le (flags : Flags) (s : List Char) : (flags.skip s).length ≤ s.length := by
  unfold skip
  split
  · exact length_skipFrom_le false s
  · exact Nat.le_refl _

end Flags

end Tabulation.Pattern
