import Tabulation.Pattern.CharSet
import Tabulation.Pattern.Column

/-! Regular expressions, which match anywhere in a text. -/
namespace Tabulation.Pattern

/-- Where a place lies between characters of words and others. -/
inductive WordPlace where
  | boundary
  | noBoundary
  | start
  | finish
  /-- No word is to the left. -/
  | startHalf
  /-- No word is to the right. -/
  | finishHalf
deriving DecidableEq, Repr

/-- Whether the place is one, by what stands to the left and to the right. -/
def WordPlace.holds (left right : Bool) : WordPlace → Bool
  | .boundary => left ≠ right
  | .noBoundary => left = right
  | .start => !left && right
  | .finish => left && !right
  | .startHalf => !left
  | .finishHalf => !right

/-- A condition on a place in the text. -/
inductive Assertion where
  | textStart
  | textEnd
  /-- Lines end with a line feed; if `returns`, a carriage return ends them as well, and both
  together end them once. -/
  | lineStart (returns : Bool)
  | lineEnd (returns : Bool)
  /-- A place between words whose characters are those of a set. -/
  | word (characters : CharSet) (place : WordPlace)
deriving DecidableEq, Repr

/-- Whether the condition holds between two characters; there are none beyond the ends. -/
def Assertion.holds (left right : Option Char) : Assertion → Bool
  | .textStart => left = none
  | .textEnd => right = none
  | .lineStart false => left = none ∨ left = some '\n'
  | .lineStart true => left = none ∨ left = some '\n' ∨ (left = some '\r' ∧ right ≠ some '\n')
  | .lineEnd false => right = none ∨ right = some '\n'
  | .lineEnd true => right = none ∨ right = some '\r' ∨ (right = some '\n' ∧ left ≠ some '\r')
  | .word characters place =>
    place.holds (left.any characters.contains) (right.any characters.contains)

inductive Regex where
  | empty
  | one (set : CharSet)
  | assertion (a : Assertion)
  /-- A group whose place in a match can be asked for. -/
  | group (body : Regex)
  | seq (a b : Regex)
  | alt (a b : Regex)
  /-- From `least` to `most` times, or any number of times from `least` on. -/
  | repeated (least : Nat) (most : Option Nat) (body : Regex)

namespace Regex

/-- One expression after the other; those that are empty are left out. -/
def sequence : List Regex → Regex
  | [] => .empty
  | r :: rs =>
    match r, sequence rs with
    | .empty, rest => rest
    | r, .empty => r
    | r, rest => .seq r rest

/-- The sets of expressions that are single characters. -/
def sets? : List Regex → Option (List CharSet)
  | [] => some []
  | .one set :: rs => (sets? rs).map (set :: ·)
  | _ => none

/-- One of several expressions. A choice among single characters is a set. -/
def either : List Regex → Regex
  | [] => .one {}
  | [r] => r
  | r :: rs =>
    match sets? (r :: rs) with
    | some sets => .one (.union sets)
    | none => rs.foldl .alt r

/-- Whether only the empty text can match. -/
def isZeroWidth : Regex → Bool
  | .empty | .assertion _ => true
  | .one _ => false
  | .group body => body.isZeroWidth
  | .seq a b | .alt a b => a.isZeroWidth && b.isZeroWidth
  | .repeated _ _ body => body.isZeroWidth

/-- An expression several times. To repeat what only the empty text matches more than once makes no
difference. -/
def times (body : Regex) (least : Nat) (most : Option Nat) : Regex :=
  let (least, most) :=
    if body.isZeroWidth then (min least 1, some ((most.map (min 1)).getD 1)) else (least, most)
  if most = some 0 then .empty
  else if least = 1 ∧ most = some 1 then body
  else .repeated least most body

/-- Applies `f` at most `n` times, until nothing changes. -/
def settle (f : Column → Column) : Nat → Column → Column
  | 0, column => column
  | n + 1, column =>
    let next := f column
    if next = column then column else settle f n next

/-- The column of the expression before what the column `rest` stands for. A loop without a bound
settles within as many rounds as the text has places; a loop of single characters is a run. -/
def column (s : List Char) : Regex → Column → Column
  | .empty, rest => rest
  | .one set, rest => rest.one (set.contains ·) s
  | .assertion a, rest => (Column.between (fun l r => a.holds l r) none s).both rest
  | .group body, rest => body.column s rest
  | .seq a b, rest => a.column s (b.column s rest)
  | .alt a b, rest => (a.column s rest).either (b.column s rest)
  | .repeated least most body, rest =>
    let loop (rounds : Nat) : Column :=
      settle (fun column => rest.either (body.column s column)) rounds rest
    let looped := match most, body with
      | some most, _ => loop (most - least)
      | none, .one set => rest.run (set.contains ·) s
      | none, _ => loop (s.length + 1)
    settle (body.column s) least looped

/-- Whether some part of the text matches. -/
def accepts (r : Regex) (s : List Char) : Bool :=
  (r.column s (List.replicate (s.length + 1) true)).any id

end Regex

end Tabulation.Pattern
