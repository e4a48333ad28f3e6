import Tabulation.Text.CaseFolding
import Tabulation.Text.CharacterClass

/-! Sets of characters, as ranges of code points. -/
namespace Tabulation.Pattern

/-- A set of characters: inclusive ranges of code points, in ascending order and apart. -/
structure CharSet where
  ranges : List (Nat × Nat) := []
deriving DecidableEq, Repr

namespace CharSet

def containsCode (s : CharSet) (n : Nat) : Bool := s.ranges.any fun r => r.1 ≤ n ∧ n ≤ r.2

def contains (s : CharSet) (c : Char) : Bool := s.containsCode c.toNat

/-- Joins each range to the one before it, if they touch or overlap. They begin in ascending
order. -/
def joined : List (Nat × Nat) → List (Nat × Nat)
  | r :: q :: qs =>
    if q.1 ≤ r.2 + 1 then joined ((r.1, max r.2 q.2) :: qs) else r :: joined (q :: qs)
  | rs => rs
termination_by rs => rs.length

/-- The characters of ranges in any order. -/
def ofRanges (ranges : List (Nat × Nat)) : CharSet :=
  ⟨joined (ranges.mergeSort fun r q => r.1 ≤ q.1)⟩

def range (first last : Char) : CharSet := ⟨[(first.toNat, last.toNat)]⟩

def union (sets : List CharSet) : CharSet := .ofRanges (sets.flatMap ranges)

/-- The largest code point. -/
def lastCode : Nat := 0x10FFFF

/-- The ranges between those given, from a code point on. -/
def gaps (start : Nat) : List (Nat × Nat) → List (Nat × Nat)
  | [] => if start ≤ lastCode then [(start, lastCode)] else []
  | r :: rs => if start < r.1 then (start, r.1 - 1) :: gaps (r.2 + 1) rs else gaps (r.2 + 1) rs

def complement (s : CharSet) : CharSet := ⟨gaps 0 s.ranges⟩

def intersection (a b : CharSet) : CharSet := (union [a.complement, b.complement]).complement

def difference (a b : CharSet) : CharSet := (union [a.complement, b]).complement

def symmetricDifference (a b : CharSet) : CharSet := union [a.difference b, b.difference a]

/-- Every code point that case folding moves, with its image. -/
def casePairs : List (Nat × Nat) :=
  Text.caseFoldingRanges.flatMap fun r =>
    (List.range ((r.last - r.first) / r.stride + 1)).map fun i =>
      (r.first + i * r.stride, ((r.first + i * r.stride : Nat) + r.shift : Int).toNat)

/-- With all characters that differ from one of the set in case only. -/
def folded (s : CharSet) : CharSet :=
  let images := casePairs.filter fun p => s.containsCode p.1
  let withImages := union [s, .ofRanges (images.map fun p => (p.2, p.2))]
  let preimages := casePairs.filter fun p => withImages.containsCode p.2
  union [withImages, .ofRanges (preimages.map fun p => (p.1, p.1))]

/-- The characters below 128. -/
def ascii : CharSet := ⟨[(0, 0x7F)]⟩

def isAscii (s : CharSet) : Bool := s.ranges.all fun r => r.2 < 128

def digit : CharSet := ⟨Text.digitRanges⟩

def word : CharSet := ⟨Text.wordRanges⟩

def blank : CharSet := ⟨Text.blankRanges⟩

def asciiDigit : CharSet := ⟨[(0x30, 0x39)]⟩

def asciiWord : CharSet := ⟨[(0x30, 0x39), (0x41, 0x5A), (0x5F, 0x5F), (0x61, 0x7A)]⟩

def asciiBlank : CharSet := ⟨[(0x9, 0xD), (0x20, 0x20)]⟩

/-- Sets that are known by name. -/
def named : List (String × CharSet) :=
  [("alnum", ⟨[(0x30, 0x39), (0x41, 0x5A), (0x61, 0x7A)]⟩),
   ("alpha", ⟨[(0x41, 0x5A), (0x61, 0x7A)]⟩), ("ascii", ascii),
   ("blank", ⟨[(0x9, 0x9), (0x20, 0x20)]⟩), ("cntrl", ⟨[(0, 0x1F), (0x7F, 0x7F)]⟩),
   ("digit", asciiDigit), ("graph", ⟨[(0x21, 0x7E)]⟩), ("lower", ⟨[(0x61, 0x7A)]⟩),
   ("print", ⟨[(0x20, 0x7E)]⟩),
   ("punct", ⟨[(0x21, 0x2F), (0x3A, 0x40), (0x5B, 0x60), (0x7B, 0x7E)]⟩),
   ("space", asciiBlank), ("upper", ⟨[(0x41, 0x5A)]⟩), ("word", asciiWord),
   ("xdigit", ⟨[(0x30, 0x39), (0x41, 0x46), (0x61, 0x66)]⟩)]

end CharSet

end Tabulation.Pattern
