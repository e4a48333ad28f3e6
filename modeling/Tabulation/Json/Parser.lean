import Tabulation.Decimal.Reading
import Tabulation.Json.Document

/-! Reading JSON text, strictly by the grammar. Members are kept as they stand, repeated names
included. Every reader takes the characters that are left and returns those it does not use. -/
namespace Tabulation.Json

/-- What a reader returns: what it has read, and the characters after it. -/
abbrev Reading (α : Type) := Option (α × List Char)

def isJsonBlank (c : Char) : Bool := c = ' ' ∨ c = '\n' ∨ c = '\t' ∨ c = '\r'

def skipBlanks (s : List Char) : List Char := s.dropWhile isJsonBlank

/-- The rest after `word`. -/
def afterWord : (word s : List Char) → Option (List Char)
  | [], s => some s
  | w :: ws, c :: cs => if w = c then afterWord ws cs else none
  | _ :: _, [] => none

def hexValue (c : Char) : Option Nat :=
  if c.isDigit then some (c.toNat - '0'.toNat)
  else if 'a' ≤ c ∧ c ≤ 'f' then some (c.toNat - 'a'.toNat + 10)
  else if 'A' ≤ c ∧ c ≤ 'F' then some (c.toNat - 'A'.toNat + 10)
  else none

/-- The 16 bits that four hexadecimal digits name. -/
def unit16 (a b c d : Char) : Option Nat := do
  let a ← hexValue a
  let b ← hexValue b
  let c ← hexValue c
  let d ← hexValue d
  return 4096 * a + 256 * b + 16 * c + d

/-- The character of an escape of one letter. -/
def shortEscape (c : Char) : Option Char :=
  match c with
  | '"' => some '"'
  | '\\' => some '\\'
  | '/' => some '/'
  | 'b' => some (Char.ofNat 0x8)
  | 'f' => some (Char.ofNat 0xC)
  | 'n' => some '\n'
  | 'r' => some '\r'
  | 't' => some '\t'
  | _ => none

/-- The code points of a string up to the closing quote. Those beyond 16 bits are escaped as a pair
of surrogates. A raw control character is refused. -/
def readString : List Char → Reading (List Nat)
  | '"' :: r => some ([], r)
  | '\\' :: 'u' :: a :: b :: c :: d :: r =>
    match unit16 a b c d with
    | none => none
    | some n => (readString r).map fun (ns, rest) => (n :: ns, rest)
  | '\\' :: c :: r =>
    match shortEscape c with
    | none => none
    | some e => (readString r).map fun (ns, rest) => (e.toNat :: ns, rest)
  | c :: r =>
    if c.toNat < 0x20 ∨ c = '\\' then none
    else (readString r).map fun (ns, rest) => (c.toNat :: ns, rest)
  | [] => none

/-- The characters of code points, pairs of surrogates joined. A surrogate without the other one of
its pair stands for no character. -/
def joinSurrogates : List Nat → Option (List Char)
  | [] => some []
  | hi :: ns =>
    if hi < 0xD800 ∨ 0xE000 ≤ hi then (joinSurrogates ns).map (Char.ofNat hi :: ·)
    else
      match ns with
      | lo :: ns =>
        if hi < 0xDC00 ∧ 0xDC00 ≤ lo ∧ lo < 0xE000 then
          (joinSurrogates ns).map
            (Char.ofNat (0x10000 + 0x400 * (hi - 0xD800) + (lo - 0xDC00)) :: ·)
        else none
      | [] => none

/-- The string of code points. -/
def stringOf (ns : List Nat) : Option String := (joinSurrogates ns).map String.ofList

/-- The whole part of a numeral: a lone zero, or digits that do not start with one. -/
def wholeDigits (s : List Char) : Reading (List Char) :=
  match s.takeWhile Char.isDigit with
  | [] => none
  | ['0'] => some (['0'], s.dropWhile Char.isDigit)
  | '0' :: _ :: _ => none
  | ds => some (ds, s.dropWhile Char.isDigit)

/-- The digits after a point, if there is one; at least one has to follow it. -/
def fractionDigits : List Char → Reading (Option (List Char))
  | '.' :: r =>
    match r.takeWhile Char.isDigit with
    | [] => none
    | ds => some (some ds, r.dropWhile Char.isDigit)
  | s => some (none, s)

/-- The power of ten, if one is written; at least one digit has to follow. -/
def numeralPower : List Char → Reading (Option Int)
  | c :: r =>
    if c = 'e' ∨ c = 'E' then
      let (negative, s) := Decimal.takeSign r
      match s.takeWhile Char.isDigit with
      | [] => none
      | ds =>
        let n : Int := Decimal.natOfDigits ds
        some (some (if negative then -n else n), s.dropWhile Char.isDigit)
    else some (none, c :: r)
  | [] => some (none, [])

/-- The number of a plain run of digits: an integer if 64 bits hold it, with a sign below zero.
There is no negative zero among the integers. -/
def wholeNumber (negative : Bool) (digits : List Char) : Option Number :=
  let n := Decimal.natOfDigits digits
  if ¬ negative ∧ n < UInt64.size then some (.integer n)
  else if negative ∧ n ≠ 0 ∧ Decimal.isInt64 (-n) then some (.integer (-n))
  else (Decimal.Scaled.ofDigits digits [] 0).toFloat?.map fun x =>
    .real (if negative then -x else x)

/-- The number of a numeral, if it has one, and the rest. -/
def readNumeral (s : List Char) : Option (Option Number × List Char) := do
  let (negative, s) :=
    match s with
    | '-' :: r => (true, r)
    | s => (false, s)
  let (whole, s) ← wholeDigits s
  let (fraction, s) ← fractionDigits s
  let (power, s) ← numeralPower s
  match fraction, power with
  | none, none => return (wholeNumber negative whole, s)
  | _, _ =>
    let scaled := Decimal.Scaled.ofDigits whole (fraction.getD []) (power.getD 0)
    return (scaled.toFloat?.map fun x => .real (if negative then -x else x), s)

/-- The members with their names as strings. -/
def namedMembers? (members : List (List Nat × Document)) : Option (List (String × Document)) :=
  members.mapM fun m => (stringOf m.1).map (·, m.2)

/-- The document for what may have no value. -/
def orValueless {α : Type} (document : α → Document) : Option α → Document
  | some a => document a
  | none => .valueless

mutual

/-- A document; lists and objects that have no `depth` left around them have no value. The fuel
bounds the calls; every call but those on a list's or an object's inside uses up a character. -/
def readDocument (depth : Nat) : (fuel : Nat) → List Char → Reading Document
  | 0, _ => none
  | fuel + 1, s =>
    match skipBlanks s with
    | 'n' :: r => (afterWord ['u', 'l', 'l'] r).map (.null, ·)
    | 't' :: r => (afterWord ['r', 'u', 'e'] r).map (.bool true, ·)
    | 'f' :: r => (afterWord ['a', 'l', 's', 'e'] r).map (.bool false, ·)
    | '"' :: r => (readString r).map fun (ns, rest) => (orValueless .string (stringOf ns), rest)
    | '[' :: r =>
      let items := match skipBlanks r with
        | ']' :: rest => some ([], rest)
        | s => readItems (depth - 1) fuel s
      items.map fun (ds, rest) => (if depth ≤ 1 then .valueless else .array ds, rest)
    | '{' :: r =>
      let members := match skipBlanks r with
        | '}' :: rest => some ([], rest)
        | s => readMembers (depth - 1) fuel s
      members.map fun (ms, rest) =>
        (if depth ≤ 1 then .valueless else orValueless .object (namedMembers? ms), rest)
    | s => (readNumeral s).map fun (n, rest) => (orValueless .number n, rest)

/-- At least one item, and the closing bracket. -/
def readItems (depth : Nat) : (fuel : Nat) → List Char → Reading (List Document)
  | 0, _ => none
  | fuel + 1, s =>
    match readDocument depth fuel s with
    | none => none
    | some (d, s) =>
      match skipBlanks s with
      | ']' :: rest => some ([d], rest)
      | ',' :: s => (readItems depth fuel s).map fun (ds, rest) => (d :: ds, rest)
      | _ => none

/-- At least one member, and the closing brace. -/
def readMembers (depth : Nat) : (fuel : Nat) → List Char → Reading (List (List Nat × Document))
  | 0, _ => none
  | fuel + 1, s =>
    match skipBlanks s with
    | '"' :: s =>
      match readString s with
      | none => none
      | some (name, s) =>
        match skipBlanks s with
        | ':' :: s =>
          match readDocument depth fuel s with
          | none => none
          | some (d, s) =>
            match skipBlanks s with
            | '}' :: rest => some ([(name, d)], rest)
            | ',' :: s => (readMembers depth fuel s).map fun (ms, rest) => ((name, d) :: ms, rest)
            | _ => none
        | _ => none
    | _ => none

end

/-- Lists and objects may stand in one another less than this often. -/
def maxDepth : Nat := 128

/-- The document of a whole text. -/
def parse (text : String) : Option Document :=
  let s := text.toList
  match readDocument maxDepth (2 * s.length + 2) s with
  | some (d, rest) => if (skipBlanks rest).isEmpty then some d else none
  | none => none

end Tabulation.Json
