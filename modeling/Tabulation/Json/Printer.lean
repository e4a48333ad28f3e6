import Tabulation.Decimal.Layout
import Tabulation.Json.Value

/-! JSON values as text: on one line without blanks, or over several lines. -/
namespace Tabulation.Json

def hexDigit (n : Nat) : Char := Nat.digitChar (n % 16)

/-- One character of a string as it is written between quotes. -/
def escapeChar (c : Char) : List Char :=
  if c = '"' then ['\\', '"']
  else if c = '\\' then ['\\', '\\']
  else if c.toNat = 0x8 then ['\\', 'b']
  else if c.toNat = 0x9 then ['\\', 't']
  else if c.toNat = 0xA then ['\\', 'n']
  else if c.toNat = 0xC then ['\\', 'f']
  else if c.toNat = 0xD then ['\\', 'r']
  else if c.toNat < 0x20 then ['\\', 'u', '0', '0', hexDigit (c.toNat / 16), hexDigit c.toNat]
  else [c]

def escape (s : List Char) : List Char := s.flatMap escapeChar

def quoted (s : String) : List Char := '"' :: (escape s.toList ++ ['"'])

def integerChars (n : Int) : List Char :=
  match n with
  | .ofNat n => Decimal.digitChars n
  | .negSucc n => '-' :: Decimal.digitChars (n + 1)

def Number.chars : Number → List Char
  | .integer n => integerChars n
  | .real x => Decimal.render x

namespace Value

mutual

/-- The text without blanks. -/
def compact : Value → List Char
  | .null => ['n', 'u', 'l', 'l']
  | .bool true => ['t', 'r', 'u', 'e']
  | .bool false => ['f', 'a', 'l', 's', 'e']
  | .number n => n.chars
  | .string s => quoted s
  | .array items => '[' :: (compactItems items ++ [']'])
  | .object members => '{' :: (compactMembers members ++ ['}'])

def compactItems : List Value → List Char
  | [] => []
  | [v] => v.compact
  | v :: w :: vs => v.compact ++ ',' :: compactItems (w :: vs)

def compactMembers : List (String × Value) → List Char
  | [] => []
  | [(n, v)] => quoted n ++ ':' :: v.compact
  | (n, v) :: m :: ms => quoted n ++ ':' :: (v.compact ++ ',' :: compactMembers (m :: ms))

end

/-- The text without blanks. -/
def text (v : Value) : String := String.ofList v.compact

def lineBreak (depth : Nat) : List Char := '\n' :: List.replicate (2 * depth) ' '

mutual

/-- The text with one item or member a line, two blanks for every level. -/
def indented (depth : Nat) : Value → List Char
  | .array [] => ['[', ']']
  | .array (v :: vs) => '[' :: (indentedItems (depth + 1) (v :: vs) ++ lineBreak depth ++ [']'])
  | .object [] => ['{', '}']
  | .object (m :: ms) => '{' :: (indentedMembers (depth + 1) (m :: ms) ++ lineBreak depth ++ ['}'])
  | .null => compact .null
  | .bool b => compact (.bool b)
  | .number n => compact (.number n)
  | .string s => compact (.string s)

def indentedItems (depth : Nat) : List Value → List Char
  | [] => []
  | [v] => lineBreak depth ++ v.indented depth
  | v :: w :: vs => lineBreak depth ++ v.indented depth ++ ',' :: indentedItems depth (w :: vs)

def indentedMembers (depth : Nat) : List (String × Value) → List Char
  | [] => []
  | [(n, v)] => lineBreak depth ++ quoted n ++ ':' :: ' ' :: v.indented depth
  | (n, v) :: m :: ms =>
    lineBreak depth ++ quoted n ++ ':' :: ' ' :: v.indented depth ++
      ',' :: indentedMembers depth (m :: ms)

end

/-- The text over several lines, two blanks for every level. -/
def pretty (v : Value) : String := String.ofList (v.indented 0)

end Value

end Tabulation.Json
