import Tabulation.Decimal.Reading
import Tabulation.Json.Printer

/-! Orders on values. Conditions and extremes use a partial order in which a text that names a
number compares with numbers; sorting uses a total order by type first, without any coercion. -/
namespace Tabulation.Json

/-- The nearest double. -/
def Number.toFloat : Number → Float
  | .integer n => Float.ofInt n
  | .real x => x

end Tabulation.Json

namespace Tabulation.Comparison
open Json (Number Value Members)

/-- The order of two doubles; there is none if one of them is no number. -/
def orderFloats? (x y : Float) : Option Ordering :=
  if x < y then some .lt
  else if x == y then some .eq
  else if y < x then some .gt
  else none

/-- Integers of 64 bits with a sign compare exactly, all other numbers as doubles. -/
def orderNumbers? : Number → Number → Option Ordering
  | .integer m, .integer n =>
    if Decimal.isInt64 m ∧ Decimal.isInt64 n then some (compare m n)
    else orderFloats? (Float.ofInt m) (Float.ofInt n)
  | m, n => orderFloats? m.toFloat n.toFloat

/-- The order of two values, if they have one. A text compares with a number if it names one. -/
def order? : Value → Value → Option Ordering
  | .number m, .number n => orderNumbers? m n
  | .string s, .string t => some (compare s t)
  | .bool a, .bool b => some (compare a b)
  | .string s, .number n => (Decimal.ofText s).bind fun x => orderFloats? x n.toFloat
  | .number n, .string s => (Decimal.ofText s).bind fun x => orderFloats? n.toFloat x
  | _, _ => none

/-- Integers and doubles are never the same; doubles are if they compare equal. -/
def sameNumber : Number → Number → Bool
  | .integer m, .integer n => m = n
  | .real x, .real y => x == y
  | _, _ => false

mutual

/-- Whether two values have the same form, part by part. -/
def same : Value → Value → Bool
  | .null, .null => true
  | .bool a, .bool b => a = b
  | .number m, .number n => sameNumber m n
  | .string s, .string t => s = t
  | .array xs, .array ys => sameItems xs ys
  | .object ms, .object ns => sameMembers ms ns
  | _, _ => false

def sameItems : List Value → List Value → Bool
  | [], [] => true
  | x :: xs, y :: ys => same x y && sameItems xs ys
  | _, _ => false

def sameMembers : List (String × Value) → List (String × Value) → Bool
  | [], [] => true
  | (m, x) :: xs, (n, y) :: ys => m = n && same x y && sameMembers xs ys
  | _, _ => false

end

/-- Values are equal if they compare equal; values without an order, if they are the same. -/
def equal (a b : Value) : Bool :=
  match order? a b with
  | some o => o = .eq
  | none => same a b

/-- The place of a double among all doubles: a smaller magnitude is nearer to zero, and negative
zero stands right before zero. -/
def floatRank (x : Float) : Int :=
  let bits := x.toBits.toNat
  if bits < Decimal.signBit then bits else Decimal.signBit - 1 - bits

/-- Numbers sort as doubles first. Integers that share a double sort exactly among themselves, and
after the number that is only a double. -/
def sortNumbers (m n : Number) : Ordering :=
  (compare (floatRank m.toFloat) (floatRank n.toFloat)).then <|
    match m, n with
    | .integer m, .integer n => compare m n
    | .real _, .integer _ => .lt
    | .integer _, .real _ => .gt
    | .real _, .real _ => .eq

/-- The place of a type of values among all types. -/
def typeRank : Value → Nat
  | .null => 0
  | .bool _ => 1
  | .number _ => 2
  | .string _ => 3
  | .array _ => 4
  | .object _ => 5

/-- The total order for sorting: by type, and within a type by value; arrays and objects by their
text. -/
def sortValues : Value → Value → Ordering
  | .bool a, .bool b => compare a b
  | .number m, .number n => sortNumbers m n
  | .string s, .string t => compare s t
  | .array xs, .array ys => compare (Value.array xs).text (Value.array ys).text
  | .object ms, .object ns => compare (Value.object ms).text (Value.object ns).text
  | a, b => compare (typeRank a) (typeRank b)

end Tabulation.Comparison
