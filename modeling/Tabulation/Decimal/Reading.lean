import Tabulation.Text.CharacterClass

/-! Integers of 64 bits, and reading doubles: the nearest one to a decimal, numbers written in a text value, and
the scaled reading of numerals in documents. -/
namespace Tabulation.Decimal

/-- Whether 64 bits with a sign hold `n`. -/
def isInt64 (n : Int) : Bool := Int64.minValue.toInt ≤ n ∧ n ≤ Int64.maxValue.toInt

/-- The integer in 64 bits, if they hold it. -/
def int64? (n : Int) : Option Int64 := if isInt64 n then some (.ofInt n) else none

/-- The number that a run of decimal digits stands for, after the digits of `n`. -/
def appendDigits (n : Nat) (digits : List Char) : Nat :=
  digits.foldl (fun acc d => 10 * acc + (d.toNat - '0'.toNat)) n

def natOfDigits (digits : List Char) : Nat := appendDigits 0 digits

/-- The double nearest to `n · 10 ^ e`: infinite beyond the largest, zero below the smallest. -/
def nearest (n : Nat) (e : Int) : Float :=
  if n = 0 then 0.0
  else
    let magnitude := ((digitCount n : Nat) : Int) + e
    if 310 < magnitude then Float.ofBits 0x7FF0000000000000
    else if magnitude < -330 then 0.0
    else Float.ofScientific n (e < 0) e.natAbs
where
  digitCount (n : Nat) : Nat := (Nat.toDigits 10 n).length

/-- An optional sign; whether it is a minus, and the rest. -/
def takeSign : List Char → Bool × List Char
  | '-' :: r => (true, r)
  | '+' :: r => (false, r)
  | s => (false, s)

/-- A power of ten: `e` or `E`, an optional sign and digits, up to the end. -/
def readPower : List Char → Option Int
  | [] => some 0
  | c :: r =>
    if c = 'e' ∨ c = 'E' then
      let (negative, digits) := takeSign r
      if digits ≠ [] ∧ digits.all Char.isDigit then
        let n : Int := natOfDigits digits
        some (if negative then -n else n)
      else none
    else none

/-- A number without its sign: digits on at least one side of an optional point, and an optional
power of ten. -/
def readMagnitude (s : List Char) : Option Float :=
  let whole := s.takeWhile Char.isDigit
  let (fraction, rest) :=
    match s.dropWhile Char.isDigit with
    | '.' :: r => (r.takeWhile Char.isDigit, r.dropWhile Char.isDigit)
    | r => ([], r)
  if whole = [] ∧ fraction = [] then none
  else
    (readPower rest).map fun power =>
      nearest (natOfDigits (whole ++ fraction)) (power - fraction.length)

/-- The double that a text names: a decimal, or a name of infinity or of no number in any case. -/
def readFloat (s : List Char) : Option Float :=
  let (negative, r) := takeSign s
  let magnitude :=
    match String.ofList (r.map Char.toLower) with
    | "inf" | "infinity" => some (Float.ofBits 0x7FF0000000000000)
    | "nan" => some (Float.ofBits 0x7FF8000000000000)
    | _ => readMagnitude r
  magnitude.map fun x => if negative then -x else x

/-- The double that a text value names, white space around it ignored. -/
def ofText (s : String) : Option Float := readFloat (Text.trimmed s.toList)

/-- An optional sign and decimal digits that name an integer of 64 bits. -/
def readInt64 (s : List Char) : Option Int64 :=
  let (negative, digits) := takeSign s
  if digits ≠ [] ∧ digits.all Char.isDigit then
    let n : Int := natOfDigits digits
    int64? (if negative then -n else n)
  else none

/-- The digits of a document's numeral, gathered into 64 bits. -/
structure Scaled where
  significand : Nat
  exponent : Int
deriving DecidableEq, Repr

/-- Takes digits as long as the significand fits into 64 bits; the digits that are left. -/
def gather (n : Nat) : List Char → Nat × List Char
  | [] => (n, [])
  | d :: ds =>
    let next := 10 * n + (d.toNat - '0'.toNat)
    if next < UInt64.size then gather next ds else (n, d :: ds)

/-- A numeral with the given digits before and after the point. Digits before the point that do
not fit raise the exponent; digits after it that do not fit are dropped. -/
def Scaled.ofDigits (whole fraction : List Char) (power : Int) : Scaled :=
  let (n, left) := gather 0 whole
  let (m, dropped) := gather n fraction
  ⟨m, left.length - (fraction.length - dropped.length) + power⟩

def powerOfTen (e : Nat) : Float := Float.ofScientific 1 false e

/-- The double read from a scaled numeral: the significand as a double, then one multiplication or
division by a power of ten, or two divisions where one power of ten does not reach. There is none
beyond the largest double. -/
def Scaled.toFloat? (s : Scaled) : Option Float :=
  let x := s.significand.toUInt64.toFloat
  if s.significand = 0 then some 0.0
  else if 308 < s.exponent then none
  else if 0 ≤ s.exponent then
    let y := x * powerOfTen s.exponent.natAbs
    if y.isFinite then some y else none
  else if -308 ≤ s.exponent then some (x / powerOfTen s.exponent.natAbs)
  else if -616 ≤ s.exponent then
    some (x / powerOfTen 308 / powerOfTen (s.exponent + 308).natAbs)
  else some 0.0

end Tabulation.Decimal
