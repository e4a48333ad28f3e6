import Tabulation.Calendar.Date
import Tabulation.Decimal.Reading

/-! Reading dates. A text is a timestamp with its distance from universal time, or a timestamp or
date without one; of a timestamp its own local day counts. -/
namespace Tabulation.Calendar

/-- Reads one number of at least `least` digits, and takes no more than `most` of them. -/
def readNumber (least most : Nat) (s : List Char) : Option (Nat × List Char) :=
  let digits := (s.take most).takeWhile Char.isDigit
  if least ≤ digits.length then
    some (Decimal.natOfDigits digits, s.drop digits.length)
  else none

/-- Reads one character out of the given ones. -/
def readOne (accepted : List Char) : List Char → Option (List Char)
  | c :: s => if c ∈ accepted then some s else none
  | [] => none

/-- Whether there is such a time of day. A minute may end with a leap second. -/
def isTime (hour minute second : Nat) : Bool := hour ≤ 23 ∧ minute ≤ 59 ∧ second ≤ 60

/-- Reads a decimal fraction, if a point announces one. -/
def readFraction : List Char → Option (List Char)
  | '.' :: s => (readNumber 1 s.length s).map (·.2)
  | s => some s

/-- Reads the distance from universal time, which is less than a day. -/
def readOffset : List Char → Option (List Char)
  | 'Z' :: s | 'z' :: s => some s
  | s => do
    let s ← readOne ['+', '-', '\u2212'] s
    let (hours, s) ← readNumber 2 2 s
    let s ← readOne [':'] s
    let (minutes, s) ← readNumber 2 2 s
    if hours ≤ 23 ∧ minutes ≤ 59 then some s else none

/-- A timestamp in which every number has its full width, with the distance from universal time. -/
def readTimestamp (s : List Char) : Option Date := do
  let (year, s) ← readNumber 4 4 s
  let s ← readOne ['-'] s
  let (month, s) ← readNumber 2 2 s
  let s ← readOne ['-'] s
  let (day, s) ← readNumber 2 2 s
  let s ← readOne ['T', 't', ' '] s
  let (hour, s) ← readNumber 2 2 s
  let s ← readOne [':'] s
  let (minute, s) ← readNumber 2 2 s
  let s ← readOne [':'] s
  let (second, s) ← readNumber 2 2 s
  let s ← readOffset (← readFraction s)
  if isTime hour minute second ∧ s = [] then Date.of? year month day else none

/-- A number of at most two digits, after any white space. -/
def readShort (s : List Char) : Option (Nat × List Char) :=
  readNumber 1 2 (s.dropWhile Text.isBlank)

/-- A year, after any white space: at most four digits, or a sign and any number of digits. -/
def readYear (s : List Char) : Option (Int × List Char) :=
  match s.dropWhile Text.isBlank with
  | '-' :: s => (readNumber 1 s.length s).map fun r => (-(r.1 : Int), r.2)
  | '+' :: s => (readNumber 1 s.length s).map fun r => ((r.1 : Int), r.2)
  | s => (readNumber 1 4 s).map fun r => ((r.1 : Int), r.2)

/-- Year, month and day with hyphens between them; the rest. -/
def readDay (s : List Char) : Option (Date × List Char) := do
  let (year, s) ← readYear s
  let s ← readOne ['-'] s
  let (month, s) ← readShort s
  let s ← readOne ['-'] s
  let (day, s) ← readShort s
  return (← Date.of? year month day, s)

/-- Hour, minute and second with colons between them; the rest. -/
def readTime (s : List Char) : Option (List Char) := do
  let (hour, s) ← readShort s
  let s ← readOne [':'] s
  let (minute, s) ← readShort s
  let s ← readOne [':'] s
  let (second, s) ← readShort s
  if isTime hour minute second then some s else none

/-- A day with a time after `T` or after any white space, or a day alone. -/
def readLocal (s : List Char) : Option Date := do
  let (date, s) ← readDay s
  match s with
  | [] => some date
  | 'T' :: s => if (← readTime s) = [] then some date else none
  | s => if (← readTime s) = [] then some date else none

/-- The day that a text names. -/
def readDate (text : String) : Option Date :=
  (readTimestamp text.toList).or (readLocal text.toList)

end Tabulation.Calendar
