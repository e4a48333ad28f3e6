import Tabulation.Decimal.Layout

/-! Days of the calendar and their texts at three grains. -/
namespace Tabulation.Calendar

/-- A day of the Gregorian calendar, extended to all years. -/
structure Date where
  year : Int
  month : Nat
  day : Nat
deriving DecidableEq, Repr

def isLeap (year : Int) : Bool := year % 4 = 0 ∧ (year % 100 ≠ 0 ∨ year % 400 = 0)

def daysIn (year : Int) (month : Nat) : Nat :=
  match month with
  | 2 => if isLeap year then 29 else 28
  | 4 | 6 | 9 | 11 => 30
  | _ => 31

namespace Date

/-- The day with the given numbers, if there is one in the supported years. -/
def of? (year : Int) (month day : Nat) : Option Date :=
  if -262143 ≤ year ∧ year ≤ 262142 ∧ 1 ≤ month ∧ month ≤ 12 ∧ 1 ≤ day ∧
      day ≤ daysIn year month then
    some ⟨year, month, day⟩
  else none

/-- A number in decimal digits, with zeros in front up to a width. -/
def padded (width n : Nat) : List Char :=
  let digits := Decimal.digitChars n
  List.replicate (width - digits.length) '0' ++ digits

/-- Four digits for the years from 0 to 9999; every other year has a sign. -/
def yearText (year : Int) : List Char :=
  if 0 ≤ year ∧ year ≤ 9999 then padded 4 year.natAbs
  else (if year < 0 then '-' else '+') :: padded 4 year.natAbs

def monthText (d : Date) : List Char := yearText d.year ++ '-' :: padded 2 d.month

def dayText (d : Date) : List Char := d.monthText ++ '-' :: padded 2 d.day

end Date

end Tabulation.Calendar
