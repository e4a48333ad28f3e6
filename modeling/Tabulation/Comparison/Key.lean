import Tabulation.Comparison.Order

/-! Texts that stand for values where values are looked up: in joins and in grouping. -/
namespace Tabulation.Comparison
open Json (Number Value)

/-- A double that is an integer of moderate size counts as this integer. -/
def settled : Number → Number
  | .real x =>
    match Decimal.integer? x with
    | some n => if x.abs < 9.0e15 then .integer n else .real x
    | none => .real x
  | n => n

def numberKey (n : Number) : String := (Value.number (settled n)).text

/-- The text under which a value finds its partners; null has none. -/
def joinKey? : Value → Option String
  | .null => none
  | .number n => some (numberKey n)
  | .string s => some s
  | v => some v.text

mutual

/-- The text that stands for a value in grouping and distinct counting. -/
def groupKey : Value → String
  | .number n => numberKey n
  | .array items => "[" ++ ",".intercalate (groupKeys items) ++ "]"
  | v => v.text

def groupKeys : List Value → List String
  | [] => []
  | v :: vs => groupKey v :: groupKeys vs

end

end Tabulation.Comparison
