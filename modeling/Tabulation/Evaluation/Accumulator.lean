import Tabulation.Comparison.Key
import Tabulation.Ordered.Set
import Tabulation.Query.Column
import Tabulation.Storage.Fault

/-! Accumulators of aggregates. A value is first read as an input of the aggregate, which may fail;
taking up an input and merging two accumulators never do. Nulls are no inputs. -/
namespace Tabulation.Evaluation
open Json (Value)
open Query (AggregateFn)
open Storage (Fault)

/-- A sum: an exact integer of 64 bits until a double comes in or the bits do not suffice. -/
inductive Total where
  | exact (n : Int)
  | rounded (x : Float)
deriving DecidableEq, Repr

namespace Total

def toFloat : Total → Float
  | .exact n => Float.ofInt n
  | .rounded x => x

def add : Total → Total → Total
  | .exact m, .exact n =>
    if Decimal.isInt64 (m + n) then .exact (m + n)
    else .rounded (Float.ofInt m + Float.ofInt n)
  | a, b => .rounded (a.toFloat + b.toFloat)

def toJson : Total → Value
  | .exact n => .ofInt n
  | .rounded x => .ofFloat x

/-- Either of two totals that may be missing, or their sum. -/
def merge : Option Total → Option Total → Option Total
  | some a, some b => some (a.add b)
  | a, none => a
  | none, b => b

/-- The number that a value holds or, as a text, names. -/
def read (v : Value) : Except Fault Total :=
  match v with
  | .number (.integer n) =>
    if Decimal.isInt64 n then .ok (.exact n) else .ok (.rounded (Float.ofInt n))
  | .number (.real x) => .ok (.rounded x)
  | .string s =>
    match Decimal.ofText s with
    | some x => .ok (.rounded x)
    | none => .error (.notNumeric v)
  | _ => .error (.notNumeric v)

end Total

/-- A value that is ready to be taken up by an accumulator. -/
inductive Input where
  | value (v : Value)
  | number (t : Total)
deriving DecidableEq

/-- The input that a value is for a function; null and a missing value are none. -/
def Input.read (function : AggregateFn) : Option Value → Except Fault (Option Input)
  | none | some .null => .ok none
  | some v =>
    if function.requiresNumeric then (Total.read v).map fun t => some (.number t)
    else .ok (some (.value v))

inductive Accumulator where
  | count (n : Nat)
  /-- The grouping texts seen so far. -/
  | countDistinct (seen : OrderedSet String)
  | sum (total : Option Total)
  | avg (total : Option Total) (count : Nat)
  | min (least : Option Value)
  | max (greatest : Option Value)
deriving DecidableEq

namespace Accumulator

def new : AggregateFn → Accumulator
  | .count => .count 0
  | .countDistinct => .countDistinct ∅
  | .sum => .sum none
  | .avg => .avg none 0
  | .min => .min none
  | .max => .max none

def function : Accumulator → AggregateFn
  | .count _ => .count
  | .countDistinct _ => .countDistinct
  | .sum _ => .sum
  | .avg _ _ => .avg
  | .min _ => .min
  | .max _ => .max

/-- The candidate if it compares with the value held so far as wanted, or if there is none. -/
def extreme (wanted : Ordering) (held : Option Value) (candidate : Value) : Option Value :=
  match held with
  | none => some candidate
  | some v => if Comparison.order? candidate v = some wanted then some candidate else some v

/-- Takes up one input. -/
def add (a : Accumulator) (input : Input) : Accumulator :=
  match a, input with
  | .count n, _ => .count (n + 1)
  | .countDistinct seen, .value v => .countDistinct (seen.insert (Comparison.groupKey v))
  | .sum total, .number t => .sum (Total.merge total (some t))
  | .avg total n, .number t => .avg (Total.merge total (some t)) (n + 1)
  | .min least, .value v => .min (extreme .lt least v)
  | .max greatest, .value v => .max (extreme .gt greatest v)
  | a, _ => a

/-- Takes up what was read from one value. -/
def addRead (a : Accumulator) : Option Input → Accumulator
  | some input => a.add input
  | none => a

/-- Reads a value and takes it up. -/
def push (a : Accumulator) (v : Option Value) : Except Fault Accumulator :=
  (Input.read a.function v).map a.addRead

/-- Takes over what an accumulator of the same function holds. -/
def merge (a b : Accumulator) : Accumulator :=
  match a, b with
  | .count m, .count n => .count (m + n)
  | .countDistinct s, .countDistinct t => .countDistinct (s.union t)
  | .sum s, .sum t => .sum (Total.merge s t)
  | .avg s m, .avg t n => .avg (Total.merge s t) (m + n)
  | .min held, .min (some v) => .min (extreme .lt held v)
  | .max held, .max (some v) => .max (extreme .gt held v)
  | a, _ => a

def finish : Accumulator → Value
  | .count n => .ofNat n
  | .countDistinct seen => .ofNat seen.size
  | .sum total => (total.map Total.toJson).getD .null
  | .avg total n =>
    match total with
    | some t => if n > 0 then .ofFloat (t.toFloat / Float.ofNat n) else .null
    | none => .null
  | .min v | .max v => v.getD .null

end Accumulator

end Tabulation.Evaluation
