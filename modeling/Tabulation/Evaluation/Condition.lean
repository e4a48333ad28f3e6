import Tabulation.Comparison.Order
import Tabulation.Ordered.Map
import Tabulation.Pattern.Like
import Tabulation.Pattern.RegexReading
import Tabulation.Plan.Basic
import Tabulation.Storage.Fault

/-! Predicates made ready for one run. Null and missing values satisfy no predicate. -/
namespace Tabulation.Evaluation
open Json (Value)
open Plan (ColumnRef Predicate)
open Query (Operation)
open Storage (Fault)

/-- Whether a value is a text with a part that matches. -/
def finds (r : Pattern.Regex) : Value → Bool
  | .string s => r.accepts s.toList
  | _ => false

/-- An operation of the store: binds the values of a filter and gives the test, or refuses them. -/
abbrev Special := List Value → Except Fault (Value → Bool)

/-- The operations that a store knows by name. -/
abbrev Specials := OrderedMap String Special

namespace Specials

/-- Texts in which a regular expression is found. -/
def regexMatch : Special
  | [.string pattern] =>
    match Pattern.Regex.ofText pattern with
    | some r => .ok (finds r)
    | none => .error (.matchesPattern pattern)
  | _ => .error .matchesArity

/-- What every store knows. -/
def builtin : Specials := .ofList [("MATCHES", regexMatch)]

end Specials

/-- Whether a value compares as wanted with the bound at a place. -/
def comparesWith (values : List Value) (place : Nat) (wanted : Ordering → Bool) (v : Value) :
    Bool :=
  match values[place]? with
  | some bound => (Comparison.order? v bound).any wanted
  | none => false

/-- The test of an operation other than patterns and operations of the store. -/
def compares (op : Operation) (values : List Value) (v : Value) : Bool :=
  match op with
  | .equals => values.head?.any (Comparison.equal v)
  | .notEquals => values.head?.any fun bound => !bound.isNull && !Comparison.equal v bound
  | .greaterThan => comparesWith values 0 (·.isGT) v
  | .greaterEqual => comparesWith values 0 (·.isGE) v
  | .lessThan => comparesWith values 0 (·.isLT) v
  | .lessEqual => comparesWith values 0 (·.isLE) v
  | .between => comparesWith values 0 (·.isGE) v && comparesWith values 1 (·.isLE) v
  | .oneOf => values.any (Comparison.equal v)
  | .like | .special _ => false

/-- A predicate made ready. -/
structure Condition where
  column : ColumnRef
  test : Value → Bool

namespace Condition

def prepare (specials : Specials) (p : Predicate) : Except Fault Condition :=
  match p.operation with
  | .like =>
    match p.values with
    | .string text :: _ =>
      match Pattern.Regex.ofText (Pattern.Wildcard.expression text) with
      | some r => .ok ⟨p.column, finds r⟩
      | none => .error (.likePattern text)
    | _ => .error (.patternMissing p.column.label)
  | .special name =>
    match specials.get? name with
    | some special => (special p.values).map fun test => ⟨p.column, test⟩
    | none => .error (.unsupportedOperation name)
  | op => .ok ⟨p.column, compares op p.values⟩

def holds (c : Condition) : Option Value → Bool
  | none | some .null => false
  | some v => c.test v

end Condition

end Tabulation.Evaluation
