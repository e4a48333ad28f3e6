import Tabulation.Decimal.Reading

/-! JSON values. Objects are lists of members; `normalized` is the form in which every name
occurs once and names ascend, the form that stored rows and filter values have. -/
namespace Tabulation.Json

/-- An integer is exact; every other number is a double. -/
inductive Number where
  | integer (value : Int)
  | real (value : Float)
deriving DecidableEq, Repr

inductive Value where
  | null
  | bool (value : Bool)
  | number (value : Number)
  | string (value : String)
  | array (items : List Value)
  | object (members : List (String × Value))
deriving Inhabited

/-- The named values of one object. -/
abbrev Members := List (String × Value)

namespace Value

mutual

def decEq : (a b : Value) → Decidable (a = b)
  | .null, .null => isTrue rfl
  | .bool a, .bool b => decidable_of_iff (a = b) (by simp)
  | .number a, .number b => decidable_of_iff (a = b) (by simp)
  | .string a, .string b => decidable_of_iff (a = b) (by simp)
  | .array a, .array b =>
    match decEqItems a b with
    | isTrue h => isTrue (by rw [h])
    | isFalse h => isFalse (by simpa using h)
  | .object a, .object b =>
    match decEqMembers a b with
    | isTrue h => isTrue (by rw [h])
    | isFalse h => isFalse (by simpa using h)
  | .null, .bool _ | .null, .number _ | .null, .string _ | .null, .array _ | .null, .object _
  | .bool _, .null | .bool _, .number _ | .bool _, .string _ | .bool _, .array _
  | .bool _, .object _
  | .number _, .null | .number _, .bool _ | .number _, .string _ | .number _, .array _
  | .number _, .object _
  | .string _, .null | .string _, .bool _ | .string _, .number _ | .string _, .array _
  | .string _, .object _
  | .array _, .null | .array _, .bool _ | .array _, .number _ | .array _, .string _
  | .array _, .object _
  | .object _, .null | .object _, .bool _ | .object _, .number _ | .object _, .string _
  | .object _, .array _ => isFalse nofun

def decEqItems : (a b : List Value) → Decidable (a = b)
  | [], [] => isTrue rfl
  | [], _ :: _ => isFalse nofun
  | _ :: _, [] => isFalse nofun
  | a :: as, b :: bs =>
    match decEq a b, decEqItems as bs with
    | isTrue h, isTrue hs => isTrue (by rw [h, hs])
    | isFalse h, _ => isFalse fun e => h (List.cons.inj e).1
    | _, isFalse hs => isFalse fun e => hs (List.cons.inj e).2

def decEqMembers : (a b : List (String × Value)) → Decidable (a = b)
  | [], [] => isTrue rfl
  | [], _ :: _ => isFalse nofun
  | _ :: _, [] => isFalse nofun
  | (m, a) :: as, (n, b) :: bs =>
    match decEq a b, decEqMembers as bs, (inferInstance : Decidable (m = n)) with
    | isTrue h, isTrue hs, isTrue hn => isTrue (by rw [h, hs, hn])
    | isFalse h, _, _ => isFalse fun e => h (Prod.mk.inj (List.cons.inj e).1).2
    | _, isFalse hs, _ => isFalse fun e => hs (List.cons.inj e).2
    | _, _, isFalse hn => isFalse fun e => hn (Prod.mk.inj (List.cons.inj e).1).1

end

instance : DecidableEq Value := decEq

def isNull : Value → Bool
  | .null => true
  | _ => false

def ofInt (n : Int) : Value := .number (.integer n)

def ofInt64 (n : Int64) : Value := ofInt n.toInt

def ofNat (n : Nat) : Value := .number (.integer n)

/-- A double as a value; what is not finite has no written form and becomes null. -/
def ofFloat (x : Float) : Value := if x.isFinite then .number (.real x) else .null

def text? : Value → Option String
  | .string s => some s
  | _ => none

/-- The integer that a value holds, if it is one of 64 bits with a sign. -/
def int64? : Value → Option Int64
  | .number (.integer n) => Decimal.int64? n
  | _ => none

/-- The integer that a value holds, if it is one of 64 bits without a sign. -/
def nat64? : Value → Option Nat
  | .number (.integer n) => if 0 ≤ n ∧ n < UInt64.size then some n.toNat else none
  | _ => none

end Value

/-- Enters a member by name: before the first larger name, in place of an equal one. -/
def Members.enter (name : String) (value : Value) : Members → Members
  | [] => [(name, value)]
  | m :: ms =>
    match compare name m.1 with
    | .lt => (name, value) :: m :: ms
    | .eq => (name, value) :: ms
    | .gt => m :: Members.enter name value ms

/-- The value of that name; of several the first. -/
def Members.get? (members : Members) (name : String) : Option Value := members.lookup name

namespace Value

mutual

/-- Every name once, the last value counting, and names in ascending order, at every depth. -/
def normalized : Value → Value
  | .array items => .array (normalizedItems items)
  | .object members => .object (normalizedMembers [] members)
  | v => v

def normalizedItems : List Value → List Value
  | [] => []
  | v :: vs => v.normalized :: normalizedItems vs

/-- Enters the members one after the other into those entered before. -/
def normalizedMembers (entered : Members) : List (String × Value) → Members
  | [] => entered
  | (n, v) :: ms => normalizedMembers (Members.enter n v.normalized entered) ms

end

end Value

end Tabulation.Json
