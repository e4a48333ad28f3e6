import Tabulation.Json.Value

/-! JSON documents as they stand in a text. A part of a well-formed text can be without a value: a
number beyond all doubles, half of a surrogate pair in a string, or lists and objects that stand too
deep in one another. Such a part does no harm as long as nobody asks for its value. -/
namespace Tabulation.Json

inductive Document where
  | null
  | bool (value : Bool)
  | number (value : Number)
  | string (value : String)
  | array (items : List Document)
  | object (members : List (String × Document))
  /-- A part that is well-formed, but has no value. -/
  | valueless
deriving Inhabited

namespace Value

mutual

/-- The document that writes the value. -/
def document : Value → Document
  | .null => .null
  | .bool b => .bool b
  | .number n => .number n
  | .string s => .string s
  | .array items => .array (itemDocuments items)
  | .object members => .object (memberDocuments members)

def itemDocuments : List Value → List Document
  | [] => []
  | v :: vs => v.document :: itemDocuments vs

def memberDocuments : List (String × Value) → List (String × Document)
  | [] => []
  | (n, v) :: ms => (n, v.document) :: memberDocuments ms

end

end Value

namespace Document

mutual

/-- The value of the document, if all its parts have one. -/
def value? : Document → Option Value
  | .null => some .null
  | .bool b => some (.bool b)
  | .number n => some (.number n)
  | .string s => some (.string s)
  | .array items => (itemValues? items).map .array
  | .object members => (memberValues? members).map .object
  | .valueless => none

def itemValues? : List Document → Option (List Value)
  | [] => some []
  | d :: ds => do return (← d.value?) :: (← itemValues? ds)

def memberValues? : List (String × Document) → Option (List (String × Value))
  | [] => some []
  | (n, d) :: ms => do return (n, ← d.value?) :: (← memberValues? ms)

end

end Document

mutual

theorem Value.value?_document : (v : Value) → v.document.value? = some v
  | .null | .bool _ | .number _ | .string _ => rfl
  | .array items => by
    rw [Value.document, Document.value?, Value.itemValues?_itemDocuments items]
    rfl
  | .object members => by
    rw [Value.document, Document.value?, Value.memberValues?_memberDocuments members]
    rfl

theorem Value.itemValues?_itemDocuments :
    (vs : List Value) → Document.itemValues? (Value.itemDocuments vs) = some vs
  | [] => rfl
  | v :: vs => by
    rw [Value.itemDocuments, Document.itemValues?, Value.value?_document v,
      Value.itemValues?_itemDocuments vs]
    rfl

theorem Value.memberValues?_memberDocuments :
    (ms : List (String × Value)) → Document.memberValues? (Value.memberDocuments ms) = some ms
  | [] => rfl
  | (n, v) :: ms => by
    rw [Value.memberDocuments, Document.memberValues?, Value.value?_document v,
      Value.memberValues?_memberDocuments ms]
    rfl

end

end Tabulation.Json
