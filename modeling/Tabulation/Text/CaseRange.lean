/-! Case mappings that shift runs of code points. -/
namespace Tabulation.Text

/-- Maps every `stride`-th code point from `first` to `last` to the one `shift` away. -/
structure CaseRange where
  first : Nat
  last : Nat
  stride : Nat
  shift : Int

namespace CaseRange

def covers (r : CaseRange) (c : Nat) : Bool :=
  r.first ≤ c ∧ c ≤ r.last ∧ (c - r.first) % r.stride = 0

/-- The image of a code point; one that no range covers is its own image. -/
def image (table : List CaseRange) (c : Nat) : Nat :=
  match table.find? (·.covers c) with
  | some r => ((c : Int) + r.shift).toNat
  | none => c

end CaseRange

end Tabulation.Text
