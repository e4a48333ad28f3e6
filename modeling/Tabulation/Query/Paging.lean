import Tabulation.Sorting.Criteria

/-! A request for one page of a result. -/
namespace Tabulation.Query
open Json (Value Reader required optional)

/-- Sizes and positions are numbers of 64 bits. -/
def maxSize : Nat := UInt64.size - 1

structure Paging where
  /-- The number of the page, from 0 on. -/
  page : UInt64
  size : UInt64
  /-- What the result is sorted by after the query's own orderings. -/
  sort : Sorting.Criteria := []
deriving DecidableEq, Repr

namespace Paging

/-- The position of the first tuple, if 64 bits hold it. -/
def offset? (p : Paging) : Option Nat :=
  let offset := p.page.toNat * p.size.toNat
  if offset ≤ maxSize then some offset else none

/-- The position behind a page that begins at `start`, or the largest one that 64 bits hold. -/
def stop (p : Paging) (start : Nat) : Nat := min (start + p.size.toNat) maxSize

def toJson (p : Paging) : Value :=
  .object [("page", .ofNat p.page.toNat), ("size", .ofNat p.size.toNat),
    ("sort", p.sort.toJson)]

def reader : Reader Paging := fun d =>
  match d.fields? ["page", "size", "sort"] with
  | some [page, size, sort] => do
    return ⟨← required .uint64 page, ← required .uint64 size,
      ← optional [] Sorting.Criteria.reader sort⟩
  | _ => none

end Paging

end Tabulation.Query
