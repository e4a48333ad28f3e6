/-! Finite sets kept as strictly ascending lists, so that equal sets are equal values. -/
namespace Tabulation

/-- A finite set, listed in strictly ascending order. -/
structure OrderedSet (α : Type) [Ord α] where
  toList : List α
  ascending : toList.Pairwise fun a b => compare a b = .lt
deriving DecidableEq

namespace OrderedSet

variable {α : Type} [Ord α]

theorem ext {s t : OrderedSet α} (h : s.toList = t.toList) : s = t := by
  cases s
  cases t
  simp_all

def empty : OrderedSet α := ⟨[], .nil⟩

instance : EmptyCollection (OrderedSet α) := ⟨empty⟩
instance : Inhabited (OrderedSet α) := ⟨empty⟩

/-- Puts `x` before the first larger element; an element that compares equal stays as it is. -/
def insertInto (x : α) : List α → List α
  | [] => [x]
  | y :: ys =>
    match compare x y with
    | .lt => x :: y :: ys
    | .eq => y :: ys
    | .gt => y :: insertInto x ys

theorem mem_of_mem_insertInto {x z : α} {ys : List α} (h : z ∈ insertInto x ys) :
    z = x ∨ z ∈ ys := by
  induction ys with
  | nil => simpa [insertInto] using h
  | cons y ys ih =>
    unfold insertInto at h
    split at h
    · simpa using h
    · exact .inr h
    · rcases List.mem_cons.1 h with rfl | h
      · simp
      · rcases ih h with rfl | h <;> simp_all

theorem insertInto_ascending [Std.TransOrd α] (x : α) (ys : List α)
    (h : ys.Pairwise fun a b => compare a b = .lt) :
    (insertInto x ys).Pairwise fun a b => compare a b = .lt := by
  induction ys with
  | nil => simp [insertInto]
  | cons y ys ih =>
    obtain ⟨hy, hys⟩ := List.pairwise_cons.1 h
    unfold insertInto
    split
    · rename_i hxy
      refine List.pairwise_cons.2 ⟨fun z hz => ?_, h⟩
      rcases List.mem_cons.1 hz with rfl | hz
      · exact hxy
      · exact Std.TransCmp.lt_trans hxy (hy z hz)
    · exact h
    · rename_i hxy
      refine List.pairwise_cons.2 ⟨fun z hz => ?_, ih hys⟩
      rcases mem_of_mem_insertInto hz with rfl | hz
      · exact Std.OrientedCmp.gt_iff_lt.1 hxy
      · exact hy z hz

def insert [Std.TransOrd α] (x : α) (s : OrderedSet α) : OrderedSet α :=
  ⟨insertInto x s.toList, insertInto_ascending x s.toList s.ascending⟩

def ofList [Std.TransOrd α] (xs : List α) : OrderedSet α :=
  xs.foldl (fun s x => s.insert x) empty

def size (s : OrderedSet α) : Nat := s.toList.length

def isEmpty (s : OrderedSet α) : Bool := s.toList.isEmpty

def contains [BEq α] (s : OrderedSet α) (x : α) : Bool := s.toList.contains x

/-- Everything in either set. -/
def union [Std.TransOrd α] (s t : OrderedSet α) : OrderedSet α :=
  t.toList.foldl (fun u x => u.insert x) s

end OrderedSet

end Tabulation
