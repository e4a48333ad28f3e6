/-! Numbers in disjoint trees. Each number has a parent, and a root is its own parent. Whoever looks for a root
halves the way up for those who come after. -/
namespace Tabulation.Catalog.UnionFind

variable {n unions : Nat}

def IsRoot (parent : Vector (Fin n) n) (i : Fin n) : Prop := parent.get i = i

/-- The number that is `k` steps up from `i`; no step leads up from a root. -/
def ancestor (parent : Vector (Fin n) n) : (k : Nat) → (i : Fin n) → Fin n
  | 0, i => i
  | k + 1, i => ancestor parent k (parent.get i)

/-- The parent of `i` becomes the parent of its parent. -/
def halve (parent : Vector (Fin n) n) (i : Fin n) : Vector (Fin n) n := parent.set i (parent.get (parent.get i))

theorem get_set (parent : Vector (Fin n) n) (i j k : Fin n) :
    (parent.set i j).get k = if k = i then j else parent.get k := by
  change (parent.set i j)[k.val] = if k = i then j else parent[k.val]
  rw [Vector.getElem_set]
  simp only [Fin.ext_iff, eq_comm]

theorem ancestor_of_isRoot {parent : Vector (Fin n) n} {i : Fin n} (h : IsRoot parent i) (k : Nat) :
    ancestor parent k i = i := by
  induction k with
  | zero => rfl
  | succ k ih => rw [ancestor, h, ih]

theorem parent_ancestor (parent : Vector (Fin n) n) (k : Nat) (i : Fin n) :
    parent.get (ancestor parent k i) = ancestor parent k (parent.get i) := by
  induction k generalizing i with
  | zero => rfl
  | succ k ih => rw [ancestor, ih, ancestor]

theorem get_halve (parent : Vector (Fin n) n) (i j : Fin n) :
    (halve parent i).get j = if j = i then parent.get (parent.get i) else parent.get j := by
  simp only [halve, get_set]

/-- No way up gets longer when one is halved. -/
theorem isRoot_ancestor_halve {parent : Vector (Fin n) n} (i : Fin n) {k : Nat} {j : Fin n}
    (h : IsRoot parent (ancestor parent k j)) : IsRoot (halve parent i) (ancestor (halve parent i) k j) := by
  induction k generalizing j with
  | zero =>
    have hj : parent.get j = j := h
    simp only [ancestor, IsRoot, get_halve]
    split
    · rename_i hji
      rw [← hji, hj, hj]
    · exact hj
  | succ k ih =>
    rw [ancestor, get_halve]
    split
    · rename_i hji
      -- the way goes on two steps above `i`, where it is no longer than one step above
      subst hji
      apply ih
      rw [ancestor] at h
      rw [← parent_ancestor, h]
      exact h
    · exact ih h

/-- Halving at `i` leaves one step less to go. -/
theorem isRoot_ancestor_pred {parent : Vector (Fin n) n} {i : Fin n} {k : Nat} (hi : parent.get i ≠ i)
    (h : IsRoot parent (ancestor parent k i)) :
    k - 1 < k ∧ IsRoot (halve parent i) (ancestor (halve parent i) (k - 1) ((halve parent i).get i)) := by
  cases k with
  | zero => exact absurd h hi
  | succ k =>
    have hfrom := isRoot_ancestor_halve i (k := k) (j := parent.get (parent.get i)) (by
      rw [ancestor] at h
      rw [← parent_ancestor, h]
      exact h)
    refine ⟨Nat.lt_succ_self k, ?_⟩
    rw [get_halve, if_pos rfl]
    exact hfrom

/-- The trees of `n` numbers after some unions. -/
structure Parents (n unions : Nat) where
  parent : Vector (Fin n) n
  /-- No way up is longer than there were unions. -/
  ends : ∀ i, IsRoot parent (ancestor parent unions i)

namespace Parents

/-- Each number on its own. -/
def singletons (n : Nat) : Parents n 0 where
  parent := Vector.ofFn id
  ends i := by
    change (Vector.ofFn id)[i.val] = i
    simp

def halve (p : Parents n unions) (i : Fin n) : Parents n unions where
  parent := UnionFind.halve p.parent i
  ends j := isRoot_ancestor_halve i (p.ends j)

/-- The root above `i`, which is at most `k` steps away. -/
def findWithin (p : Parents n unions) (i : Fin n) (k : Nat) (h : IsRoot p.parent (ancestor p.parent k i)) :
    Fin n × Parents n unions :=
  if hi : p.parent.get i = i then (i, p)
  else (p.halve i).findWithin ((p.halve i).parent.get i) (k - 1) (isRoot_ancestor_pred hi h).2
termination_by k
decreasing_by exact (isRoot_ancestor_pred hi h).1

/-- The root above `i`, and what halving has left of the ways to it. -/
def find (p : Parents n unions) (i : Fin n) : Fin n × Parents n unions := p.findWithin i unions (p.ends i)

theorem get_halve (p : Parents n unions) (i j : Fin n) :
    (p.halve i).parent.get j = if j = i then p.parent.get (p.parent.get i) else p.parent.get j :=
  UnionFind.get_halve p.parent i j

theorem isRoot_halve {p : Parents n unions} {i j : Fin n} (h : IsRoot p.parent j) : IsRoot (p.halve i).parent j := by
  rw [IsRoot, get_halve]
  split
  · rename_i hji
    rw [← hji, h, h]
  · exact h

theorem isRoot_findWithin {p : Parents n unions} {i : Fin n} {k : Nat}
    (h : IsRoot p.parent (ancestor p.parent k i)) :
    IsRoot (p.findWithin i k h).2.parent (p.findWithin i k h).1 ∧
      ∀ j, IsRoot p.parent j → IsRoot (p.findWithin i k h).2.parent j := by
  induction k generalizing p i with
  | zero =>
    have hi : p.parent.get i = i := h
    rw [findWithin, dif_pos hi]
    exact ⟨hi, fun j hj => hj⟩
  | succ k ih =>
    rw [findWithin]
    split
    · rename_i hi
      exact ⟨hi, fun j hj => hj⟩
    · rename_i hi
      have hroots := ih (p := p.halve i) (isRoot_ancestor_pred hi h).2
      exact ⟨hroots.1, fun j hj => hroots.2 j (isRoot_halve hj)⟩

theorem isRoot_find (p : Parents n unions) (i : Fin n) : IsRoot (p.find i).2.parent (p.find i).1 :=
  (isRoot_findWithin (p.ends i)).1

/-- The root `r` is put below the root `r'`. -/
def join (p : Parents n unions) (r r' : Fin n) (hr' : IsRoot p.parent r') (hne : r ≠ r') :
    Parents n (unions + 1) where
  parent := p.parent.set r r'
  ends i := by
    have hset : ∀ j : Fin n, (p.parent.set r r').get j = if j = r then r' else p.parent.get j :=
      get_set p.parent r r'
    have htop : IsRoot (p.parent.set r r') r' := by
      rw [IsRoot, hset, if_neg (Ne.symm hne), hr']
    -- a way that comes by `r` ends one step further at `r'`
    have hend : ∀ k i, IsRoot p.parent (ancestor p.parent k i) →
        IsRoot (p.parent.set r r') (ancestor (p.parent.set r r') (k + 1) i) := by
      intro k
      induction k with
      | zero =>
        intro i hi
        rw [ancestor, ancestor, hset]
        split
        · exact htop
        · rename_i hir
          have hi' : p.parent.get i = i := hi
          rw [IsRoot, hset, hi', if_neg hir, hi']
      | succ k ih =>
        intro i hi
        rw [ancestor, hset]
        split
        · rw [ancestor_of_isRoot htop]
          exact htop
        · exact ih _ hi
    exact hend unions i (p.ends i)

/-- One tree of the two trees of `i` and `j`; none if they are in one tree already. -/
def union? (p : Parents n unions) (i j : Fin n) : Option (Parents n (unions + 1)) :=
  let (r, p') := p.find i
  let found := p'.find j
  if h : r = found.1 then none
  else some (found.2.join r found.1 (p'.isRoot_find j) h)

end Parents

end Tabulation.Catalog.UnionFind
