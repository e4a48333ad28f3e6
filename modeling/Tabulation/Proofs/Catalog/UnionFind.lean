import Mathlib.Tactic.Lemma
import Mathlib.Tactic.SplitIfs
import Tabulation.Catalog.UnionFind

/-! Two numbers are in one tree if they are below the same root. Looking for a root moves none; a union gives the one
tree the root of the other. -/
namespace Tabulation.Catalog.UnionFind.Parents

variable {n unions : Nat} {p : Parents n unions} {i j : Fin n}

/-- The root above `i`. -/
def root (p : Parents n unions) (i : Fin n) : Fin n := ancestor p.parent unions i

lemma root_of_isRoot (h : IsRoot p.parent i) : p.root i = i := ancestor_of_isRoot h unions

lemma root_parent (p : Parents n unions) (i : Fin n) : p.root (p.parent.get i) = p.root i := by
  rw [root, ← parent_ancestor]
  exact p.ends i

/-- What is the same one step up, and names the roots, names them for all below. -/
lemma root_eq_of_step {f : Fin n → Fin n} (step : ∀ j, f (p.parent.get j) = f j)
    (top : ∀ j, IsRoot p.parent j → f j = j) (i : Fin n) : p.root i = f i := by
  have hway : ∀ k i, f (ancestor p.parent k i) = f i := by
    intro k
    induction k with
    | zero => exact fun _ => rfl
    | succ k ih => exact fun i => (ih _).trans (step i)
  rw [← hway unions i]
  exact (top _ (p.ends i)).symm

/-- No way up comes back to where it was. -/
lemma isRoot_of_grandparent (p : Parents n unions) (h : p.parent.get (p.parent.get i) = i) : IsRoot p.parent i := by
  have hback : ∀ k j, IsRoot p.parent (ancestor p.parent k j) → p.parent.get (p.parent.get j) = j →
      p.parent.get j = j := by
    intro k
    induction k with
    | zero => exact fun j hj _ => hj
    | succ k ih =>
      intro j hj hjj
      have := ih _ hj (congrArg _ hjj)
      exact this.symm.trans hjj
  exact hback unions i (p.ends i) h

theorem root_halve (p : Parents n unions) (i j : Fin n) : (p.halve i).root j = p.root j := by
  refine root_eq_of_step (fun j => ?_) (fun j hj => root_of_isRoot ?_) j
  · rw [get_halve]
    split_ifs with hji
    · rw [root_parent, root_parent, hji]
    · exact root_parent p j
  · have hget := get_halve p i j
    rw [show (p.halve i).parent.get j = j from hj] at hget
    split_ifs at hget with hji
    · subst hji
      exact isRoot_of_grandparent p hget.symm
    · exact hget.symm

theorem findWithin_eq {k : Nat} (h : IsRoot p.parent (ancestor p.parent k i)) :
    (p.findWithin i k h).1 = p.root i ∧ ∀ j, (p.findWithin i k h).2.root j = p.root j := by
  induction k generalizing p i with
  | zero =>
    have hi : p.parent.get i = i := h
    rw [findWithin, dif_pos hi]
    exact ⟨(root_of_isRoot hi).symm, fun _ => rfl⟩
  | succ k ih =>
    rw [findWithin]
    split
    · rename_i hi
      exact ⟨(root_of_isRoot hi).symm, fun _ => rfl⟩
    · rename_i hi
      obtain ⟨hroot, hroots⟩ := ih (p := p.halve i) (isRoot_ancestor_pred hi h).2
      exact ⟨hroot.trans ((root_parent _ _).trans (root_halve p i i)),
        fun j => (hroots j).trans (root_halve p i j)⟩

/-- The loop goes on as long as there is a parent, whatever is known of the length of the way. -/
theorem find_eq (p : Parents n unions) (i : Fin n) :
    p.find i = if p.parent.get i = i then (i, p) else (p.halve i).find ((p.halve i).parent.get i) := by
  have hbound : ∀ (k m : Nat) (p : Parents n unions) (i : Fin n) (hk : IsRoot p.parent (ancestor p.parent k i))
      (hm : IsRoot p.parent (ancestor p.parent m i)), p.findWithin i k hk = p.findWithin i m hm := by
    intro k
    induction k with
    | zero =>
      intro m p i hk hm
      have hi : p.parent.get i = i := hk
      rw [findWithin, findWithin, dif_pos hi, dif_pos hi]
    | succ k ih =>
      intro m p i hk hm
      rw [findWithin, findWithin.eq_def p i m]
      split_ifs with hi
      · rfl
      · exact ih (m - 1) (p.halve i) _ _ _
  rw [find, findWithin]
  split_ifs
  · rfl
  · exact hbound ..

lemma find_root (p : Parents n unions) (i : Fin n) : (p.find i).1 = p.root i := (findWithin_eq (p.ends i)).1

lemma root_find (p : Parents n unions) (i j : Fin n) : (p.find i).2.root j = p.root j :=
  (findWithin_eq (p.ends i)).2 j

lemma isRoot_find_of_isRoot (i : Fin n) (h : IsRoot p.parent j) : IsRoot (p.find i).2.parent j :=
  (isRoot_findWithin (p.ends i)).2 j h

lemma root_join {r r' : Fin n} (hr : IsRoot p.parent r) (hr' : IsRoot p.parent r') (hne : r ≠ r') (i : Fin n) :
    (p.join r r' hr' hne).root i = if p.root i = r then r' else p.root i := by
  have hget : ∀ j, (p.join r r' hr' hne).parent.get j = if j = r then r' else p.parent.get j := get_set p.parent r r'
  refine root_eq_of_step (f := fun j => if p.root j = r then r' else p.root j) (fun j => ?_) (fun j hj => ?_) i
  · rw [hget]
    by_cases hjr : j = r
    · rw [hjr, if_pos rfl, root_of_isRoot hr', root_of_isRoot hr, if_neg hne.symm, if_pos rfl]
    · rw [if_neg hjr, root_parent]
  · have hj' := hget j
    rw [show (p.join r r' hr' hne).parent.get j = j from hj] at hj'
    split_ifs at hj' with hjr
    · exact absurd (hjr.symm.trans hj') hne
    · simp only [root_of_isRoot hj'.symm, if_neg hjr]

/-- There is a union if and only if the two are in different trees. Then what was below the root of the one is below
that of the other. -/
theorem union?_spec (p : Parents n unions) (i j : Fin n) :
    ((∃ q, p.union? i j = some q) ↔ p.root i ≠ p.root j) ∧
      ∀ q, p.union? i j = some q → ∀ m, q.root m = if p.root m = p.root i then p.root j else p.root m := by
  have hj : ((p.find i).2.find j).1 = p.root j := (find_root _ _).trans (root_find p i j)
  unfold union?
  simp only
  split
  · rename_i hsame
    rw [find_root, hj] at hsame
    simp [hsame]
  · rename_i hne
    refine ⟨⟨fun _ => ?_, fun _ => ⟨_, rfl⟩⟩, ?_⟩
    · rwa [find_root, hj] at hne
    · rintro q hq m
      cases hq
      rw [root_join (isRoot_find_of_isRoot j (p.isRoot_find i)), root_find, root_find, find_root, hj]

end Tabulation.Catalog.UnionFind.Parents
