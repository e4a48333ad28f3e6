import Mathlib.Data.List.Basic
import Mathlib.Data.List.Forall2
import Mathlib.Data.List.Induction
import Mathlib.Tactic.Lemma
import Mathlib.Tactic.Tauto
import Tabulation.Evaluation.Grouping

/-! Grouping by a key: the groups stand in the order of their first elements, and each of them holds
all elements of its key. -/
namespace Tabulation.Evaluation

variable {α β : Type}

/-- The first element of every key. -/
def firsts (key : α → String) : List α → List α
  | [] => []
  | x :: xs => x :: (firsts key xs).filter fun y => key y ≠ key x

variable {key : α → String}

lemma firsts_subset (key : α → String) (xs : List α) : firsts key xs ⊆ xs := by
  induction xs with
  | nil => simp [firsts]
  | cons x xs ih =>
    exact List.cons_subset_cons x fun y hy => ih (List.mem_filter.1 hy).1

lemma exists_mem_firsts (key : α → String) {xs : List α} {x : α} (hx : x ∈ xs) :
    ∃ y ∈ firsts key xs, key y = key x := by
  induction xs with
  | nil => simp at hx
  | cons z xs ih =>
    by_cases hz : key z = key x
    · exact ⟨z, List.mem_cons_self, hz⟩
    · rcases List.mem_cons.1 hx with rfl | hx
      · exact absurd rfl hz
      · obtain ⟨y, hy, hyx⟩ := ih hx
        refine ⟨y, List.mem_cons_of_mem _ (List.mem_filter.2 ⟨hy, ?_⟩), hyx⟩
        simpa [hyx] using fun h => hz h.symm

lemma firsts_append (key : α → String) (xs ys : List α) :
    firsts key (xs ++ ys) =
      firsts key xs ++ (firsts key ys).filter fun y => ∀ x ∈ xs, key x ≠ key y := by
  induction xs with
  | nil =>
    have hall : ∀ y ∈ firsts key ys, (decide (∀ x ∈ ([] : List α), key x ≠ key y)) = true := by simp
    rw [List.filter_eq_self.2 hall]
    rfl
  | cons x xs ih =>
    simp only [List.cons_append, firsts, ih, List.filter_append, List.filter_filter,
      List.cons_append]
    congr 2
    apply List.filter_congr
    intro y _
    rw [Bool.eq_iff_iff]
    simp only [Bool.and_eq_true, decide_eq_true_eq, List.mem_cons, forall_eq_or_imp]
    exact and_congr_left' ne_comm

lemma firsts_append_singleton (key : α → String) (xs : List α) (x : α) :
    firsts key (xs ++ [x]) =
      if ∀ y ∈ xs, key y ≠ key x then firsts key xs ++ [x] else firsts key xs := by
  rw [firsts_append, firsts, firsts, List.filter_nil]
  split_ifs with h
  · rw [List.filter_cons_of_pos (by simpa using h), List.filter_nil]
  · rw [List.filter_cons_of_neg (by simpa using h), List.filter_nil, List.append_nil]

lemma firsts_pairwise (key : α → String) (xs : List α) :
    (firsts key xs).Pairwise fun x y => key x ≠ key y := by
  induction xs with
  | nil => exact .nil
  | cons x xs ih =>
    refine List.pairwise_cons.2 ⟨fun y hy => ?_, ih.filter _⟩
    exact (by simpa using (List.mem_filter.1 hy).2 : key y ≠ key x).symm

lemma firsts_eq_self {xs : List α} (h : xs.Pairwise fun x y => key x ≠ key y) :
    firsts key xs = xs := by
  induction xs with
  | nil => rfl
  | cons x xs ih =>
    obtain ⟨hx, hxs⟩ := List.pairwise_cons.1 h
    rw [firsts, ih hxs, List.filter_eq_self.2]
    intro y hy
    simpa using (hx y hy).symm

lemma firsts_of_same {xs : List α} {x : α} (h : ∀ y ∈ xs, key y = key x) :
    firsts key (x :: xs) = [x] := by
  rw [firsts, List.filter_eq_nil_iff.2]
  intro y hy
  simp [h y (firsts_subset key xs hy)]

lemma firsts_map (key : β → String) (f : α → β) (xs : List α) :
    (firsts (fun x => key (f x)) xs).map f = firsts key (xs.map f) := by
  induction xs with
  | nil => rfl
  | cons x xs ih =>
    simp only [firsts, List.map_cons, ← ih, List.filter_map]
    rfl

lemma forall₂_firsts {R : α → β → Prop} {key' : β → String} (h : ∀ x y, R x y → key x = key' y)
    {xs : List α} {ys : List β} (hxy : List.Forall₂ R xs ys) :
    List.Forall₂ R (firsts key xs) (firsts key' ys) := by
  induction hxy with
  | nil => exact .nil
  | cons hr _ ih =>
    refine .cons hr (List.rel_filter (fun a b hab => ?_) ih)
    simp [h _ _ hab, h _ _ hr]

lemma filter_firsts (key : α → String) (xs : List α) (text : String) :
    (firsts key xs).filter (fun x => key x = text) =
      (xs.filter fun x => key x = text).head?.toList := by
  induction xs with
  | nil => rfl
  | cons x xs ih =>
    simp only [firsts, List.filter_cons, List.filter_filter]
    by_cases hx : key x = text
    · simp [hx]
    · rw [if_neg (by simpa using hx), if_neg (by simpa using hx), ← ih]
      apply List.filter_congr
      intro y _
      rw [Bool.eq_iff_iff]
      simp only [Bool.and_eq_true, decide_eq_true_eq]
      exact ⟨And.left, fun h => ⟨h, fun e => hx (e ▸ h)⟩⟩

/-- Keys that tell the same elements apart have the same first elements. -/
lemma firsts_congr {key' : α → String} (h : ∀ x y, key x = key y ↔ key' x = key' y) (xs : List α) :
    firsts key xs = firsts key' xs := by
  induction xs with
  | nil => rfl
  | cons x xs ih =>
    rw [firsts, firsts, ih]
    congr 1
    exact List.filter_congr fun y _ => by simp only [ne_eq, h y x]

/-- Where elements of one key are picked out together, it makes no difference when. -/
lemma firsts_filter {p : α → Bool} (h : ∀ x y, key x = key y → p x = p y) (xs : List α) :
    firsts key (xs.filter p) = (firsts key xs).filter p := by
  induction xs with
  | nil => rfl
  | cons x xs ih =>
    cases hx : p x with
    | true =>
      rw [List.filter_cons_of_pos hx, firsts, firsts, List.filter_cons_of_pos hx, ih, List.filter_comm]
    | false =>
      rw [List.filter_cons_of_neg (by simp [hx]), firsts, List.filter_cons_of_neg (by simp [hx]), ih,
        List.filter_filter]
      refine List.filter_congr fun y _ => ?_
      -- what is picked out has another key than the head
      cases hy : p y with
      | false => rfl
      | true =>
        have hne : key y ≠ key x := fun he => by
          rw [h y x he, hx] at hy
          cases hy
        simp [hne]

/-- What comes first in every part comes first in the whole. -/
theorem firsts_flatMap_firsts (key : β → String) (f : α → List β) (xs : List α) :
    firsts key (xs.flatMap fun x => firsts key (f x)) = firsts key (xs.flatMap f) := by
  induction xs with
  | nil => rfl
  | cons x xs ih =>
    rw [List.flatMap_cons, List.flatMap_cons, firsts_append, firsts_append, ih,
      firsts_eq_self (firsts_pairwise key (f x))]
    congr 1
    apply List.filter_congr
    intro y _
    rw [Bool.eq_iff_iff]
    simp only [decide_eq_true_eq]
    refine ⟨fun h z hz => ?_, fun h z hz => h z (firsts_subset key _ hz)⟩
    obtain ⟨w, hw, hwz⟩ := exists_mem_firsts key hz
    exact hwz ▸ h w hw

/-- What has been gathered from a list under a key: the first element, and the latest of the others
first. -/
def gathered (key : α → String) (xs : List α) (text : String) : Option (Group α) :=
  match xs.filter fun x => key x = text with
  | [] => none
  | x :: others => some ⟨x, others.reverse⟩

lemma gathered_append_singleton (xs : List α) (x : α) (text : String) :
    gathered key (xs ++ [x]) text =
      if key x = text then
        match gathered key xs text with
        | none => some ⟨x, []⟩
        | some g => some ⟨g.first, x :: g.others⟩
      else gathered key xs text := by
  unfold gathered
  rw [List.filter_append]
  by_cases hx : key x = text
  · cases xs.filter fun x => key x = text <;> simp [hx]
  · simp [hx]

lemma gathered_eq_none {xs : List α} {text : String} :
    gathered key xs text = none ↔ ∀ x ∈ xs, key x ≠ text := by
  unfold gathered
  split
  · rename_i hnil
    simpa using hnil
  · rename_i x others hcons
    have hx : x ∈ xs.filter fun x => key x = text := hcons ▸ List.mem_cons_self
    rw [List.mem_filter, decide_eq_true_eq] at hx
    simp only [reduceCtorEq, false_iff]
    exact fun h => h x hx.1 hx.2

lemma foldl_gathered (key : α → String) (xs : List α) :
    (xs.foldl (Gathered.add key) {}).keys.reverse = (firsts key xs).map key ∧
      ∀ text, (xs.foldl (Gathered.add key) {}).groups[text]? = gathered key xs text := by
  induction xs using List.reverseRecOn with
  | nil => exact ⟨rfl, fun text => by simp [gathered]⟩
  | append_singleton xs x ih =>
    obtain ⟨hkeys, hgroups⟩ := ih
    rw [List.foldl_append, List.foldl_cons, List.foldl_nil, firsts_append_singleton]
    generalize xs.foldl (Gathered.add key) {} = g at hkeys hgroups ⊢
    unfold Gathered.add
    rw [hgroups]
    cases hx : gathered key xs (key x) with
    | none =>
      rw [if_pos (gathered_eq_none.1 hx)]
      refine ⟨by simp [hkeys], fun text => ?_⟩
      rw [gathered_append_singleton, Std.HashMap.getElem?_insert]
      by_cases ht : key x = text
      · subst ht
        simp [hx]
      · simp [ht, hgroups]
    | some group =>
      rw [if_neg (by rw [← gathered_eq_none, hx]; simp)]
      refine ⟨hkeys, fun text => ?_⟩
      rw [gathered_append_singleton, Std.HashMap.getElem?_insert]
      by_cases ht : key x = text
      · subst ht
        simp [hx]
      · simp [ht, hgroups]

/-- The elements that share the key of one of them, as a group. -/
def groupOf (key : α → String) (xs : List α) (x : α) : Group α :=
  ⟨x, (xs.filter fun y => key y = key x).tail⟩

lemma filter_of_mem_firsts {xs : List α} {x : α} (hx : x ∈ firsts key xs) :
    ∃ others, (xs.filter fun y => key y = key x) = x :: others := by
  have hmem : x ∈ (firsts key xs).filter fun y => key y = key x := by simpa using hx
  rw [filter_firsts] at hmem
  cases hxs : xs.filter fun y => key y = key x with
  | nil => simp [hxs] at hmem
  | cons y others =>
    have hxy : x = y := by simpa [hxs] using hmem
    exact ⟨others, by rw [hxy]⟩

lemma toList_groupOf_head {xs ys : List α} {x : α} {text : String}
    (h : (xs.filter fun y => key y = text) = x :: ys) : (groupOf key xs x).toList = x :: ys := by
  have hx : x ∈ xs.filter fun y => key y = text := h ▸ List.mem_cons_self
  rw [groupOf, Group.toList, of_decide_eq_true (List.mem_filter.1 hx).2, h, List.tail_cons]

lemma toList_groupOf {xs : List α} {x : α} (hx : x ∈ firsts key xs) :
    (groupOf key xs x).toList = xs.filter fun y => key y = key x := by
  obtain ⟨others, hothers⟩ := filter_of_mem_firsts hx
  rw [toList_groupOf_head hothers, hothers]

theorem groupBy_eq (key : α → String) (xs : List α) :
    groupBy key xs = (firsts key xs).map (groupOf key xs) := by
  obtain ⟨hkeys, hgroups⟩ := foldl_gathered key xs
  unfold groupBy Gathered.toList
  simp only [hkeys, hgroups, List.filterMap_map]
  rw [← List.filterMap_eq_map]
  apply List.filterMap_congr
  intro x hx
  obtain ⟨others, hothers⟩ := filter_of_mem_firsts hx
  simp [gathered, groupOf, hothers]

end Tabulation.Evaluation
