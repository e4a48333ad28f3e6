import Mathlib.Data.List.Induction
import Mathlib.Data.List.Nodup
import Mathlib.Tactic.Lemma
import Mathlib.Tactic.SplitIfs
import Mathlib.Tactic.Tauto
import Tabulation.Ordered.Map
import Tabulation.Ordered.Set

/-! What sorting by a comparison keeps, what changing one value of a finite map does to its entries, and what a
finite map or set is known by. -/
namespace Tabulation

section

variable {α : Type} (cmp : α → α → Ordering) [Std.TransCmp cmp]

lemma isLE_total (a b : α) : (cmp a b).isLE || (cmp b a).isLE := by
  have hswap : cmp b a = (cmp a b).swap := Std.OrientedCmp.eq_swap
  rw [hswap]
  cases cmp a b <;> rfl

lemma pairwise_mergeSort (xs : List α) :
    (xs.mergeSort fun a b => (cmp a b).isLE).Pairwise fun a b => (cmp a b).isLE :=
  List.pairwise_mergeSort (fun _ _ _ => Std.TransCmp.isLE_trans) (isLE_total cmp) xs

/-- What compares equal to one element compares equal to each other. It is in order as it is, and sorting keeps
what is in order. -/
lemma filter_mergeSort (xs : List α) (a : α) :
    (xs.mergeSort fun a b => (cmp a b).isLE).filter (fun b => cmp a b = .eq) =
      xs.filter fun b => cmp a b = .eq := by
  have hordered : (xs.filter fun b => cmp a b = .eq).Pairwise fun b c => (cmp b c).isLE := by
    refine List.pairwise_filter.2 (List.pairwise_of_forall fun b c hb hc => ?_)
    rw [decide_eq_true_eq] at hb hc
    rw [← Std.TransCmp.congr_left hb, hc]
    rfl
  have hsub := List.sublist_mergeSort (fun _ _ _ => Std.TransCmp.isLE_trans) (isLE_total cmp) hordered
    List.filter_sublist
  have hfilter := hsub.filter fun b => cmp a b = .eq
  simp only [List.filter_filter, Bool.and_self] at hfilter
  exact (hfilter.eq_of_length ((List.mergeSort_perm _ _).filter _).length_eq.symm).symm

end

end Tabulation

namespace Tabulation.OrderedMap

variable {κ α : Type} [Ord κ] [Std.TransOrd κ] [Std.LawfulEqOrd κ]

lemma alterIn_cases (k : κ) (f : Option α → α) {es : List (κ × α)}
    (h : es.Pairwise fun a b => compare a.1 b.1 = .lt) :
    (∃ before a after, es = before ++ (k, a) :: after ∧
        alterIn k f es = before ++ (k, f (some a)) :: after) ∨
      ∃ before after, es = before ++ after ∧ alterIn k f es = before ++ (k, f none) :: after ∧
        ∀ e ∈ es, e.1 ≠ k := by
  induction es with
  | nil => exact .inr ⟨[], [], rfl, rfl, by simp⟩
  | cons e es ih =>
    obtain ⟨he, hes⟩ := List.pairwise_cons.1 h
    unfold alterIn
    cases hk : compare k e.1 with
    | lt =>
      refine .inr ⟨[], e :: es, rfl, rfl, fun z hz hzk => ?_⟩
      subst hzk
      rcases List.mem_cons.1 hz with rfl | hz
      · simp [Std.ReflCmp.compare_self] at hk
      · have := Std.TransCmp.lt_trans hk (he z hz)
        simp [Std.ReflCmp.compare_self] at this
    | eq =>
      have hke := Std.LawfulEqOrd.eq_of_compare hk
      exact .inl ⟨[], e.2, es, by simp [hke], by simp [hke]⟩
    | gt =>
      rcases ih hes with ⟨before, a, after, rfl, hr⟩ | ⟨before, after, rfl, hr, hne⟩
      · exact .inl ⟨e :: before, a, after, rfl, by simp [hr]⟩
      · refine .inr ⟨e :: before, after, rfl, by simp [hr], fun z hz hzk => ?_⟩
        rcases List.mem_cons.1 hz with rfl | hz
        · rw [hzk] at hk
          simp [Std.ReflCmp.compare_self] at hk
        · exact hne z hz hzk

theorem entries_alter_cases (m : OrderedMap κ α) (k : κ) (f : Option α → α) :
    (∃ before a after, m.entries = before ++ (k, a) :: after ∧
        (m.alter k f).entries = before ++ (k, f (some a)) :: after) ∨
      ∃ before after, m.entries = before ++ after ∧
        (m.alter k f).entries = before ++ (k, f none) :: after ∧ ∀ e ∈ m.entries, e.1 ≠ k :=
  alterIn_cases k f m.ascending

theorem mem_insert {m : OrderedMap κ α} {k : κ} {a : α} {e : κ × α}
    (h : e ∈ (m.insert k a).entries) : e = (k, a) ∨ e ∈ m.entries := by
  rcases entries_alter_cases m k fun _ => a with ⟨before, b, after, he, hr⟩ | ⟨before, after, he, hr, -⟩
  all_goals
    rw [insert, hr] at h
    rw [he]
    simp only [List.mem_append, List.mem_cons] at h ⊢
    tauto

omit [Std.TransOrd κ] in
theorem keys_nodup (m : OrderedMap κ α) : (m.entries.map (·.1)).Nodup := by
  rw [List.Nodup, List.pairwise_map]
  refine m.ascending.imp fun h he => ?_
  rw [he] at h
  simp [Std.ReflCmp.compare_self] at h

variable [BEq κ] [LawfulBEq κ]

omit [Std.TransOrd κ] in
lemma get?_eq_some_iff {m : OrderedMap κ α} {k : κ} {a : α} :
    m.get? k = some a ↔ (k, a) ∈ m.entries := by
  unfold get?
  rw [List.lookup_eq_some_iff]
  constructor
  · rintro ⟨before, after, he, -⟩
    rw [he]
    simp
  · intro h
    obtain ⟨before, after, he⟩ := List.append_of_mem h
    have hnodup := m.keys_nodup
    rw [he, List.map_append, List.map_cons, List.nodup_append] at hnodup
    refine ⟨before, after, he, fun e hbefore => ?_⟩
    have hne : e.1 ≠ k := hnodup.2.2 e.1 (List.mem_map.2 ⟨e, hbefore, rfl⟩) k List.mem_cons_self
    simpa [bne_iff_ne] using hne.symm

theorem get?_alter (m : OrderedMap κ α) (k : κ) (f : Option α → α) (wanted : κ) [DecidableEq κ] :
    (m.alter k f).get? wanted = if wanted = k then some (f (m.get? k)) else m.get? wanted := by
  -- the entries of other keys stay
  have hother : wanted ≠ k → ∀ a, (wanted, a) ∈ (m.alter k f).entries ↔ (wanted, a) ∈ m.entries := by
    intro hne a
    rcases entries_alter_cases m k f with ⟨before, b, after, he, hr⟩ | ⟨before, after, he, hr, -⟩
    all_goals
      rw [hr, he]
      simp [hne]
  split_ifs with hk
  · subst hk
    rw [get?_eq_some_iff]
    rcases entries_alter_cases m wanted f with ⟨before, b, after, he, hr⟩ | ⟨before, after, he, hr, hnot⟩
    · have hb : m.get? wanted = some b := get?_eq_some_iff.2 (by rw [he]; simp)
      rw [hb, hr]
      simp
    · have hnone : m.get? wanted = none := by
        rw [Option.eq_none_iff_forall_ne_some]
        exact fun a ha => hnot _ (get?_eq_some_iff.1 ha) rfl
      rw [hnone, hr]
      simp
  · apply Option.ext
    intro a
    rw [get?_eq_some_iff, get?_eq_some_iff, hother hk]

omit [Std.TransOrd κ] in
/-- Other keys keep their values when one is taken out. -/
theorem get?_erase (m : OrderedMap κ α) (k wanted : κ) [DecidableEq κ] :
    (m.erase k).get? wanted = if wanted = k then none else m.get? wanted := by
  apply Option.ext
  intro a
  have hmem : (wanted, a) ∈ (m.erase k).entries ↔ (wanted, a) ∈ m.entries ∧ wanted ≠ k := by
    rw [erase, List.mem_filter, bne_iff_ne]
  rw [get?_eq_some_iff, hmem]
  split_ifs with hk
  · simp [hk]
  · rw [get?_eq_some_iff, and_iff_left hk]

omit [Std.TransOrd κ] in
lemma mem_keys_iff {m : OrderedMap κ α} {k : κ} : k ∈ m.keys ↔ (m.get? k).isSome := by
  rw [Option.isSome_iff_exists, keys, List.mem_map]
  simp only [get?_eq_some_iff]
  constructor
  · rintro ⟨e, he, rfl⟩
    exact ⟨e.2, he⟩
  · rintro ⟨a, ha⟩
    exact ⟨_, ha, rfl⟩

/-- A map is known by the values at its keys. -/
theorem ext_of_get? {m n : OrderedMap κ α} (h : ∀ k, m.get? k = n.get? k) : m = n := by
  have hirrefl : ∀ k : κ, compare k k ≠ .lt := fun k hk => by
    simp [Std.ReflCmp.compare_self] at hk
  have hmem : ∀ e, e ∈ m.entries ↔ e ∈ n.entries := fun e => by
    rw [← get?_eq_some_iff (m := m), ← get?_eq_some_iff (m := n), h]
  have hnodup := fun u : OrderedMap κ α => List.Nodup.of_map _ u.keys_nodup
  apply ext
  refine List.Perm.eq_of_pairwise (fun a b _ _ hab hba => ?_) m.ascending n.ascending
    ((List.perm_ext_iff_of_nodup (hnodup m) (hnodup n)).2 hmem)
  exact absurd (Std.TransCmp.lt_trans hab hba) (hirrefl a.1)

end Tabulation.OrderedMap

namespace Tabulation.OrderedSet

variable {α : Type} [Ord α] [Std.LawfulEqOrd α]

lemma mem_insertInto {x z : α} {ys : List α} : z ∈ insertInto x ys ↔ z = x ∨ z ∈ ys := by
  refine ⟨mem_of_mem_insertInto, fun h => ?_⟩
  induction ys with
  | nil => simpa [insertInto] using h
  | cons y ys ih =>
    unfold insertInto
    cases hxy : compare x y with
    | lt => simpa using h
    | eq =>
      have := Std.LawfulEqOrd.eq_of_compare hxy
      subst this
      simpa using h
    | gt =>
      simp only [List.mem_cons] at h ⊢
      tauto

variable [Std.TransOrd α]

lemma mem_insert {x z : α} {s : OrderedSet α} : z ∈ (s.insert x).toList ↔ z = x ∨ z ∈ s.toList :=
  mem_insertInto

lemma mem_union {s t : OrderedSet α} {z : α} :
    z ∈ (s.union t).toList ↔ z ∈ s.toList ∨ z ∈ t.toList := by
  have hfold : ∀ (xs : List α) (u : OrderedSet α),
      z ∈ (xs.foldl (fun u x => u.insert x) u).toList ↔ z ∈ u.toList ∨ z ∈ xs := by
    intro xs
    induction xs with
    | nil => simp
    | cons x xs ih =>
      intro u
      rw [List.foldl_cons, ih, mem_insert, List.mem_cons]
      tauto
  exact hfold t.toList s

omit [Std.LawfulEqOrd α] in
lemma not_lt_self (x : α) : compare x x ≠ .lt := fun h => by
  simp [Std.ReflCmp.compare_self] at h

omit [Std.LawfulEqOrd α] in
lemma nodup (s : OrderedSet α) : s.toList.Nodup := by
  refine s.ascending.imp ?_
  rintro x y hxy rfl
  exact not_lt_self x hxy

omit [Std.LawfulEqOrd α] in
theorem ext_of_mem {s t : OrderedSet α} (h : ∀ x, x ∈ s.toList ↔ x ∈ t.toList) : s = t := by
  apply ext
  refine List.Perm.eq_of_pairwise (fun a b _ _ hab hba => ?_) s.ascending t.ascending
    ((List.perm_ext_iff_of_nodup s.nodup t.nodup).2 h)
  exact absurd (Std.TransCmp.lt_trans hab hba) (not_lt_self a)

/-- A set that is entered later on may be entered at once. -/
theorem insert_union (s t : OrderedSet α) (x : α) :
    (s.union t).insert x = s.union (t.insert x) := by
  apply ext_of_mem
  intro z
  rw [mem_insert, mem_union, mem_union, mem_insert]
  tauto

end Tabulation.OrderedSet

namespace Tabulation.OrderedMap

/-! Entering what a map or a set lists gives the map or the set again. -/

variable {κ α : Type} [Ord κ] [Std.TransOrd κ]

lemma alterIn_of_forall_lt {k : κ} {f : Option α → α} {es : List (κ × α)}
    (h : ∀ e ∈ es, compare e.1 k = .lt) : alterIn k f es = es ++ [(k, f none)] := by
  induction es with
  | nil => rfl
  | cons e es ih =>
    obtain ⟨he, hes⟩ := List.forall_mem_cons.1 h
    have hgt : compare k e.1 = .gt := Std.OrientedCmp.gt_iff_lt.2 he
    rw [alterIn, hgt, ih hes, List.cons_append]

lemma entries_foldl_insert {m : OrderedMap κ α} {es : List (κ × α)}
    (h : (m.entries ++ es).Pairwise fun a b => compare a.1 b.1 = .lt) :
    (es.foldl (fun m e => m.insert e.1 e.2) m).entries = m.entries ++ es := by
  induction es generalizing m with
  | nil => simp
  | cons e es ih =>
    have hlast : ∀ x ∈ m.entries, compare x.1 e.1 = .lt := fun x hx =>
      (List.pairwise_append.1 h).2.2 x hx e List.mem_cons_self
    have hinsert : (m.insert e.1 e.2).entries = m.entries ++ [e] := alterIn_of_forall_lt hlast
    rw [List.foldl_cons, ih (by simpa [hinsert] using h), hinsert, List.append_assoc, List.singleton_append]

/-- A map is the map of its entries. -/
theorem ofList_entries (m : OrderedMap κ α) : ofList m.entries = m :=
  ext (entries_foldl_insert (m := empty) m.ascending)

variable [Std.LawfulEqOrd κ] [BEq κ] [LawfulBEq κ] [DecidableEq κ]

lemma get?_ofList_eq_some_iff {es : List (κ × α)} (h : (es.map (·.1)).Nodup) {k : κ} {a : α} :
    (ofList es).get? k = some a ↔ (k, a) ∈ es := by
  induction es using List.reverseRecOn with
  | nil => exact get?_eq_some_iff
  | append_singleton es e ih =>
    rw [List.map_append, List.nodup_append] at h
    have hinsert : ofList (es ++ [e]) = (ofList es).insert e.1 e.2 := by
      simp only [ofList, List.foldl_append, List.foldl_cons, List.foldl_nil]
    rw [hinsert, insert, get?_alter, List.mem_append, List.mem_singleton]
    split_ifs with hk
    · subst hk
      have hnot : (e.1, a) ∉ es := fun hmem =>
        h.2.2 e.1 (List.mem_map.2 ⟨_, hmem, rfl⟩) e.1 (by simp) rfl
      simp [hnot, Prod.ext_iff, eq_comm]
    · rw [ih h.1]
      simp [Prod.ext_iff, hk]

/-- Entries with different keys are all kept. -/
lemma entries_ofList_perm {es : List (κ × α)} (h : (es.map (·.1)).Nodup) : (ofList es).entries.Perm es := by
  refine (List.perm_ext_iff_of_nodup (.of_map _ (ofList es).keys_nodup) (.of_map _ h)).2 fun e => ?_
  rw [← get?_eq_some_iff, get?_ofList_eq_some_iff h]

/-- The sequence of entries does not matter if no key has two. -/
theorem ofList_eq_of_perm {es es' : List (κ × α)} (h : es.Perm es') (hnodup : (es.map (·.1)).Nodup) :
    ofList es = ofList es' := by
  refine ext_of_get? fun k => Option.ext fun a => ?_
  rw [get?_ofList_eq_some_iff hnodup, get?_ofList_eq_some_iff ((h.map _).nodup_iff.1 hnodup), h.mem_iff]

end Tabulation.OrderedMap

namespace Tabulation.OrderedSet

variable {α : Type} [Ord α] [Std.TransOrd α]

lemma insertInto_of_forall_lt {x : α} {ys : List α} (h : ∀ y ∈ ys, compare y x = .lt) :
    insertInto x ys = ys ++ [x] := by
  induction ys with
  | nil => rfl
  | cons y ys ih =>
    obtain ⟨hy, hys⟩ := List.forall_mem_cons.1 h
    have hgt : compare x y = .gt := Std.OrientedCmp.gt_iff_lt.2 hy
    rw [insertInto, hgt, ih hys, List.cons_append]

lemma toList_foldl_insert {s : OrderedSet α} {xs : List α}
    (h : (s.toList ++ xs).Pairwise fun a b => compare a b = .lt) :
    (xs.foldl (fun s x => s.insert x) s).toList = s.toList ++ xs := by
  induction xs generalizing s with
  | nil => simp
  | cons x xs ih =>
    have hlast : ∀ y ∈ s.toList, compare y x = .lt := fun y hy =>
      (List.pairwise_append.1 h).2.2 y hy x List.mem_cons_self
    have hinsert : (s.insert x).toList = s.toList ++ [x] := insertInto_of_forall_lt hlast
    rw [List.foldl_cons, ih (by simpa [hinsert] using h), hinsert, List.append_assoc, List.singleton_append]

/-- A set is the set of its elements. -/
theorem ofList_toList (s : OrderedSet α) : ofList s.toList = s :=
  ext (toList_foldl_insert (s := empty) s.ascending)

end Tabulation.OrderedSet
