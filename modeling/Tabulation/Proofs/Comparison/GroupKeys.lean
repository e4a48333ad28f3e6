import Mathlib.Data.List.Basic
import Tabulation.Comparison.Key
import Tabulation.Proofs.Json.Text

/-! The texts under which values are grouped. The text of a list tells the texts of its items. -/
namespace Tabulation.Comparison
open Json

/-- The key of a number is the text of a number. -/
lemma exists_numberKey (n : Number) : ∃ m : Number, (numberKey n).toList = m.chars :=
  ⟨settled n, String.toList_ofList⟩

lemma groupKey_array (items : List Value) : (groupKey (.array items)).toList =
    '[' :: (joined ((groupKeys items).map String.toList) ++ [']']) := by
  simp [groupKey, joined, String.toList_intercalate]

lemma groupKeys_eq_map (items : List Value) : groupKeys items = items.map groupKey := by
  induction items with
  | nil => rfl
  | cons v vs ih => rw [groupKeys, ih, List.map_cons]

mutual

theorem passes_groupKey (v : Value) : Passes 0 (groupKey v).toList ∧ (groupKey v).toList ≠ [] := by
  have hcompact : ∀ v : Value, Passes 0 v.text.toList ∧ v.text.toList ≠ [] := fun v => by
    rw [Value.text, String.toList_ofList]
    exact ⟨v.passes_compact, v.compact_ne_nil⟩
  cases v with
  | number n =>
    obtain ⟨m, hm⟩ := exists_numberKey n
    rw [groupKey, hm]
    exact ⟨passes_number m, m.chars_ne_nil⟩
  | array items =>
    rw [groupKey_array]
    refine ⟨(passes_joined fun t ht => ?_).bracketed (.inl rfl) (.inl rfl), List.cons_ne_nil _ _⟩
    obtain ⟨key, hkey, rfl⟩ := List.mem_map.1 ht
    exact (passes_groupKeys items key hkey).1
  | null => exact hcompact .null
  | bool b => exact hcompact (.bool b)
  | string s => exact hcompact (.string s)
  | object members => exact hcompact (.object members)

theorem passes_groupKeys (items : List Value) :
    ∀ key ∈ groupKeys items, Passes 0 key.toList ∧ key.toList ≠ [] := by
  match items with
  | [] => exact fun key hkey => absurd hkey List.not_mem_nil
  | v :: vs => exact List.forall_mem_cons.2 ⟨passes_groupKey v, passes_groupKeys vs⟩

end

/-- Lists of values have one text only if their values have the same texts one by one. -/
theorem groupKeys_eq_of_array {xs ys : List Value} (h : groupKey (.array xs) = groupKey (.array ys)) :
    groupKeys xs = groupKeys ys := by
  have htexts := congrArg String.toList h
  rw [groupKey_array, groupKey_array] at htexts
  have hjoined := List.append_cancel_right (List.cons.inj htexts).2
  have hpasses : ∀ items, ∀ t ∈ (groupKeys items).map String.toList, Passes 0 t ∧ t ≠ [] := by
    intro items t ht
    obtain ⟨key, hkey, rfl⟩ := List.mem_map.1 ht
    exact passes_groupKeys items key hkey
  have hmap := eq_of_joined (hpasses xs) (hpasses ys) hjoined
  exact List.map_injective_iff.2 (fun _ _ => String.toList_injective) hmap

/-- Grouping tells lists apart exactly where it tells their values apart. -/
theorem groupKey_array_iff {xs ys : List Value} :
    groupKey (.array xs) = groupKey (.array ys) ↔ xs.map groupKey = ys.map groupKey := by
  rw [← groupKeys_eq_map, ← groupKeys_eq_map]
  refine ⟨groupKeys_eq_of_array, fun h => ?_⟩
  rw [groupKey, groupKey, h]

lemma groupKey_singleton_iff {v w : Value} :
    groupKey (.array [v]) = groupKey (.array [w]) ↔ groupKey v = groupKey w := by
  rw [groupKey_array_iff, List.map_singleton, List.map_singleton, List.singleton_inj]

/-- No other value has the text of null. -/
theorem groupKey_eq_null_iff {v : Value} : groupKey v = groupKey .null ↔ v = .null := by
  refine ⟨fun h => ?_, fun h => h ▸ rfl⟩
  have htext : (groupKey v).toList = ['n', 'u', 'l', 'l'] := h ▸ rfl
  cases v with
  | null => rfl
  | number n =>
    obtain ⟨m, hm⟩ := exists_numberKey n
    rw [groupKey, hm] at htext
    have hn : 'n' ∈ m.chars := htext ▸ List.mem_cons_self
    exact absurd (Number.isNumeral_of_mem_chars hn) (by decide)
  | bool b => cases b <;> exact absurd htext (by decide)
  | array items =>
    rw [groupKey_array] at htext
    exact absurd (List.cons.inj htext).1 (by decide)
  | string s =>
    have hquoted : quoted s = ['n', 'u', 'l', 'l'] := String.toList_ofList.symm.trans htext
    exact absurd (List.cons.inj hquoted).1 (by decide)
  | object members =>
    have hbraced : (Value.object members).compact = ['n', 'u', 'l', 'l'] :=
      String.toList_ofList.symm.trans htext
    exact absurd (List.cons.inj hbraced).1 (by decide)

end Tabulation.Comparison
