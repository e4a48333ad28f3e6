import Tabulation.Json.Value
import Tabulation.Proofs.Ordered

/-! The normal form of values: it is reached at once, and where no name occurs twice it only rearranges. -/
namespace Tabulation.Json

namespace Value

/-- Names ascend, and the values are in normal form. -/
structure NormalMembers (ms : Members) : Prop where
  ascending : ms.Pairwise fun a b => compare a.1 b.1 = .lt
  normal : ∀ m ∈ ms, m.2.normalized = m.2

lemma enter_eq_alterIn (name : String) (v : Value) (ms : Members) :
    Members.enter name v ms = OrderedMap.alterIn name (fun _ => v) ms := by
  induction ms with
  | nil => rfl
  | cons m ms ih =>
    rw [Members.enter, OrderedMap.alterIn, ih]
    cases h : compare name m.1 with
    | lt => rfl
    | eq => simp only [Std.LawfulEqOrd.eq_of_compare h]
    | gt => rfl

lemma NormalMembers.enter {ms : Members} (h : NormalMembers ms) (name : String) {v : Value}
    (hv : v.normalized = v) : NormalMembers (Members.enter name v ms) := by
  rw [enter_eq_alterIn]
  refine ⟨OrderedMap.alterIn_ascending _ _ _ h.ascending, fun m hm => ?_⟩
  rcases OrderedMap.alterIn_cases name (fun _ => v) h.ascending with
    ⟨before, a, after, hms, hresult⟩ | ⟨before, after, hms, hresult, -⟩
  all_goals
    rw [hresult, List.mem_append, List.mem_cons] at hm
    have hold : ∀ m, m ∈ before ∨ m ∈ after → m.2.normalized = m.2 := fun m hm =>
      h.normal m (by rw [hms]; simp; tauto)
    rcases hm with hm | rfl | hm
    · exact hold m (.inl hm)
    · exact hv
    · exact hold m (.inr hm)

lemma normalizedMembers_of_normal (entered : Members) {ms : Members} (h : NormalMembers (entered ++ ms)) :
    normalizedMembers entered ms = entered ++ ms := by
  induction ms generalizing entered with
  | nil => rw [normalizedMembers, List.append_nil]
  | cons m ms ih =>
    have hlast : ∀ e ∈ entered, compare e.1 m.1 = .lt := fun e he =>
      (List.pairwise_append.1 h.ascending).2.2 e he m List.mem_cons_self
    have hvalue : m.2.normalized = m.2 := h.normal m (by simp)
    rw [normalizedMembers, hvalue, enter_eq_alterIn, OrderedMap.alterIn_of_forall_lt hlast,
      ih _ (by simpa using h), List.append_assoc, List.singleton_append]

mutual

/-- Normal form is reached at once. -/
theorem normalized_normalized : (v : Value) → v.normalized.normalized = v.normalized
  | .null | .bool _ | .number _ | .string _ => rfl
  | .array items => by
    rw [normalized, normalized, normalizedItems_normalizedItems items]
  | .object members => by
    have hempty : NormalMembers [] := ⟨.nil, by simp⟩
    have h := normal_normalizedMembers members hempty
    rw [normalized, normalized, normalizedMembers_of_normal [] h, List.nil_append]

theorem normalizedItems_normalizedItems :
    (vs : List Value) → normalizedItems (normalizedItems vs) = normalizedItems vs
  | [] => rfl
  | v :: vs => by
    rw [normalizedItems, normalizedItems, normalized_normalized v, normalizedItems_normalizedItems vs]

theorem normal_normalizedMembers : (ms : Members) → {entered : Members} → NormalMembers entered →
    NormalMembers (normalizedMembers entered ms)
  | [], _, h => h
  | (n, v) :: ms, _, h => normal_normalizedMembers ms (h.enter n (normalized_normalized v))

end

lemma normalizedItems_eq (vs : List Value) : normalizedItems vs = vs.map normalized := by
  induction vs with
  | nil => rfl
  | cons v vs ih => rw [normalizedItems, ih, List.map_cons]

lemma enter_perm {name : String} {v : Value} {ms : Members} (h : ∀ m ∈ ms, m.1 ≠ name) :
    (Members.enter name v ms).Perm ((name, v) :: ms) := by
  induction ms with
  | nil => exact .refl _
  | cons m ms ih =>
    obtain ⟨hm, hms⟩ := List.forall_mem_cons.1 h
    rw [Members.enter]
    cases hc : compare name m.1 with
    | lt => exact .refl _
    | eq => exact absurd (Std.LawfulEqOrd.eq_of_compare hc).symm hm
    | gt => exact ((ih hms).cons m).trans (.swap _ _ _)

lemma normalizedMembers_perm (entered : Members) {ms : Members} (h : ((entered ++ ms).map (·.1)).Nodup) :
    (normalizedMembers entered ms).Perm (entered ++ ms.map fun m => (m.1, m.2.normalized)) := by
  induction ms generalizing entered with
  | nil =>
    rw [normalizedMembers, List.map_nil, List.append_nil]
  | cons m ms ih =>
    have hnew : ∀ e ∈ entered, e.1 ≠ m.1 := by
      intro e he hem
      rw [List.map_append, List.nodup_append] at h
      exact h.2.2 e.1 (List.mem_map_of_mem he) m.1 (by simp) hem
    have henter : (Members.enter m.1 m.2.normalized entered).Perm
        (entered ++ [(m.1, m.2.normalized)]) :=
      (enter_perm hnew).trans (List.perm_append_singleton _ _).symm
    have hnames : ((Members.enter m.1 m.2.normalized entered ++ ms).map (·.1)).Perm
        ((entered ++ m :: ms).map (·.1)) := by
      simpa using (henter.append_right ms).map (·.1)
    rw [normalizedMembers, List.map_cons]
    refine (ih _ (hnames.nodup_iff.2 h)).trans ?_
    simpa using henter.append_right (ms.map fun m => (m.1, m.2.normalized))

end Value

end Tabulation.Json
