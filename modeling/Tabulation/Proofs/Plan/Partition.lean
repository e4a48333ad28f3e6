import Mathlib.Data.List.Induction
import Mathlib.Data.List.Nodup
import Tabulation.Plan.Root
import Tabulation.Proofs.Ordered
import Tabulation.Proofs.Outcome

/-! The partition of aggregations by fan-out key: every aggregation is in the part of its key, and in
no other place. -/
namespace Tabulation

namespace Catalog

instance : Std.LawfulEqOrd Hop where
  eq_of_compare {a b} h := by
    have h' : (compare a.source b.source).then (compare a.target b.target) = .eq := h
    rw [Ordering.then_eq_eq] at h'
    cases a
    cases b
    simp_all

instance : Std.LawfulEqOrd FanOutKey where
  eq_of_compare {a b} h := by
    have h' : (compare a.depth b.depth).then (compare a.hops b.hops) = .eq := h
    rw [Ordering.then_eq_eq] at h'
    cases a
    cases b
    simp_all

lemma FanOutKey.isRoot_iff {key : FanOutKey} : key.isRoot ↔ key = ⟨[]⟩ := by
  cases key
  simp [isRoot]

end Catalog

namespace Plan
open Catalog (FanOutKey)
open Query (Aggregation)
open Outcome

/-- The parts of placed aggregations. -/
def partsOf (placed : List (Placed Aggregation)) : OrderedMap FanOutKey Partition :=
  placed.zipIdx.foldl
    (fun parts a => parts.alter a.1.key fun part => part.getD [] ++ [(a.2, a.1)]) ∅

lemma partsOf_append_singleton (placed : List (Placed Aggregation)) (a : Placed Aggregation) :
    partsOf (placed ++ [a]) =
      (partsOf placed).alter a.key fun part => part.getD [] ++ [(placed.length, a)] := by
  simp [partsOf, List.zipIdx_append, List.foldl_append]

theorem partition_eq_ok {catalog : Catalog} {root : EntityType} {c : Checked}
    {parts : OrderedMap FanOutKey Partition} :
    partition catalog root c = .ok parts ↔
      ∃ placed, c.aggregations.mapM (place catalog root .aggregation Aggregation.label) = .ok placed ∧
        parts = partsOf placed ∧ (c.strategy = .flat → parts.size ≤ 1) := by
  unfold partition
  simp only [bind_eq_ok]
  refine exists_congr fun placed => and_congr_right fun _ => ?_
  simp only [partsOf]
  split_ifs with h
  · simp only [throw, throwThe, MonadExceptOf.throw, bind, Except.bind, reduceCtorEq, false_iff,
      not_and]
    rintro rfl
    simpa using h
  · simp only [pure, Except.pure, Except.ok.injEq]
    constructor
    · rintro ⟨-, rfl⟩
      exact ⟨rfl, fun hf => by simpa [hf] using h⟩
    · rintro ⟨rfl, -⟩
      rfl

/-- The aggregations with one fan-out key, each with its place. -/
def placesOf (placed : List (Placed Aggregation)) (key : FanOutKey) : Partition :=
  (placed.zipIdx.filter fun a => a.1.key = key).map fun a => (a.2, a.1)

lemma placesOf_append_singleton (placed : List (Placed Aggregation)) (a : Placed Aggregation)
    (key : FanOutKey) :
    placesOf (placed ++ [a]) key =
      if a.key = key then placesOf placed key ++ [(placed.length, a)] else placesOf placed key := by
  by_cases h : a.key = key <;> simp [placesOf, List.zipIdx_append, h]

/-- The part of a key holds all aggregations of this key, and there is one for every key. -/
theorem mem_entries_partsOf {placed : List (Placed Aggregation)} {e : FanOutKey × Partition} :
    e ∈ (partsOf placed).entries ↔ (∃ a ∈ placed, a.key = e.1) ∧ e.2 = placesOf placed e.1 := by
  induction placed using List.reverseRecOn generalizing e with
  | nil => simp [partsOf, EmptyCollection.emptyCollection, OrderedMap.empty]
  | append_singleton placed a ih =>
    have hnodup := OrderedMap.keys_nodup (partsOf placed)
    rw [partsOf_append_singleton, placesOf_append_singleton]
    -- entries of other keys are as they were
    have hother : e.1 ≠ a.key → (e ∈ (partsOf placed).entries ↔
        (∃ b ∈ placed ++ [a], b.key = e.1) ∧
          e.2 = if a.key = e.1 then placesOf placed e.1 ++ [(placed.length, a)]
            else placesOf placed e.1) := by
      intro hne
      rw [ih, if_neg (Ne.symm hne)]
      simp [Ne.symm hne]
    rcases OrderedMap.entries_alter_cases (partsOf placed) a.key
        fun part => part.getD [] ++ [(placed.length, a)] with
      ⟨before, part, after, he, hr⟩ | ⟨before, after, he, hr, hfresh⟩
    · have hpart : part = placesOf placed a.key := (ih.1 (he ▸ by simp : (a.key, part) ∈ _)).2
      rw [he, List.map_append, List.map_cons, List.nodup_middle, List.nodup_cons, ← List.map_append]
        at hnodup
      rw [hr]
      by_cases hk : e.1 = a.key
      · have hout : e ∉ before ∧ e ∉ after := by
          rw [← not_or, ← List.mem_append]
          intro hmem
          exact hnodup.1 (List.mem_map.2 ⟨e, hmem, hk⟩)
        obtain ⟨key, other⟩ := e
        subst hk
        simp [hout, hpart]
      · rw [← hother hk, he]
        have hne : ∀ p : Partition, e ≠ (a.key, p) := fun p hp => hk (hp ▸ rfl)
        simp [hne]
    · rw [hr]
      by_cases hk : e.1 = a.key
      · have hout : e ∉ before ∧ e ∉ after := by
          rw [← not_or, ← List.mem_append, ← he]
          exact fun hmem => hfresh e hmem hk
        have hnil : placesOf placed a.key = [] := by
          simp only [placesOf, List.map_eq_nil_iff, List.filter_eq_nil_iff, decide_eq_true_eq]
          intro b hb hba
          have hmem : (a.key, placesOf placed a.key) ∈ (partsOf placed).entries :=
            ih.2 ⟨⟨b.1, List.fst_mem_of_mem_zipIdx hb, hba⟩, rfl⟩
          exact hfresh _ hmem rfl
        obtain ⟨key, other⟩ := e
        subst hk
        simp [hout, hnil]
      · rw [← hother hk, he]
        have hne : ∀ p : Partition, e ≠ (a.key, p) := fun p hp => hk (hp ▸ rfl)
        simp [hne]

lemma mem_placesOf {placed : List (Placed Aggregation)} {key : FanOutKey}
    {a : Nat × Placed Aggregation} :
    a ∈ placesOf placed key ↔ a.2.key = key ∧ placed[a.1]? = some a.2 := by
  obtain ⟨i, a⟩ := a
  simp [placesOf, List.mem_zipIdx_iff_getElem?, and_comm]

/-- No part is empty, and it holds aggregations of its key only, each with its place. -/
theorem mem_partsOf {placed : List (Placed Aggregation)} {e : FanOutKey × Partition}
    (h : e ∈ (partsOf placed).entries) :
    e.2 ≠ [] ∧ ∀ a ∈ e.2, a.2.key = e.1 ∧ placed[a.1]? = some a.2 := by
  obtain ⟨⟨a, ha, hkey⟩, hplaces⟩ := mem_entries_partsOf.1 h
  rw [hplaces]
  refine ⟨fun hnil => ?_, fun b hb => mem_placesOf.1 hb⟩
  obtain ⟨i, hi⟩ := List.mem_iff_getElem?.1 ha
  have hmem : (i, a) ∈ placesOf placed e.1 := mem_placesOf.2 ⟨hkey, hi⟩
  simp [hnil] at hmem

lemma near_partsOf (placed : List (Placed Aggregation)) :
    ((partsOf placed).entries.filter fun part => part.1.isRoot).flatMap (·.2) =
      placesOf placed ⟨[]⟩ := by
  have hnodup := OrderedMap.keys_nodup (partsOf placed)
  by_cases h : ∃ a ∈ placed, a.key = ⟨[]⟩
  · obtain ⟨before, after, he⟩ := List.append_of_mem
      (mem_entries_partsOf.2 ⟨h, rfl⟩ : (⟨[]⟩, placesOf placed ⟨[]⟩) ∈ (partsOf placed).entries)
    rw [he, List.map_append, List.map_cons, List.nodup_middle, List.nodup_cons, ← List.map_append]
      at hnodup
    have hout : ∀ e ∈ before ++ after, ¬ e.1.isRoot = true := by
      intro e hmem hk
      exact hnodup.1 (List.mem_map.2 ⟨e, hmem, FanOutKey.isRoot_iff.1 hk⟩)
    have hbefore := List.filter_eq_nil_iff.2 fun e hmem => hout e (List.mem_append_left _ hmem)
    have hafter := List.filter_eq_nil_iff.2 fun e hmem => hout e (List.mem_append_right _ hmem)
    rw [he, List.filter_append, List.filter_cons, hbefore, hafter]
    simp [FanOutKey.isRoot]
  · have hnone : (partsOf placed).entries.filter (fun part => part.1.isRoot) = [] := by
      rw [List.filter_eq_nil_iff]
      intro e he hk
      obtain ⟨⟨a, ha, hkey⟩, -⟩ := mem_entries_partsOf.1 he
      exact h ⟨a, ha, hkey.trans (FanOutKey.isRoot_iff.1 hk)⟩
    rw [hnone, List.flatMap_nil, eq_comm, List.eq_nil_iff_forall_not_mem]
    intro a ha
    obtain ⟨hkey, hi⟩ := mem_placesOf.1 ha
    exact h ⟨a.2, List.mem_of_getElem? hi, hkey⟩

/-- There is one part at most where all aggregations have the same key. -/
lemma size_partsOf_le_one {placed : List (Placed Aggregation)} :
    (partsOf placed).size ≤ 1 ↔ ∀ a ∈ placed, ∀ b ∈ placed, a.key = b.key := by
  constructor
  · intro h a ha b hb
    have hmem : (a.key, placesOf placed a.key) ∈ (partsOf placed).entries :=
      mem_entries_partsOf.2 ⟨⟨a, ha, rfl⟩, rfl⟩
    have hmem' : (b.key, placesOf placed b.key) ∈ (partsOf placed).entries :=
      mem_entries_partsOf.2 ⟨⟨b, hb, rfl⟩, rfl⟩
    obtain ⟨i, hi, he⟩ := List.getElem_of_mem hmem
    obtain ⟨j, hj, he'⟩ := List.getElem_of_mem hmem'
    have hone : (partsOf placed).entries.length ≤ 1 := h
    obtain rfl : i = j := by omega
    exact congrArg Prod.fst (he.symm.trans he')
  · intro h
    have hnodup := OrderedMap.keys_nodup (partsOf placed)
    have hsame : ∀ e ∈ (partsOf placed).entries, ∀ e' ∈ (partsOf placed).entries, e'.1 = e.1 := by
      intro e he e' he'
      obtain ⟨⟨a, ha, hkey⟩, -⟩ := mem_entries_partsOf.1 he
      obtain ⟨⟨b, hb, hkey'⟩, -⟩ := mem_entries_partsOf.1 he'
      rw [← hkey, ← hkey', h b hb a ha]
    rw [OrderedMap.size]
    cases hentries : (partsOf placed).entries with
    | nil => simp
    | cons e es =>
      rw [hentries] at hnodup hsame
      have hkeys : (e :: es).map (·.1) = List.replicate ((e :: es).map (·.1)).length e.1 :=
        List.eq_replicate_of_mem (List.forall_mem_map.2 (hsame e List.mem_cons_self))
      rw [hkeys, List.nodup_replicate, List.length_map] at hnodup
      exact hnodup

/-- The parts together hold every place once. -/
theorem places_partsOf (placed : List (Placed Aggregation)) :
    (((partsOf placed).entries.flatMap (·.2)).map (·.1)).Perm (List.range placed.length) := by
  induction placed using List.reverseRecOn with
  | nil => simp [partsOf, EmptyCollection.emptyCollection, OrderedMap.empty]
  | append_singleton placed a ih =>
    rw [partsOf_append_singleton, List.length_append, List.length_singleton, List.range_succ]
    rcases OrderedMap.entries_alter_cases (partsOf placed) a.key
        fun part => part.getD [] ++ [(placed.length, a)] with
      ⟨before, part, after, he, hr⟩ | ⟨before, after, he, hr, -⟩
    · rw [he] at ih
      rw [hr]
      refine List.Perm.trans ?_ (ih.append_right _)
      simp only [List.flatMap_append, List.flatMap_cons, List.map_append, Option.getD_some,
        List.append_assoc, List.map_cons, List.map_nil]
      exact ((List.perm_append_comm).append_left _).append_left _
    · rw [he] at ih
      rw [hr]
      refine List.Perm.trans ?_ (ih.append_right _)
      simp only [List.flatMap_append, List.flatMap_cons, List.map_append, Option.getD_none,
        List.append_assoc, List.map_cons, List.map_nil, List.nil_append]
      exact (List.perm_append_comm).append_left _

end Plan

end Tabulation
