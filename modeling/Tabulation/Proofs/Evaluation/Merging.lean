import Mathlib.Algebra.BigOperators.Group.List.Basic
import Mathlib.Algebra.Ring.Int.Defs
import Mathlib.Tactic.SplitIfs
import Mathlib.Tactic.Tauto
import Tabulation.Proofs.Evaluation.Tally
import Tabulation.Proofs.Ordered

/-! Merging accumulators that were fed with parts is feeding one accumulator with all of it. For sums
that holds as long as no sum on the way leaves 64 bits, for extremes among values of one kind. -/
namespace Tabulation.Evaluation
open Json (Value)
open Query (AggregateFn)

/-- The values that are no nulls. -/
def present (values : List (Option Value)) : List Value :=
  values.filterMap fun
    | none | some .null => none
    | some v => some v

/-- An integer of 64 bits. -/
def IsInteger (v : Value) : Prop := ∃ n, v = .number (.integer n) ∧ Decimal.isInt64 n

/-- The integers among values. -/
def integers (values : List (Option Value)) : List Int :=
  (present values).filterMap fun
    | .number (.integer n) => some n
    | _ => none

/-- Integers of 64 bits whose running sums have 64 bits, too. -/
structure SumsFit (values : List (Option Value)) : Prop where
  integer : ∀ v ∈ present values, IsInteger v
  fit : ∀ part, part <+: integers values → Decimal.isInt64 part.sum

/-- Values that compare with each other: all of them integers, or texts, or truth values. -/
def OneKind (values : List (Option Value)) : Prop :=
  (∀ v ∈ present values, IsInteger v) ∨ (∀ v ∈ present values, ∃ s, v = .string s) ∨
    ∀ v ∈ present values, ∃ b, v = .bool b

/-- Values in parts that may be aggregated part by part. -/
def Mergeable (f : AggregateFn) (parts : List (List (Option Value))) : Prop :=
  match f with
  | .count | .countDistinct => True
  | .sum | .avg => SumsFit parts.flatten ∧ ∀ part ∈ parts, SumsFit part
  | .min | .max => OneKind parts.flatten

variable {f : AggregateFn} {xs ys values : List (Option Value)} {v : Option Value}

lemma present_append (xs ys : List (Option Value)) : present (xs ++ ys) = present xs ++ present ys := by
  simp [present]

lemma present_eq_filter (values : List (Option Value)) :
    present values = (values.map (·.getD .null)).filter (· ≠ .null) := by
  induction values with
  | nil => rfl
  | cons v values ih =>
    rw [List.map_cons, present, List.filterMap_cons, ← present, ih]
    rcases v with _ | _ | _ <;> simp

lemma mem_present {u : Value} : u ∈ present values ↔ some u ∈ values ∧ u ≠ .null := by
  rw [present_eq_filter, List.mem_filter, List.mem_map, decide_eq_true_eq]
  refine and_congr_left fun hu => ⟨?_, fun h => ⟨_, h, rfl⟩⟩
  rintro ⟨_ | w, hw, rfl⟩
  · exact absurd rfl hu
  · exact hw

lemma integers_append (xs ys : List (Option Value)) :
    integers (xs ++ ys) = integers xs ++ integers ys := by
  simp [integers, present_append]

lemma SumsFit.of_append (h : SumsFit (xs ++ ys)) : SumsFit xs where
  integer v hv := h.integer v (by rw [present_append]; exact List.mem_append_left _ hv)
  fit part hpart := h.fit part (by
    rw [integers_append]
    exact hpart.trans (List.prefix_append _ _))

lemma SumsFit.sum (h : SumsFit values) : Decimal.isInt64 (integers values).sum :=
  h.fit _ (List.prefix_refl _)

/-- The exact sum of integers, if there are any. -/
def exactSum (ns : List Int) : Option Total := if ns = [] then none else some (.exact ns.sum)

lemma merge_exactSum {ms ns : List Int} (h : Decimal.isInt64 (ms ++ ns).sum) :
    Total.merge (exactSum ms) (exactSum ns) = exactSum (ms ++ ns) := by
  rw [List.sum_append] at h
  unfold exactSum
  by_cases hm : ms = []
  · by_cases hn : ns = [] <;> simp [hm, hn, Total.merge]
  · by_cases hn : ns = []
    · simp [hm, hn, Total.merge]
    · simp [hm, hn, Total.merge, Total.add, h]

lemma present_cases (v : Option Value) :
    (present [v] = [] ∧ ∀ f, inputOf f v = none) ∨
      ∃ u, v = some u ∧ u ≠ .null ∧ present [v] = [u] := by
  match v with
  | none | some .null => exact .inl ⟨rfl, fun f => rfl⟩
  | some (.bool _) | some (.number _) | some (.string _) | some (.array _) | some (.object _) =>
    exact .inr ⟨_, rfl, by simp, rfl⟩

lemma inputOf_of_not_numeric {u : Value} (hu : u ≠ .null) (hf : f.requiresNumeric = false) :
    inputOf f (some u) = some (.value u) := by
  cases u <;> simp_all [inputOf, Input.read, Outcome.getD]

lemma inputOf_of_integer {n : Int} (hn : Decimal.isInt64 n) (hf : f.requiresNumeric) :
    inputOf f (some (.number (.integer n))) = some (.number (.exact n)) := by
  simp [inputOf, Input.read, hf, Total.read, hn, Except.map, Outcome.getD]

lemma SumsFit.last_cases (h : SumsFit (xs ++ [v])) (hf : f.requiresNumeric) :
    (integers (xs ++ [v]) = integers xs ∧ inputOf f v = none) ∨
      ∃ n, integers (xs ++ [v]) = integers xs ++ [n] ∧ inputOf f v = some (.number (.exact n)) := by
  rw [integers_append]
  rcases present_cases v with ⟨hnone, hinput⟩ | ⟨u, rfl, hu, hu'⟩
  · exact .inl ⟨by simp [integers, hnone], hinput f⟩
  · obtain ⟨n, rfl, hn⟩ := h.integer u (by rw [present_append, hu']; simp)
    exact .inr ⟨n, by simp [integers, hu'], inputOf_of_integer hn hf⟩

lemma exactSum_append_singleton {ns : List Int} {n : Int} (h : Decimal.isInt64 (ns ++ [n]).sum) :
    Total.merge (exactSum ns) (some (.exact n)) = exactSum (ns ++ [n]) := by
  have hn : exactSum [n] = some (.exact n) := by simp [exactSum]
  rw [← hn, merge_exactSum h]

lemma tally_sum (h : SumsFit values) : tally .sum values = .sum (exactSum (integers values)) := by
  induction values using List.reverseRecOn with
  | nil => rfl
  | append_singleton xs v ih =>
    have hsum := h.sum
    rw [tally_append_singleton, ih h.of_append]
    rcases h.last_cases (f := .sum) rfl with ⟨hsame, hinput⟩ | ⟨n, hmore, hinput⟩
    · rw [hsame, hinput]
      rfl
    · rw [hmore] at hsum ⊢
      rw [hinput, ← exactSum_append_singleton hsum]
      rfl

lemma tally_avg (h : SumsFit values) :
    tally .avg values = .avg (exactSum (integers values)) (integers values).length := by
  induction values using List.reverseRecOn with
  | nil => rfl
  | append_singleton xs v ih =>
    have hsum := h.sum
    rw [tally_append_singleton, ih h.of_append]
    rcases h.last_cases (f := .avg) rfl with ⟨hsame, hinput⟩ | ⟨n, hmore, hinput⟩
    · rw [hsame, hinput]
      rfl
    · rw [hmore] at hsum ⊢
      rw [hinput, ← exactSum_append_singleton hsum, List.length_append]
      rfl

/-- Where a function reads any value, tallying is a fold over the values that are present. -/
lemma tally_eq (held : List Value → Accumulator) (hf : f.requiresNumeric = false)
    (hnil : held [] = .new f)
    (hnext : ∀ us u, held (us ++ [u]) = (held us).add (.value u)) (values : List (Option Value)) :
    tally f values = held (present values) := by
  induction values using List.reverseRecOn with
  | nil => exact hnil.symm
  | append_singleton xs v ih =>
    rw [tally_append_singleton, ih, present_append]
    rcases present_cases v with ⟨hnone, hinput⟩ | ⟨u, rfl, hu, hu'⟩
    · rw [hnone, hinput, List.append_nil]
      rfl
    · rw [inputOf_of_not_numeric hu hf, hu', hnext]
      rfl

lemma tally_count (values : List (Option Value)) :
    tally .count values = .count (present values).length :=
  tally_eq (fun us => .count us.length) rfl rfl
    (fun us u => by simp [Accumulator.add]) values

/-- The texts of values as a set. -/
def textsOf (values : List Value) : OrderedSet String :=
  values.foldl (fun seen v => seen.insert (Comparison.groupKey v)) ∅

lemma textsOf_append_singleton (values : List Value) (v : Value) :
    textsOf (values ++ [v]) = (textsOf values).insert (Comparison.groupKey v) := by
  simp [textsOf, List.foldl_append]

lemma tally_countDistinct (values : List (Option Value)) :
    tally .countDistinct values = .countDistinct (textsOf (present values)) :=
  tally_eq (fun us => .countDistinct (textsOf us)) rfl rfl
    (fun us u => by rw [textsOf_append_singleton]; rfl) values

lemma union_textsOf (us vs : List Value) :
    (textsOf us).union (textsOf vs) = textsOf (us ++ vs) := by
  induction vs using List.reverseRecOn with
  | nil =>
    rw [List.append_nil]
    rfl
  | append_singleton vs v ih =>
    rw [← List.append_assoc, textsOf_append_singleton, textsOf_append_singleton,
      ← OrderedSet.insert_union, ih]

/-- The extreme of values. -/
def extremeOf (wanted : Ordering) (values : List Value) : Option Value :=
  values.foldl (Accumulator.extreme wanted) none

lemma extremeOf_append_singleton (wanted : Ordering) (values : List Value) (v : Value) :
    extremeOf wanted (values ++ [v]) = Accumulator.extreme wanted (extremeOf wanted values) v := by
  simp [extremeOf, List.foldl_append]

lemma tally_min (values : List (Option Value)) :
    tally .min values = .min (extremeOf .lt (present values)) :=
  tally_eq (fun us => .min (extremeOf .lt us)) rfl rfl
    (fun us u => by rw [extremeOf_append_singleton]; rfl) values

lemma tally_max (values : List (Option Value)) :
    tally .max values = .max (extremeOf .gt (present values)) :=
  tally_eq (fun us => .max (extremeOf .gt us)) rfl rfl
    (fun us u => by rw [extremeOf_append_singleton]; rfl) values

/-- A strict weak order among some values. -/
structure Ranked (wanted : Ordering) (values : List Value) : Prop where
  trans : ∀ a ∈ values, ∀ b ∈ values, ∀ c ∈ values, Comparison.order? a b = some wanted →
    Comparison.order? b c = some wanted → Comparison.order? a c = some wanted
  negTrans : ∀ a ∈ values, ∀ b ∈ values, ∀ c ∈ values, Comparison.order? a b ≠ some wanted →
    Comparison.order? b c ≠ some wanted → Comparison.order? a c ≠ some wanted

lemma ranked_of_order {γ : Type} [Ord γ] [Std.TransOrd γ] (of : γ → Value) {P : γ → Prop}
    (h : ∀ x y, P x → P y → Comparison.order? (of x) (of y) = some (compare x y))
    {values : List Value} (hv : ∀ v ∈ values, ∃ x, v = of x ∧ P x) {wanted : Ordering}
    (hw : wanted ≠ .eq) : Ranked wanted values := by
  constructor
  all_goals
    intro a ha b hb c hc hab hbc
    obtain ⟨x, rfl, hx⟩ := hv a ha
    obtain ⟨y, rfl, hy⟩ := hv b hb
    obtain ⟨z, rfl, hz⟩ := hv c hc
    simp only [h _ _ hx hy, h _ _ hy hz, h _ _ hx hz, Option.some.injEq, ne_eq] at hab hbc ⊢
  · cases wanted with
    | lt => exact Std.TransCmp.lt_trans hab hbc
    | eq => exact absurd rfl hw
    | gt => exact Std.TransCmp.gt_trans hab hbc
  · cases wanted with
    | lt =>
      rw [← Ordering.isGE_iff_ne_lt] at hab hbc ⊢
      exact Std.TransCmp.isGE_trans hab hbc
    | eq => exact absurd rfl hw
    | gt =>
      rw [← Ordering.isLE_iff_ne_gt] at hab hbc ⊢
      exact Std.TransCmp.isLE_trans hab hbc

lemma OneKind.ranked (h : OneKind values) (wanted : Ordering) (hw : wanted ≠ .eq) :
    Ranked wanted (present values) := by
  rcases h with h | h | h
  · exact ranked_of_order (fun n : Int => .number (.integer n)) (P := fun n => Decimal.isInt64 n)
      (fun m n hm hn => by simp [Comparison.order?, Comparison.orderNumbers?, hm, hn]) h hw
  · exact ranked_of_order Value.string (P := fun _ => True) (fun s t _ _ => rfl)
      (fun v hv => by simpa using h v hv) hw
  · exact ranked_of_order Value.bool (P := fun _ => True) (fun s t _ _ => rfl)
      (fun v hv => by simpa using h v hv) hw

lemma mem_of_extremeOf {wanted : Ordering} {values : List Value} {v : Value}
    (h : extremeOf wanted values = some v) : v ∈ values := by
  induction values using List.reverseRecOn generalizing v with
  | nil => simp [extremeOf] at h
  | append_singleton values u ih =>
    rw [extremeOf_append_singleton] at h
    unfold Accumulator.extreme at h
    split at h
    · simp_all
    · rename_i w hw
      split_ifs at h
      · simp_all
      · have := ih hw
        simp_all

/-- The extreme of two parts, of which the second one may be empty. -/
def mergeExtremes (wanted : Ordering) (a b : Option Value) : Option Value :=
  match b with
  | some v => Accumulator.extreme wanted a v
  | none => a

lemma extremeOf_append {wanted : Ordering} {us vs : List Value} (h : Ranked wanted (us ++ vs)) :
    mergeExtremes wanted (extremeOf wanted us) (extremeOf wanted vs) = extremeOf wanted (us ++ vs) := by
  induction vs using List.reverseRecOn with
  | nil => simp [extremeOf, mergeExtremes]
  | append_singleton vs v ih =>
    rw [← List.append_assoc] at h ⊢
    have hprior : Ranked wanted (us ++ vs) :=
      ⟨fun a ha b hb c hc => h.trans a (List.mem_append_left _ ha) b (List.mem_append_left _ hb) c
          (List.mem_append_left _ hc),
        fun a ha b hb c hc => h.negTrans a (List.mem_append_left _ ha) b
          (List.mem_append_left _ hb) c (List.mem_append_left _ hc)⟩
    rw [extremeOf_append_singleton, extremeOf_append_singleton, ← ih hprior]
    cases hvs : extremeOf wanted vs with
    | none => rfl
    | some w =>
      cases hus : extremeOf wanted us with
      | none => simp only [mergeExtremes, Accumulator.extreme]; split_ifs <;> rfl
      | some u =>
        have hu : u ∈ us ++ vs ++ [v] := by simp [mem_of_extremeOf hus]
        have hw : w ∈ us ++ vs ++ [v] := by simp [mem_of_extremeOf hvs]
        have hv : v ∈ us ++ vs ++ [v] := by simp
        have htrans := h.trans v hv w hw u hu
        have hneg := h.negTrans v hv w hw u hu
        simp only [mergeExtremes, Accumulator.extreme]
        by_cases hvw : Comparison.order? v w = some wanted <;>
          by_cases hwu : Comparison.order? w u = some wanted <;> simp_all

/-- Merging what was fed with one part into what was fed with another one. -/
theorem merge_tally (h : Mergeable f [xs, ys]) :
    (tally f xs).merge (tally f ys) = tally f (xs ++ ys) := by
  have hflat : [xs, ys].flatten = xs ++ ys := by simp
  cases f with
  | count =>
    simp only [tally_count, Accumulator.merge, present_append, List.length_append]
  | countDistinct =>
    simp only [tally_countDistinct, Accumulator.merge, present_append, union_textsOf]
  | sum =>
    obtain ⟨hall, hparts⟩ := h
    rw [hflat] at hall
    have hsum := hall.sum
    rw [integers_append] at hsum
    rw [tally_sum hall, tally_sum (hparts xs (by simp)), tally_sum (hparts ys (by simp)),
      integers_append, ← merge_exactSum hsum]
    rfl
  | avg =>
    obtain ⟨hall, hparts⟩ := h
    rw [hflat] at hall
    have hsum := hall.sum
    rw [integers_append] at hsum
    rw [tally_avg hall, tally_avg (hparts xs (by simp)), tally_avg (hparts ys (by simp)),
      integers_append, ← merge_exactSum hsum, List.length_append]
    rfl
  | min =>
    have h : OneKind [xs, ys].flatten := h
    rw [hflat] at h
    have hranked := h.ranked .lt (by decide)
    rw [present_append] at hranked
    rw [tally_min, tally_min, tally_min, present_append, ← extremeOf_append hranked]
    cases extremeOf .lt (present ys) <;> rfl
  | max =>
    have h : OneKind [xs, ys].flatten := h
    rw [hflat] at h
    have hranked := h.ranked .gt (by decide)
    rw [present_append] at hranked
    rw [tally_max, tally_max, tally_max, present_append, ← extremeOf_append hranked]
    cases extremeOf .gt (present ys) <;> rfl

lemma OneKind.of_append (h : OneKind (xs ++ ys)) : OneKind xs := by
  unfold OneKind at h ⊢
  simp only [present_append, List.mem_append, or_imp, forall_and] at h
  tauto

lemma Mergeable.init {parts : List (List (Option Value))} (h : Mergeable f (parts ++ [xs])) :
    Mergeable f parts ∧ Mergeable f [parts.flatten, xs] := by
  have hflat : (parts ++ [xs]).flatten = parts.flatten ++ xs := by simp
  cases f with
  | count | countDistinct => exact ⟨trivial, trivial⟩
  | sum | avg =>
    obtain ⟨hall, hparts⟩ := h
    rw [hflat] at hall
    refine ⟨⟨hall.of_append, fun part hpart => hparts part (List.mem_append_left _ hpart)⟩, ?_, ?_⟩
    · simpa using hall
    · intro part hpart
      rcases List.mem_cons.1 hpart with rfl | hpart
      · exact hall.of_append
      · exact hparts part (List.mem_append_right _ hpart)
  | min | max =>
    have h : OneKind (parts ++ [xs]).flatten := h
    rw [hflat] at h
    exact ⟨h.of_append, by simpa [Mergeable] using h⟩

/-- Merging accumulators that were fed part by part is feeding one accumulator with all parts. -/
theorem foldl_merge_tally {parts : List (List (Option Value))} (h : Mergeable f parts) :
    (parts.map (tally f)).foldl Accumulator.merge (.new f) = tally f parts.flatten := by
  induction parts using List.reverseRecOn with
  | nil => rfl
  | append_singleton parts xs ih =>
    obtain ⟨hparts, hlast⟩ := h.init
    rw [List.map_append, List.foldl_append, ih hparts, List.flatten_append, List.map_singleton,
      List.foldl_cons, List.foldl_nil, merge_tally hlast]
    simp

end Tabulation.Evaluation
