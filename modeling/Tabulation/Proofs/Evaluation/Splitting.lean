import Mathlib.Data.List.Infix
import Mathlib.Data.List.Sublists
import Tabulation.Proofs.Evaluation.Merging

/-! An input that is cut into parts. Each part is pushed into an accumulator of its own, and merging these one
after the other gives the accumulator into which all of the input was pushed. -/
namespace Tabulation.Evaluation
open Json (Value)
open Query (AggregateFn)
open Outcome

/-- A new accumulator into which values are pushed, one after the other. -/
def pushAll (f : AggregateFn) (values : List (Option Value)) : Except Storage.Fault Accumulator :=
  values.foldlM Accumulator.push (.new f)

/-- Values that may be aggregated in parts, however they are cut: for sums, integers of which no run has a sum
beyond 64 bits, and for extremes, values of one kind. -/
def Splittable (f : AggregateFn) (values : List (Option Value)) : Prop :=
  match f with
  | .count | .countDistinct => True
  | .sum | .avg =>
    (∀ v ∈ present values, IsInteger v) ∧ ∀ run, run <:+: integers values → Decimal.isInt64 run.sum
  | .min | .max => OneKind values

variable {f : AggregateFn} {values part : List (Option Value)} {parts : List (List (Option Value))}

lemma readable_of_integers (h : ∀ v ∈ present values, IsInteger v) {v : Option Value} (hv : v ∈ values) :
    Readable f v := by
  cases hf : f.requiresNumeric with
  | false => exact readable_of_not_numeric hf v
  | true =>
    rcases v with _ | v
    · exact ⟨none, rfl⟩
    · by_cases hnull : v = .null
      · exact ⟨none, by rw [hnull]; rfl⟩
      · obtain ⟨n, rfl, hn⟩ := h v (mem_present.2 ⟨hv, hnull⟩)
        exact ⟨some (.number (.exact n)), by simp [Input.read, hf, Total.read, hn, Except.map]⟩

lemma Splittable.readable (h : Splittable f values) : ∀ v ∈ values, Readable f v := by
  intro v hv
  cases f with
  | count | countDistinct | min | max => exact readable_of_not_numeric rfl v
  | sum | avg => exact readable_of_integers h.1 hv

lemma infix_integers (h : part <:+: values) : integers part <:+: integers values :=
  (h.filterMap _).filterMap _

lemma Splittable.mergeable (h : Splittable f parts.flatten) : Mergeable f parts := by
  cases f with
  | count | countDistinct => trivial
  | min | max => exact h
  | sum | avg =>
    obtain ⟨hintegers, hruns⟩ := h
    refine ⟨⟨hintegers, fun part hpart => hruns part hpart.isInfix⟩, fun part hpart => ?_⟩
    have hblock : part <:+: parts.flatten := List.infix_of_mem_flatten hpart
    refine ⟨fun v hv => hintegers v ?_, fun run hrun => ?_⟩
    · obtain ⟨hmem, hnull⟩ := mem_present.1 hv
      exact mem_present.2 ⟨hblock.subset hmem, hnull⟩
    · exact hruns run (hrun.isInfix.trans (infix_integers hblock))

lemma integers_eq_nil (h : ∀ v ∈ present values, IsInteger v) : integers values = [] ↔ present values = [] := by
  refine ⟨fun hnil => List.eq_nil_iff_forall_not_mem.2 fun v hv => ?_, fun hnil => by simp [integers, hnil]⟩
  obtain ⟨n, rfl, -⟩ := h v hv
  have hn : n ∈ integers values := List.mem_filterMap.2 ⟨_, hv, rfl⟩
  rw [hnil] at hn
  exact absurd hn List.not_mem_nil

lemma finish_tally_sum (h : Splittable .sum values) : (tally .sum values).finish =
    if present values = [] then .null else .ofInt (integers values).sum := by
  obtain ⟨hintegers, hruns⟩ := h
  rw [tally_sum ⟨hintegers, fun part hpart => hruns part hpart.isInfix⟩, Accumulator.finish, exactSum]
  by_cases hnil : present values = []
  · rw [if_pos ((integers_eq_nil hintegers).2 hnil), if_pos hnil]
    rfl
  · rw [if_neg (mt (integers_eq_nil hintegers).1 hnil), if_neg hnil]
    rfl

/-- Merging the accumulators of parts, from the first one to the last one, gives the accumulator of the whole.
A sum is then exact; where there is nothing to sum up it is null. -/
theorem merged_parts_eq_whole (h : Splittable f parts.flatten) :
    ∃ ofParts whole, parts.mapM (pushAll f) = .ok ofParts ∧ pushAll f parts.flatten = .ok whole ∧
      ofParts.foldl Accumulator.merge (.new f) = whole ∧
      (f = .sum → whole.finish =
        if present parts.flatten = [] then .null else .ofInt (integers parts.flatten).sum) := by
  have hparts : parts.mapM (pushAll f) = .ok (parts.map (tally f)) := by
    refine (mapM_eq_ok_iff_map (fun _ _ => foldlM_push_eq_ok) _ _).2 ⟨fun part hpart v hv => ?_, rfl⟩
    exact h.readable v (List.mem_flatten_of_mem hpart hv)
  have hwhole : pushAll f parts.flatten = .ok (tally f parts.flatten) :=
    foldlM_push_eq_ok.2 ⟨h.readable, rfl⟩
  refine ⟨_, _, hparts, hwhole, foldl_merge_tally h.mergeable, ?_⟩
  rintro rfl
  exact finish_tally_sum h

/-- The sum of nothing is null and not zero. -/
theorem sum_of_nothing_is_null : Splittable .sum [some .null] ∧ ∃ acc, pushAll .sum [some .null] = .ok acc ∧
    acc.finish ≠ .ofInt (integers [some .null]).sum := by
  have hintegers : integers [some .null] = [] := rfl
  refine ⟨⟨fun v hv => absurd hv List.not_mem_nil, fun run hrun => ?_⟩, .new .sum, rfl, by decide⟩
  rw [hintegers, List.infix_nil] at hrun
  rw [hrun]
  decide

/-- Blocks of hours, with nulls and an empty block among them. -/
def hoursInBlocks : List (List (Option Value)) :=
  [[some (.ofInt 2), none], [], [some .null, some (.ofInt (-7)), some (.ofInt 4)]]

theorem merged_parts_eq_whole_hours :
    Splittable .sum hoursInBlocks.flatten ∧
    ∃ ofParts whole, hoursInBlocks.mapM (pushAll .sum) = .ok ofParts ∧
      pushAll .sum hoursInBlocks.flatten = .ok whole ∧
      ofParts.foldl Accumulator.merge (.new .sum) = whole ∧ whole.finish = .ofInt (-1) := by
  have h : Splittable .sum hoursInBlocks.flatten := by
    have hpresent : present hoursInBlocks.flatten = [.ofInt 2, .ofInt (-7), .ofInt 4] := rfl
    have hintegers : integers hoursInBlocks.flatten = [2, -7, 4] := rfl
    have hsums : ∀ run ∈ List.sublists' [2, -7, 4], Decimal.isInt64 run.sum := by decide
    refine ⟨fun v hv => ?_, fun run hrun => hsums run ?_⟩
    · rw [hpresent] at hv
      simp only [List.mem_cons, List.not_mem_nil, or_false] at hv
      rcases hv with rfl | rfl | rfl
      · exact ⟨2, rfl, by decide⟩
      · exact ⟨-7, rfl, by decide⟩
      · exact ⟨4, rfl, by decide⟩
    · rw [hintegers] at hrun
      exact List.mem_sublists'.2 hrun.sublist
  obtain ⟨ofParts, whole, hparts, hwhole, hmerge, hsum⟩ := merged_parts_eq_whole h
  exact ⟨h, ofParts, whole, hparts, hwhole, hmerge, hsum rfl⟩

end Tabulation.Evaluation
