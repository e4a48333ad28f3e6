import Mathlib.Data.List.Induction
import Mathlib.Tactic.Lemma
import Tabulation.Evaluation.Evaluator
import Tabulation.Proofs.Outcome

/-! One accumulator fed with values, one after the other. Feeding fails only where a value cannot be
read, so what it gives otherwise is a plain fold. -/
namespace Tabulation.Evaluation
open Json (Value)
open Plan (Aggregate)
open Query (AggregateFn)
open Outcome

/-- A function can make sense of the value. -/
def Readable (f : AggregateFn) (v : Option Value) : Prop := ∃ input, Input.read f v = .ok input

instance (f : AggregateFn) : DecidablePred (Readable f) := fun v =>
  inferInstanceAs (Decidable (∃ input, Input.read f v = .ok input))

/-- What a function reads from a value, if it can make sense of it. -/
def inputOf (f : AggregateFn) (v : Option Value) : Option Input := getD (Input.read f v) none

/-- One accumulator fed with values. -/
def tally (f : AggregateFn) (values : List (Option Value)) : Accumulator :=
  values.foldl (fun acc v => acc.addRead (inputOf f v)) (.new f)

/-- The values that an aggregate takes from rows. -/
def valuesOf (a : Aggregate) (rows : List Binding) : List (Option Value) :=
  rows.map (·.value? a.column)

variable {f : AggregateFn} {v : Option Value} {values : List (Option Value)}

@[simp] lemma function_new (f : AggregateFn) : (Accumulator.new f).function = f := by
  cases f <;> rfl

@[simp] lemma function_addRead (acc : Accumulator) (input : Option Input) :
    (acc.addRead input).function = acc.function := by
  cases input with
  | none => rfl
  | some input => cases acc <;> cases input <;> rfl

@[simp] lemma tally_nil (f : AggregateFn) : tally f [] = .new f := rfl

lemma tally_append (f : AggregateFn) (xs ys : List (Option Value)) :
    tally f (xs ++ ys) = ys.foldl (fun acc v => acc.addRead (inputOf f v)) (tally f xs) := by
  simp [tally, List.foldl_append]

lemma tally_append_singleton (f : AggregateFn) (xs : List (Option Value)) (v : Option Value) :
    tally f (xs ++ [v]) = (tally f xs).addRead (inputOf f v) := by
  simp [tally_append]

@[simp] lemma function_tally (f : AggregateFn) (values : List (Option Value)) :
    (tally f values).function = f := by
  induction values using List.reverseRecOn with
  | nil => simp
  | append_singleton values v ih => rw [tally_append_singleton, function_addRead, ih]

lemma readable_of_not_numeric (hf : f.requiresNumeric = false) (v : Option Value) : Readable f v := by
  unfold Readable Input.read
  split
  · exact ⟨_, rfl⟩
  · exact ⟨_, rfl⟩
  · rw [hf]
    exact ⟨_, rfl⟩

lemma read_eq_ok {input : Option Input} :
    Input.read f v = .ok input ↔ Readable f v ∧ input = inputOf f v :=
  eq_ok_iff none

lemma push_eq_ok {acc acc' : Accumulator} (hf : acc.function = f) :
    acc.push v = .ok acc' ↔ Readable f v ∧ acc' = acc.addRead (inputOf f v) := by
  unfold Accumulator.push
  rw [hf, map_eq_ok]
  constructor
  · rintro ⟨input, hinput, rfl⟩
    obtain ⟨hv, rfl⟩ := read_eq_ok.1 hinput
    exact ⟨hv, rfl⟩
  · rintro ⟨hv, rfl⟩
    exact ⟨_, read_eq_ok.2 ⟨hv, rfl⟩, rfl⟩

/-- Pushing values succeeds if all of them can be read, and then it tallies them. -/
theorem foldlM_push_eq_ok {acc : Accumulator} :
    values.foldlM Accumulator.push (.new f) = .ok acc ↔
      (∀ v ∈ values, Readable f v) ∧ acc = tally f values := by
  induction values using List.reverseRecOn generalizing acc with
  | nil => simp [pure, Except.pure, eq_comm]
  | append_singleton values v ih =>
    rw [foldlM_append_singleton_eq_ok]
    simp only [ih, List.forall_mem_append, List.forall_mem_singleton, tally_append_singleton]
    constructor
    · rintro ⟨c, ⟨hvalues, rfl⟩, hv⟩
      obtain ⟨hread, rfl⟩ := (push_eq_ok (function_tally f values)).1 hv
      exact ⟨⟨hvalues, hread⟩, rfl⟩
    · rintro ⟨⟨hvalues, hv⟩, rfl⟩
      exact ⟨_, ⟨hvalues, rfl⟩, (push_eq_ok (function_tally f values)).2 ⟨hv, rfl⟩⟩

/-- The accumulators of aggregates, each fed with its values in the rows. -/
def tallies (aggregates : List Aggregate) (rows : List Binding) : List Accumulator :=
  aggregates.map fun a => tally a.function (valuesOf a rows)

lemma feed_tallies_eq_ok {aggregates : List Aggregate} {rows : List Binding} {b : Binding}
    {accs : List Accumulator} :
    Ready.feed aggregates (tallies aggregates rows) b = .ok accs ↔
      (∀ a ∈ aggregates, Readable a.function (b.value? a.column)) ∧
        accs = tallies aggregates (rows ++ [b]) := by
  have hzip : aggregates.zip (tallies aggregates rows) =
      aggregates.map fun a => (a, tally a.function (valuesOf a rows)) := by
    rw [tallies, ← List.map_prod_left_eq_zip]
  unfold Ready.feed
  have hpush : ∀ (a : Aggregate) (acc : Accumulator),
      (tally a.function (valuesOf a rows)).push (b.value? a.column) = .ok acc ↔
        Readable a.function (b.value? a.column) ∧ acc = tally a.function (valuesOf a (rows ++ [b])) := by
    intro a acc
    rw [push_eq_ok (function_tally a.function (valuesOf a rows)), ← tally_append_singleton]
    simp [valuesOf]
  rw [hzip, List.mapM_map]
  exact mapM_eq_ok_iff_map hpush _ _

theorem foldlM_feed_eq_ok {aggregates : List Aggregate} {rows : List Binding}
    {accs : List Accumulator} :
    rows.foldlM (Ready.feed aggregates) (aggregates.map fun a => .new a.function) = .ok accs ↔
      (∀ a ∈ aggregates, ∀ v ∈ valuesOf a rows, Readable a.function v) ∧
        accs = tallies aggregates rows := by
  induction rows using List.reverseRecOn generalizing accs with
  | nil => simp [tallies, valuesOf, pure, Except.pure, eq_comm]
  | append_singleton rows b ih =>
    rw [foldlM_append_singleton_eq_ok]
    simp only [ih]
    constructor
    · rintro ⟨c, ⟨hrows, rfl⟩, hb⟩
      obtain ⟨hread, rfl⟩ := feed_tallies_eq_ok.1 hb
      refine ⟨fun a ha v hv => ?_, rfl⟩
      simp only [valuesOf, List.map_append, List.mem_append, List.map_cons, List.map_nil,
        List.mem_singleton] at hv
      rcases hv with hv | rfl
      · exact hrows a ha v hv
      · exact hread a ha
    · rintro ⟨hall, rfl⟩
      refine ⟨_, ⟨fun a ha v hv => hall a ha v ?_, rfl⟩,
        feed_tallies_eq_ok.2 ⟨fun a ha => hall a ha _ ?_, rfl⟩⟩
      · simp only [valuesOf, List.map_append, List.mem_append] at hv ⊢
        exact .inl hv
      · simp [valuesOf]

end Tabulation.Evaluation
