import Tabulation.Proofs.Comparison.Order
import Tabulation.Proofs.Evaluation.Splitting

/-! Extremes of values that need not compare with each other. A text that names a number compares with texts in
one way and with numbers in another one, so the order of values is not transitive. Then there may be no extreme at
all, and the one there is may be missed by comparing with a running value only. -/
namespace Tabulation.Evaluation
open Comparison (order? order?_self order?_swap Unmixed)
open Json (Value)
open Query (AggregateFn)

variable {wanted : Ordering} {inputs : List Value} {u v : Value}

/-- Of inputs, one that beats a second one which beats a third one beats the third one, too. -/
def Transitive (wanted : Ordering) (inputs : List Value) : Prop :=
  ∀ a ∈ inputs, ∀ b ∈ inputs, ∀ c ∈ inputs,
    order? a b = some wanted → order? b c = some wanted → order? a c = some wanted

/-- None of the inputs beats a value. -/
def Unbeaten (wanted : Ordering) (inputs : List Value) (v : Value) : Prop :=
  ∀ u ∈ inputs, order? u v ≠ some wanted

/-- The input that is held at the end. None of those after it beats it, so it is an extreme of them all exactly if
none of those before it does, and it is one if the comparison is transitive there. -/
structure IsHeld (wanted : Ordering) (inputs : List Value) (v : Value) : Prop where
  last : ∃ before after, inputs = before ++ v :: after ∧ Unbeaten wanted after v ∧
    (Unbeaten wanted inputs v ↔ Unbeaten wanted before v)
  extreme : Transitive wanted inputs → Unbeaten wanted inputs v

lemma unbeaten_append {us : List Value} :
    Unbeaten wanted (inputs ++ us) v ↔ Unbeaten wanted inputs v ∧ Unbeaten wanted us v :=
  List.forall_mem_append

lemma unbeaten_singleton : Unbeaten wanted [u] v ↔ order? u v ≠ some wanted := List.forall_mem_singleton

lemma unbeaten_self (hw : wanted ≠ .eq) : Unbeaten wanted [v] v :=
  unbeaten_singleton.2 fun h => hw (order?_self h)

lemma extreme_some (wanted : Ordering) (held candidate : Value) :
    Accumulator.extreme wanted (some held) candidate =
      some (if order? candidate held = some wanted then candidate else held) :=
  (apply_ite some _ _ _).symm

lemma extremeOf_eq_none : extremeOf wanted inputs = none ↔ inputs = [] := by
  refine ⟨fun h => ?_, fun h => h ▸ rfl⟩
  cases inputs using List.reverseRecOn with
  | nil => rfl
  | append_singleton inputs u =>
    rw [extremeOf_append_singleton] at h
    cases hheld : extremeOf wanted inputs with
    | none => rw [hheld] at h; cases h
    | some w => rw [hheld, extreme_some] at h; cases h

lemma present_eq_nil {values : List (Option Value)} :
    present values = [] ↔ ∀ v ∈ values, v = none ∨ v = some .null := by
  rw [List.eq_nil_iff_forall_not_mem]
  constructor
  · intro h v hv
    cases v with
    | none => exact .inl rfl
    | some v => exact .inr (congrArg some (not_not.1 fun hnull => h v (mem_present.2 ⟨hv, hnull⟩)))
  · intro h v hv
    obtain ⟨hmem, hnull⟩ := mem_present.1 hv
    rcases h _ hmem with h | h
    · cases h
    · exact hnull (Option.some.inj h)

lemma Transitive.mono {us : List Value} (h : Transitive wanted inputs) (hsub : us ⊆ inputs) : Transitive wanted us :=
  fun a ha b hb c hc => h a (hsub ha) b (hsub hb) c (hsub hc)

/-- Where a value that beats a second one which beats a third one does not beat the third one itself, pushing the
third one first ends with the second one. -/
lemma extremeOf_of_not_transitive {a b c : Value} (hbc : order? b c = some wanted)
    (hac : order? a c ≠ some wanted) : extremeOf wanted [c, a, b] = some b := by
  simp [extremeOf, Accumulator.extreme, hbc, hac]

lemma IsHeld.of_last (hw : wanted ≠ .eq) (before after : List Value) (hlast : inputs = before ++ v :: after)
    (hafter : Unbeaten wanted after v) (hextreme : Transitive wanted inputs → Unbeaten wanted inputs v) :
    IsHeld wanted inputs v := by
  refine ⟨⟨before, after, hlast, hafter, ?_⟩, hextreme⟩
  rw [hlast, List.append_cons, unbeaten_append, unbeaten_append]
  simp [unbeaten_self hw, hafter]

/-- The next input takes the place of the value held if it beats it. -/
lemma IsHeld.next (hw : wanted ≠ .eq) (h : IsHeld wanted inputs v) (u : Value) :
    IsHeld wanted (inputs ++ [u]) (if order? u v = some wanted then u else v) := by
  obtain ⟨before, after, hlast, hafter, -⟩ := h.last
  split_ifs with hbeats
  · apply IsHeld.of_last hw inputs [] rfl nofun
    intro htrans
    have hprior := h.extreme (htrans.mono (List.subset_append_left _ _))
    refine unbeaten_append.2 ⟨fun w hwmem hwu => hprior w hwmem ?_, unbeaten_self hw⟩
    exact htrans w (List.mem_append_left _ hwmem) u (by simp) v (by simp [hlast]) hwu hbeats
  · apply IsHeld.of_last hw before (after ++ [u])
    · simp [hlast]
    · exact unbeaten_append.2 ⟨hafter, unbeaten_singleton.2 hbeats⟩
    · intro htrans
      have hprior := h.extreme (htrans.mono (List.subset_append_left _ _))
      exact unbeaten_append.2 ⟨hprior, unbeaten_singleton.2 hbeats⟩

lemma isHeld_extremeOf (hw : wanted ≠ .eq) (hv : extremeOf wanted inputs = some v) : IsHeld wanted inputs v := by
  induction inputs using List.reverseRecOn generalizing v with
  | nil => cases hv
  | append_singleton inputs u ih =>
    rw [extremeOf_append_singleton] at hv
    cases hheld : extremeOf wanted inputs with
    | none =>
      obtain rfl : inputs = [] := extremeOf_eq_none.1 hheld
      obtain rfl : u = v := Option.some.inj hv
      exact IsHeld.of_last hw [] [] rfl nofun fun _ => unbeaten_self hw
    | some w =>
      rw [hheld, extreme_some] at hv
      exact Option.some.inj hv ▸ (ih hheld).next hw u

/-- When values are pushed, the accumulator ends with null if there are no inputs, and with one of them that no later
one beats otherwise. Exactly for values that compare transitively is this an extreme in each sequence of them, as it
is where numbers do not meet texts that name numbers. -/
structure FindsExtreme (f : AggregateFn) (wanted : Ordering) (values : List (Option Value)) : Prop where
  held : ∃ acc, pushAll f values = .ok acc ∧
    (acc.finish = .null ↔ ∀ v ∈ values, v = none ∨ v = some .null) ∧
    (acc.finish ≠ .null → IsHeld wanted (present values) acc.finish)
  always : (∀ pushed ⊆ values, ∀ acc, pushAll f pushed = .ok acc →
    Unbeaten wanted (present pushed) acc.finish) ↔ Transitive wanted (present values)
  unmixed : Unmixed (present values) → Transitive wanted (present values)

section
variable {f : AggregateFn} {values : List (Option Value)}

lemma pushAll_eq_tally (hf : f.requiresNumeric = false) (values : List (Option Value)) :
    pushAll f values = .ok (tally f values) :=
  foldlM_push_eq_ok.2 ⟨fun v _ => readable_of_not_numeric hf v, rfl⟩

variable (htally : ∀ values, (tally f values).finish = (extremeOf wanted (present values)).getD .null)
include htally

lemma transitive_of_unbeaten (hf : f.requiresNumeric = false)
    (h : ∀ pushed ⊆ values, ∀ acc, pushAll f pushed = .ok acc →
      Unbeaten wanted (present pushed) acc.finish) : Transitive wanted (present values) := by
  intro a ha b hb c hc hab hbc
  by_contra hac
  have hinputs : present [some c, some a, some b] = [c, a, b] := by
    simp [present, (mem_present.1 ha).2, (mem_present.1 hb).2, (mem_present.1 hc).2]
  have hsub : [some c, some a, some b] ⊆ values := by
    simp [(mem_present.1 ha).1, (mem_present.1 hb).1, (mem_present.1 hc).1]
  have hbeaten := h _ hsub _ (pushAll_eq_tally hf _)
  rw [htally, hinputs, extremeOf_of_not_transitive hbc hac] at hbeaten
  exact hbeaten a (by simp) hab

variable (hw : wanted ≠ .eq)
include hw

lemma unbeaten_tally (h : Transitive wanted (present values)) :
    Unbeaten wanted (present values) (tally f values).finish := by
  rw [htally]
  cases hextreme : extremeOf wanted (present values) with
  | none =>
    rw [extremeOf_eq_none.1 hextreme]
    exact nofun
  | some v => exact (isHeld_extremeOf hw hextreme).extreme h

lemma isHeld_tally (values : List (Option Value)) :
    ((tally f values).finish = .null ↔ ∀ v ∈ values, v = none ∨ v = some .null) ∧
      ((tally f values).finish ≠ .null → IsHeld wanted (present values) (tally f values).finish) := by
  rw [htally]
  cases hextreme : extremeOf wanted (present values) with
  | none => exact ⟨iff_of_true rfl (present_eq_nil.1 (extremeOf_eq_none.1 hextreme)), fun h => absurd rfl h⟩
  | some v =>
    have hmem := mem_of_extremeOf hextreme
    refine ⟨iff_of_false (mem_present.1 hmem).2 fun hall => ?_, fun _ => isHeld_extremeOf hw hextreme⟩
    rw [← present_eq_nil] at hall
    rw [hall] at hmem
    exact absurd hmem List.not_mem_nil

lemma findsExtreme_of_tally (hf : f.requiresNumeric = false) (values : List (Option Value)) :
    FindsExtreme f wanted values where
  held := ⟨tally f values, pushAll_eq_tally hf values, isHeld_tally htally hw values⟩
  always := by
    refine ⟨transitive_of_unbeaten htally hf, fun htrans pushed hsub acc hacc => ?_⟩
    rw [pushAll_eq_tally hf, Except.ok.injEq] at hacc
    rw [← hacc]
    apply unbeaten_tally htally hw (htrans.mono fun v hv => ?_)
    obtain ⟨hmem, hnull⟩ := mem_present.1 hv
    exact mem_present.2 ⟨hsub hmem, hnull⟩
  unmixed h := fun a ha b hb c hc => h.trans hw ha hb hc

end

/-- The least and the greatest of the values that are pushed. -/
theorem min_max_find_extremes (values : List (Option Value)) :
    FindsExtreme .min .lt values ∧ FindsExtreme .max .gt values :=
  ⟨findsExtreme_of_tally (fun values => by rw [tally_min]; rfl) (by decide) rfl values,
    findsExtreme_of_tally (fun values => by rw [tally_max]; rfl) (by decide) rfl values⟩

/-- Hours of which no text names a number. -/
def hoursOrDash : List (Option Value) := [some (.ofInt 5), none, some (.string "-"), some (.ofInt 3)]

/-- Nothing is less than the three of these hours. -/
theorem min_max_find_extremes_dash : Unmixed (present hoursOrDash) ∧
    ∃ acc, pushAll .min hoursOrDash = .ok acc ∧ Unbeaten .lt (present hoursOrDash) acc.finish := by
  have hunmixed : Unmixed (present hoursOrDash) := by
    have hdash : Decimal.ofText "-" = none := by decide +kernel
    have hpresent : present hoursOrDash = [.ofInt 5, .string "-", .ofInt 3] := rfl
    refine .inr fun s hs => ?_
    obtain rfl : s = "-" := by simpa [hpresent, Value.ofInt] using hs
    exact hdash
  have hfinds := (min_max_find_extremes hoursOrDash).1
  obtain ⟨acc, hacc, -⟩ := hfinds.held
  have hunbeaten := hfinds.always.2 (hfinds.unmixed hunmixed)
  exact ⟨hunmixed, acc, hacc, hunbeaten _ (List.Subset.refl _) acc hacc⟩

/-- Hours, written in three ways. -/
def hoursInWords : List (Option Value) := [some (.string "5.0"), some (.ofInt 5), some (.string "10")]

/-- Five is the same as the first of these hours, which is a text and comes after the last one, but five comes
before the last one itself. So five is the least of them, and the last one is found. -/
theorem min_misses_number : ∃ acc, pushAll .min hoursInWords = .ok acc ∧ acc.finish = .string "10" ∧
    Value.ofInt 5 ∈ present hoursInWords ∧ order? (.ofInt 5) acc.finish = some .lt ∧
    Unbeaten .lt (present hoursInWords) (.ofInt 5) := by
  have hpresent : present hoursInWords = [.string "5.0", .ofInt 5, .string "10"] := rfl
  have hsame : order? (.ofInt 5) (.string "5.0") = some .eq := by decide +kernel
  have hafter : order? (.string "10") (.string "5.0") = some .lt := by decide +kernel
  have hless : order? (.ofInt 5) (.string "10") = some .lt := by decide +kernel
  have hheld : extremeOf .lt (present hoursInWords) = some (.string "10") := by
    rw [hpresent]
    exact extremeOf_of_not_transitive hafter (by rw [hsame]; decide)
  refine ⟨tally .min hoursInWords, pushAll_eq_tally rfl _, ?_⟩
  rw [tally_min, hheld, hpresent]
  refine ⟨rfl, by simp, hless, ?_⟩
  have hself : Unbeaten .lt [Value.ofInt 5] (.ofInt 5) := unbeaten_self (by decide)
  have hfirst : order? (.string "5.0") (.ofInt 5) = some .eq := by rw [order?_swap, hsame]; rfl
  have hlast : order? (.string "10") (.ofInt 5) = some .gt := by rw [order?_swap, hless]; rfl
  simpa [Unbeaten, hfirst, hlast] using hself

end Tabulation.Evaluation
