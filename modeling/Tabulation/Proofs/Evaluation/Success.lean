import Tabulation.Proofs.Evaluation.Groups

/-! When evaluations succeed: the predicates of the plan can be prepared, and the values that it reads
are of the kinds that it needs. Plans that only compare and count always do. -/
namespace Tabulation.Evaluation
open Outcome

/-- All predicates of a plan can be prepared. -/
structure Run.Prepares (x : Run) : Prop where
  main : ∀ q ∈ x.plan.predicates, ∃ c, Condition.prepare x.specials q = .ok c
  semiJoins : ∀ s ∈ x.plan.semiJoins, ∀ q ∈ s.predicates, ∃ c, Condition.prepare x.specials q = .ok c
  subExpressions : ∀ s ∈ x.plan.subExpressions, ∀ q ∈ s.predicates,
    ∃ c, Condition.prepare x.specials q = .ok c

instance (x : Run) : Decidable x.Prepares :=
  decidable_of_iff
    ((∀ q ∈ x.plan.predicates, ∃ c, Condition.prepare x.specials q = .ok c) ∧
      (∀ s ∈ x.plan.semiJoins, ∀ q ∈ s.predicates, ∃ c, Condition.prepare x.specials q = .ok c) ∧
      ∀ s ∈ x.plan.subExpressions, ∀ q ∈ s.predicates, ∃ c, Condition.prepare x.specials q = .ok c)
    ⟨fun h => ⟨h.1, h.2.1, h.2.2⟩, fun h => ⟨h.main, h.semiJoins, h.subExpressions⟩⟩

variable {x : Run} {ts : List Tuple}

lemma exists_map_eq_ok {ε α β : Type} {y : Except ε α} {f : α → β} :
    (∃ b, y.map f = .ok b) ↔ ∃ a, y = .ok a := by
  cases y <;> simp [Except.map]

theorem exists_ready_iff : (∃ r, Ready.Of x r) ↔ x.Prepares := by
  have hmain := @exists_mapM_eq_ok _ _ _ (Condition.prepare x.specials) x.plan.predicates
  have hsemi : (∃ semis, x.plan.semiJoins.mapM (fun s =>
      (s.predicates.mapM (Condition.prepare x.specials)).map (s, ·)) = .ok semis) ↔
      ∀ s ∈ x.plan.semiJoins, ∀ q ∈ s.predicates, ∃ c, Condition.prepare x.specials q = .ok c := by
    rw [exists_mapM_eq_ok]
    simp only [exists_map_eq_ok, exists_mapM_eq_ok]
  have hsubs : (∃ subs, x.plan.subExpressions.mapM (fun s =>
      (s.predicates.mapM (Condition.prepare x.specials)).map fun cs => (⟨s, cs⟩ : ReadySub)) =
        .ok subs) ↔ ∀ s ∈ x.plan.subExpressions, ∀ q ∈ s.predicates,
          ∃ c, Condition.prepare x.specials q = .ok c := by
    rw [exists_mapM_eq_ok]
    simp only [exists_map_eq_ok, exists_mapM_eq_ok]
  constructor
  · rintro ⟨r, hr⟩
    exact ⟨hmain.1 ⟨_, hr.conditions⟩, hsemi.1 ⟨_, hr.semiJoins⟩, hsubs.1 ⟨_, hr.subExpressions⟩⟩
  · intro h
    obtain ⟨cs, hcs⟩ := hmain.2 h.main
    obtain ⟨semis, hsemis⟩ := hsemi.2 h.semiJoins
    obtain ⟨subs, hsubs⟩ := hsubs.2 h.subExpressions
    exact ⟨⟨x.plan, _, cs, semis, subs⟩, rfl, rfl, hcs, hsemis, hsubs⟩

lemma sort_nil (ts : List Tuple) : SortKey.sort [] ts = ts := by
  apply List.mergeSort_of_pairwise
  exact List.pairwise_of_forall fun s t => rfl

/-- A run that reads everything, whatever sub-expressions keep, and leaves the tuples in their order. -/
def Run.Yields (x : Run) (ts : List Tuple) : Prop :=
  x.Prepares ∧ (∀ root ∈ x.roots, ∀ s ∈ x.plan.subExpressions, x.ReadsSub root s) ∧
    (∀ root ∈ x.roots, x.Reads root) ∧ x.plan.sortKeys = [] ∧ x.result x.roots = ts

instance (x : Run) (ts : List Tuple) : Decidable (x.Yields ts) :=
  inferInstanceAs (Decidable (_ ∧ _ ∧ _ ∧ _ ∧ _))

lemma evaluate_of_yields (h : x.Yields ts) :
    evaluate x.tables x.specials x.plan = .ok ts := by
  obtain ⟨hprepares, hsubs, hreads, hsort, hresult⟩ := h
  obtain ⟨r, hr⟩ := exists_ready_iff.2 hprepares
  rw [evaluate_of_reads hr hsubs hreads, hsort, sort_nil, hresult]

/-- No aggregate of a sub-expression asks for numbers. -/
def Run.ReadsAnything (x : Run) : Prop :=
  ∀ s ∈ x.plan.subExpressions, ∀ a ∈ s.aggregates, a.function.requiresNumeric = false

lemma readsSub_of_readsAnything (h : x.ReadsAnything) {s : Plan.SubExpression} (hs : s ∈ x.plan.subExpressions)
    (root : Row) : x.ReadsSub root s :=
  fun a ha v _ => readable_of_not_numeric (h s hs a ha) v

/-- Where sub-expressions ask for no numbers, an evaluation succeeds if and only if the predicates can
be prepared and the values of joined rows be read. -/
theorem evaluate_eq_ok_iff (h : x.ReadsAnything) :
    evaluate x.tables x.specials x.plan = .ok ts ↔
      x.Prepares ∧ (∀ root ∈ x.roots, x.Reads root) ∧
        ts = SortKey.sort x.plan.sortKeys (x.result x.roots) := by
  rw [← exists_ready_iff]
  constructor
  · exact evaluate_eq_ok
  · rintro ⟨⟨r, hr⟩, hreads, rfl⟩
    exact evaluate_of_reads hr (fun root _ s hs => readsSub_of_readsAnything h hs root) hreads

end Tabulation.Evaluation

namespace Tabulation

/-- An operation that takes any values. -/
def Query.Operation.isPlain : Query.Operation → Bool
  | .like | .special _ => false
  | _ => true

/-- A plan that compares and counts only, and cuts no dates. -/
def Plan.isPlain (p : Plan) : Bool :=
  (p.predicates ++ p.semiJoins.flatMap (·.predicates) ++ p.subExpressions.flatMap (·.predicates)).all
      (·.operation.isPlain) &&
    (p.localAggregates ++ p.subExpressions.flatMap (·.aggregates)).all
      (!·.function.requiresNumeric) &&
    p.groupKeys.all (·.bucket.isNone)

namespace Evaluation

lemma prepare_of_isPlain {specials : Specials} {q : Plan.Predicate} (h : q.operation.isPlain) :
    ∃ c, Condition.prepare specials q = .ok c := by
  unfold Condition.prepare
  split
  · simp_all [Query.Operation.isPlain]
  · simp_all [Query.Operation.isPlain]
  · exact ⟨_, rfl⟩

/-- Plans that compare and count only are evaluated on any tables. -/
theorem evaluate_of_isPlain {tables : Tables} {specials : Specials} {p : Plan} (h : p.isPlain) :
    let x : Run := ⟨tables, specials, p⟩
    evaluate tables specials p = .ok (SortKey.sort p.sortKeys (x.result x.roots)) := by
  intro x
  simp only [Plan.isPlain, Bool.and_eq_true, List.all_eq_true, List.mem_append, List.mem_flatMap,
    Bool.not_eq_true', Option.isNone_iff_eq_none] at h
  obtain ⟨⟨hpredicates, haggregates⟩, hkeys⟩ := h
  have hany : x.ReadsAnything := fun s hs a ha => haggregates a (.inr ⟨s, hs, ha⟩)
  refine (evaluate_eq_ok_iff hany).2 ⟨⟨fun q hq => ?_, fun s hs q hq => ?_, fun s hs q hq => ?_⟩, ?_, rfl⟩
  · exact prepare_of_isPlain (hpredicates q (.inl (.inl hq)))
  · exact prepare_of_isPlain (hpredicates q (.inl (.inr ⟨s, hs, hq⟩)))
  · exact prepare_of_isPlain (hpredicates q (.inr ⟨s, hs, hq⟩))
  · refine fun root _ _ => ⟨fun s hs => readsSub_of_readsAnything hany hs root, fun b _ => ⟨fun k hk => ?_, ?_⟩⟩
    · rw [hkeys k hk]
      unfold groupValue
      split
      · exact ⟨_, rfl⟩
      · exact ⟨_, rfl⟩
      · exact ⟨_, rfl⟩
      · rename_i hbucket
        cases hbucket
    · exact fun a ha => readable_of_not_numeric (haggregates a (.inl ha)) _

/-- A run of a plan that compares and counts only, and leaves the tuples in their order. -/
def Run.gives (x : Run) (ts : List Tuple) : Bool :=
  x.plan.isPlain && x.plan.sortKeys = [] && x.result x.roots = ts

lemma evaluate_of_gives {tables : Tables} {specials : Specials} {p : Plan} {ts : List Tuple}
    (h : Run.gives ⟨tables, specials, p⟩ ts) : evaluate tables specials p = .ok ts := by
  simp only [Run.gives, Bool.and_eq_true, decide_eq_true_eq] at h
  obtain ⟨⟨hplain, hsort⟩, hresult⟩ := h
  rw [evaluate_of_isPlain hplain, hsort, sort_nil]
  exact congrArg Except.ok hresult

end Evaluation

end Tabulation
