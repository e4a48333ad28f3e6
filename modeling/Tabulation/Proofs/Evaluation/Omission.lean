import Tabulation.Proofs.Evaluation.Restriction

/-! Leaving out root rows that share nothing. An evaluation that is free of them has the same outcome,
be it a result or the first fault on the way. -/
namespace Tabulation.Evaluation
open Plan (ScopeBranch SemiJoin)
open Storage (Fault)
open Outcome

/-- What gives nothing may be left out of a sequence of computations. -/
lemma mapM_filter_bind {ε α β γ : Type} {f : α → Except ε (List β)} {p : α → Bool} {xs : List α}
    (h : ∀ a ∈ xs, p a = false → f a = .ok []) (next : List β → Except ε γ) :
    (xs.mapM f >>= fun ys => next ys.flatten) =
      (xs.filter p).mapM f >>= fun ys => next ys.flatten := by
  induction xs generalizing next with
  | nil => rfl
  | cons x xs ih =>
    have ih := ih fun a ha => h a (List.mem_cons_of_mem _ ha)
    have hcons : ∀ zs : List α, ((x :: zs).mapM f >>= fun ys => next ys.flatten) =
        f x >>= fun y => zs.mapM f >>= fun ys => next (y ++ ys.flatten) := by
      intro zs
      simp only [List.mapM_cons, bind_assoc, pure_bind, List.flatten_cons]
    rw [hcons]
    cases hp : p x with
    | true =>
      rw [List.filter_cons_of_pos hp, hcons]
      exact bind_congr fun y => ih fun zs => next (y ++ zs)
    | false =>
      rw [List.filter_cons_of_neg (by simp [hp]), h x List.mem_cons_self hp]
      exact ih next

lemma mapM_congr {ε α β : Type} {f g : α → Except ε β} {xs : List α} (h : ∀ a ∈ xs, f a = g a) :
    xs.mapM f = xs.mapM g := by
  induction xs with
  | nil => rfl
  | cons x xs ih =>
    rw [List.mapM_cons, List.mapM_cons, h x List.mem_cons_self,
      ih fun a ha => h a (List.mem_cons_of_mem _ ha)]

/-- A root row shares the same in runs whose plans differ in scope and semi-joins at most, if it is
admitted to both or to neither. -/
theorem Ready.Of.shares_of_body {x x' : Run} {r r' : Ready} {root : Row} (h : r.Of x) (h' : r'.Of x')
    (hplan : x'.plan = { x.plan with scope := x'.plan.scope, semiJoins := x'.plan.semiJoins })
    (hspecials : x'.specials = x.specials) (hadmits : x'.admits root = x.admits root)
    (hmain : x'.mainRows root = x.mainRows root)
    (hsub : ∀ s ∈ x.plan.subExpressions, x'.subRows s root = x.subRows s root) :
    r'.shares root = r.shares root := by
  have hready : r'.subExpressions = r.subExpressions := by
    have hprepared := h'.subExpressions
    rw [hplan, hspecials] at hprepared
    exact Except.ok.inj (hprepared.symm.trans h.subExpressions)
  refine h.shares_congr h' (by rw [hplan]) (by rw [hplan]) hadmits hmain ?_
  rw [hready, List.forall₂_same]
  intro s hs
  rw [h'.partials_eq (hready ▸ hs), h.partials_eq hs, hsub s.sub (h.map_sub ▸ List.mem_map_of_mem hs)]

/-- Where the root rows that are left out share nothing, and the others share the same in both plans, the
outcome is the same. -/
theorem evaluate_keep_eq_of_shares {tables : Tables} {specials : Specials} {p q : Plan} {f : Row → Bool}
    {r r' : Ready} (h : r.Of ⟨tables, specials, p⟩) (h' : r'.Of ⟨tables.keep p.root f, specials, q⟩)
    (hroot : q.root = p.root) (hsort : q.sortKeys = p.sortKeys) (htuples : tuples q = tuples p)
    (hkept : ∀ root ∈ tables.rows p.root, f root = true → r'.shares root = r.shares root)
    (homitted : ∀ root ∈ tables.rows p.root, f root = false → r.shares root = .ok []) :
    evaluate tables specials p = evaluate (tables.keep p.root f) specials q := by
  have hready := ofPlan_eq_ok.2 h
  have hready' := ofPlan_eq_ok.2 h'
  simp only at hready hready'
  unfold evaluate
  rw [hready, hready', hroot, hsort, htuples]
  simp only [rows_keep, if_true]
  have hstep := mapM_filter_bind homitted fun shares =>
    (.ok (SortKey.sort p.sortKeys (tuples p shares)) : Except Fault (List Tuple))
  have hmap : ((tables.rows p.root).filter f).mapM r'.shares = ((tables.rows p.root).filter f).mapM r.shares :=
    mapM_congr fun root hmem => hkept root (List.mem_filter.1 hmem).1 (List.mem_filter.1 hmem).2
  exact hstep.trans (by rw [← hmap]; rfl)

/-- The rows of another plan on tables without some root rows. Where these share nothing and the others
are admitted to both plans or to neither, the outcome is the same. -/
theorem evaluate_keep_eq {tables : Tables} {specials : Specials} {p : Plan}
    {scope : Option (List ScopeBranch)} {semiJoins : List SemiJoin} {f : Row → Bool}
    (hroot : ∀ j ∈ allJoins p, j.step.target ≠ p.root)
    {r r' : Ready} (h : r.Of ⟨tables, specials, p⟩)
    (h' : r'.Of ⟨tables.keep p.root f, specials, { p with scope := scope, semiJoins := semiJoins }⟩)
    (hkept : ∀ root ∈ tables.rows p.root, f root = true →
      Run.admits ⟨tables.keep p.root f, specials, { p with scope := scope, semiJoins := semiJoins }⟩ root =
        Run.admits ⟨tables, specials, p⟩ root)
    (homitted : ∀ root ∈ tables.rows p.root, f root = false → r.shares root = .ok []) :
    evaluate tables specials p =
      evaluate (tables.keep p.root f) specials { p with scope := scope, semiJoins := semiJoins } := by
  have hreach : ∀ joins ⊆ allJoins p,
      (tables.keep p.root f).reach p.rootAlias joins = tables.reach p.rootAlias joins :=
    fun joins hjoins => reach_keep (fun j hj => hroot j (hjoins hj)) tables f p.rootAlias
  refine evaluate_keep_eq_of_shares h h' rfl rfl rfl (fun root hmem hf => ?_) homitted
  refine h.shares_of_body h' rfl rfl (hkept root hmem hf) ?_ fun s hs => ?_
  · simp only [Run.mainRows, Run.rowsAlong, hreach _ (joins_subset_allJoins p)]
  · simp only [Run.subRows, Run.rowsAlong, hreach _ (subJoins_subset_allJoins hs)]

end Tabulation.Evaluation
