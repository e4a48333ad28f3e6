import Tabulation.Proofs.Evaluation.Partners
import Tabulation.Proofs.Plan.JoinList

/-! Expanding a root row along steps. Joins that are all left keep every way to go on, and to make some
of them inner is to keep the rows that are bound there. Steps that do not fan out leave the number of
rows as it is. -/
namespace Tabulation

namespace Evaluation
open Catalog (Step)
open Plan (Join joinsOf joinsOf_append map_step_joinsOf)

/-- The aliases that a root row and the targets of steps are bound to. -/
def boundBy (rootAlias : String) (steps : List Step) : List String :=
  rootAlias :: steps.map (·.target.aliasName)

/-- Steps that start at what is bound already, each one with an alias of its own. -/
inductive Chained (rootAlias : String) : List Step → Prop
  | nil : Chained rootAlias []
  | snoc {steps : List Step} {s : Step} (prior : Chained rootAlias steps)
      (source : s.source.aliasName ∈ boundBy rootAlias steps)
      (fresh : s.target.aliasName ∉ boundBy rootAlias steps) : Chained rootAlias (steps ++ [s])

/-- The rows to which a step leads from the row bound to its source. -/
def Tables.partnersOf (tables : Tables) (s : Step) (b : Binding) : List Row :=
  ((b.row? s.source.aliasName).map (tables.matching s)).getD []

/-- A binding that a step goes on from: it has one partner row, or there was none. -/
def Tables.Follows (tables : Tables) (s : Step) (b : Binding) : Prop :=
  (∃ row ∈ tables.partnersOf s b, b.row? s.target.aliasName = some row) ∨
    (tables.partnersOf s b = [] ∧ b.row? s.target.aliasName = none)

/-- Joins one step to a binding, or leaves it as it is where a row may go without. -/
def Tables.joinStep (tables : Tables) (inner : Bool) (s : Step) (b : Binding) : List Binding :=
  match tables.partnersOf s b with
  | [] => if inner then [] else [b]
  | rows => rows.map fun row => (s.target.aliasName, row) :: b

/-- Everything that steps lead to from a root row, which goes on alone where they lead nowhere. -/
def Tables.spread (tables : Tables) (rootAlias : String) (steps : List Step) (root : Row) :
    List Binding :=
  tables.reach rootAlias (joinsOf (fun _ => false) steps) root

/-- Whether a binding has the rows that inner joins ask for. -/
def meets (inner : Step → Bool) (steps : List Step) (b : Binding) : Bool :=
  steps.all fun s => !inner s || (b.row? s.target.aliasName).isSome

variable {tables : Tables} {rootAlias : String} {steps : List Step} {s : Step} {root : Row}
  {b b' : Binding} {inner : Step → Bool}

@[simp] lemma row?_cons (aliasName : String) (row : Row) (b : Binding) (wanted : String) :
    Binding.row? ((aliasName, row) :: b) wanted =
      if wanted = aliasName then some row else b.row? wanted := by
  unfold Binding.row?
  rw [List.lookup_cons]
  by_cases h : wanted = aliasName
  · simp [h]
  · have : (wanted == aliasName) = false := by simpa using h
    simp [this, h]

lemma keyed_of_joins {joins : List Join} (hk : ∀ j ∈ joins, tables.Keyed j.step)
    (he : joins = joinsOf inner steps) : ∀ s ∈ steps, tables.Keyed s := by
  intro s hs
  have hmem : s ∈ joins.map (·.step) := by rwa [he, map_step_joinsOf]
  obtain ⟨j, hj, rfl⟩ := List.mem_map.1 hmem
  exact hk j hj

lemma mem_boundBy_append_singleton {aliasName : String} :
    aliasName ∈ boundBy rootAlias (steps ++ [s]) ↔
      aliasName ∈ boundBy rootAlias steps ∨ aliasName = s.target.aliasName := by
  simp [boundBy, or_assoc]

lemma target_mem_boundBy (hs : s ∈ steps) : s.target.aliasName ∈ boundBy rootAlias steps :=
  List.mem_cons_of_mem _ (List.mem_map.2 ⟨s, hs, rfl⟩)

lemma joinOne_eq_joinStep (tables : Tables) (i : Bool) (s : Step) :
    joinOne (fun join => tables.matching join.step)
      ⟨if i then .inner else .left, s.source.aliasName, s.target.aliasName, s⟩ =
      tables.joinStep i s := by
  funext b
  unfold joinOne Tables.joinStep Tables.partnersOf
  cases hrow : b.row? s.source.aliasName with
  | none => cases i <;> simp
  | some row =>
    cases hrows : tables.matching s row with
    | nil => cases i <;> simp [hrows]
    | cons r rs => simp [hrows]

/-- A join leaves a binding as it is, or binds one of the rows that it finds. -/
lemma of_mem_joinOne {partners : Join → Row → List Row} {j : Join} {b b' : Binding}
    (h : b' ∈ joinOne partners j b) :
    b' = b ∨ ∃ parent, ∃ next ∈ partners j parent, b' = (j.aliasName, next) :: b := by
  have hkept : b' ∈ (if j.kind = .left then [b] else []) → b' = b := by
    intro hb
    split_ifs at hb
    · exact List.mem_singleton.1 hb
    · simp at hb
  unfold joinOne at h
  split at h
  · exact .inl (hkept h)
  · exact .inl (hkept h)
  · rename_i rows _ hrows
    obtain ⟨next, hnext, rfl⟩ := List.mem_map.1 h
    obtain ⟨parent, -, rfl⟩ := Option.map_eq_some_iff.1 hrows
    exact .inr ⟨parent, next, hnext, rfl⟩

/-- A join rebinds its own alias only. -/
lemma row?_of_mem_joinOne {partners : Join → Row → List Row} {j : Join} {b b' : Binding}
    (h : b' ∈ joinOne partners j b) {aliasName : String} (ha : aliasName ≠ j.aliasName) :
    b'.row? aliasName = b.row? aliasName := by
  rcases of_mem_joinOne h with rfl | ⟨parent, next, -, rfl⟩
  · rfl
  · rw [row?_cons, if_neg ha]

lemma reach_append_singleton (inner : Step → Bool) (steps : List Step) (s : Step) (root : Row) :
    tables.reach rootAlias (joinsOf inner (steps ++ [s])) root =
      (tables.reach rootAlias (joinsOf inner steps) root).flatMap (tables.joinStep (inner s) s) := by
  unfold Tables.reach
  rw [joinsOf_append, expand_append, ← joinOne_eq_joinStep]
  rfl

lemma spread_append_singleton (steps : List Step) (s : Step) (root : Row) :
    tables.spread rootAlias (steps ++ [s]) root =
      (tables.spread rootAlias steps root).flatMap (tables.joinStep false s) :=
  reach_append_singleton _ steps s root

lemma partnersOf_congr (tables : Tables) (h : b.row? s.source.aliasName = b'.row? s.source.aliasName) :
    tables.partnersOf s b = tables.partnersOf s b' := by
  unfold Tables.partnersOf
  rw [h]

lemma row?_of_mem_joinStep {i : Bool} (h : b' ∈ tables.joinStep i s b) {aliasName : String}
    (ha : aliasName ≠ s.target.aliasName) : b'.row? aliasName = b.row? aliasName := by
  rw [← joinOne_eq_joinStep] at h
  exact row?_of_mem_joinOne h ha

lemma follows_of_mem_joinStep {i : Bool} (h : b' ∈ tables.joinStep i s b)
    (hs : s.source.aliasName ≠ s.target.aliasName) (hb : b.row? s.target.aliasName = none) :
    tables.Follows s b' := by
  have hpartners := partnersOf_congr tables (row?_of_mem_joinStep h hs)
  unfold Tables.Follows
  rw [hpartners]
  unfold Tables.joinStep at h
  split at h
  · rename_i hnil
    cases i
    · rw [List.mem_singleton.1 h]
      exact .inr ⟨hnil, hb⟩
    · simp at h
  · obtain ⟨row, hrow, rfl⟩ := List.mem_map.1 h
    exact .inl ⟨row, hrow, by simp⟩

lemma Tables.Follows.isSome_source (h : tables.Follows s b)
    (ht : (b.row? s.target.aliasName).isSome) : (b.row? s.source.aliasName).isSome := by
  rcases h with ⟨row, hrow, -⟩ | ⟨-, hnone⟩
  · cases hsource : b.row? s.source.aliasName with
    | none => simp [Tables.partnersOf, hsource] at hrow
    | some row => rfl
  · simp [hnone] at ht

lemma Tables.Follows.congr (h : tables.Follows s b)
    (hsource : b.row? s.source.aliasName = b'.row? s.source.aliasName)
    (htarget : b.row? s.target.aliasName = b'.row? s.target.aliasName) : tables.Follows s b' := by
  unfold Tables.Follows at h ⊢
  rwa [← partnersOf_congr tables hsource, ← htarget]

lemma Chained.source_mem (h : Chained rootAlias steps) (hs : s ∈ steps) :
    s.source.aliasName ∈ boundBy rootAlias steps := by
  induction h with
  | nil => simp at hs
  | @snoc steps t prior source fresh ih =>
    rw [mem_boundBy_append_singleton]
    rcases List.mem_append.1 hs with hs | hs
    · exact .inl (ih hs)
    · rw [List.mem_singleton.1 hs]
      exact .inl source

/-- Each of the rows that are reached follows all steps, and binds nothing besides. -/
theorem Chained.of_mem_spread (h : Chained rootAlias steps)
    (hb : b ∈ tables.spread rootAlias steps root) :
    b.row? rootAlias = some root ∧ (∀ a ∉ boundBy rootAlias steps, b.row? a = none) ∧
      ∀ s ∈ steps, tables.Follows s b := by
  induction h generalizing b with
  | nil =>
    have hb : b = [(rootAlias, root)] := by simpa [Tables.spread, Tables.reach, expand, joinsOf] using hb
    subst hb
    refine ⟨by simp, fun a ha => ?_, by simp⟩
    have : a ≠ rootAlias := fun e => ha (by simp [boundBy, e])
    simp [this, Binding.row?]
  | @snoc steps s prior source fresh ih =>
    unfold Tables.spread at hb ih
    rw [reach_append_singleton] at hb
    obtain ⟨c, hc, hbc⟩ := List.mem_flatMap.1 hb
    obtain ⟨hroot, hfree, hfollows⟩ := ih hc
    have hne : ∀ a ∈ boundBy rootAlias steps, a ≠ s.target.aliasName := fun a ha e => fresh (e ▸ ha)
    have hkeep : ∀ a ∈ boundBy rootAlias steps, b.row? a = c.row? a := fun a ha =>
      row?_of_mem_joinStep hbc (hne a ha)
    refine ⟨(hkeep _ List.mem_cons_self).trans hroot, fun a ha => ?_, fun t ht => ?_⟩
    · rw [mem_boundBy_append_singleton, not_or] at ha
      exact (row?_of_mem_joinStep hbc ha.2).trans (hfree a ha.1)
    · rcases List.mem_append.1 ht with ht | ht
      · have hsource := hkeep _ (prior.source_mem ht)
        exact (hfollows t ht).congr hsource.symm (hkeep _ (target_mem_boundBy ht)).symm
      · obtain rfl := List.mem_singleton.1 ht
        exact follows_of_mem_joinStep hbc (hne _ source) (hfree _ fresh)

lemma Chained.append_singleton_inv (h : Chained rootAlias (steps ++ [s])) :
    Chained rootAlias steps ∧ s.source.aliasName ∈ boundBy rootAlias steps ∧
      s.target.aliasName ∉ boundBy rootAlias steps := by
  generalize hall : steps ++ [s] = all at h
  cases h with
  | nil => simp at hall
  | snoc prior source fresh =>
    obtain ⟨rfl, hst⟩ := List.append_inj' hall rfl
    obtain rfl := List.singleton_inj.1 hst
    exact ⟨prior, source, fresh⟩

lemma Chained.of_append {later : List Step} (h : Chained rootAlias (steps ++ later)) :
    Chained rootAlias steps := by
  induction later using List.reverseRecOn with
  | nil => simpa using h
  | append_singleton later s ih =>
    rw [← List.append_assoc] at h
    exact ih h.append_singleton_inv.1

lemma joinStep_eq_filter (i : Bool) (hb : b.row? s.target.aliasName = none) :
    tables.joinStep i s b =
      (tables.joinStep false s b).filter fun c => !i || (c.row? s.target.aliasName).isSome := by
  cases i with
  | false => simp
  | true =>
    unfold Tables.joinStep
    cases tables.partnersOf s b with
    | nil => simp [hb]
    | cons row rows => simp [List.filter_map, Function.comp_def]

lemma flatMap_filter_eq {α β : Type} {p : α → Bool} {q : β → Bool} {f g : α → List β}
    {xs : List α} (h : ∀ x ∈ xs, (if p x then f x else []) = (g x).filter q) :
    (xs.filter p).flatMap f = (xs.flatMap g).filter q := by
  induction xs with
  | nil => rfl
  | cons x xs ih =>
    have hx := h x List.mem_cons_self
    rw [List.flatMap_cons, List.filter_append, ← ih fun y hy => h y (List.mem_cons_of_mem _ hy), ← hx]
    by_cases hp : p x <;> simp [hp]

/-- Inner joins keep those of the rows that are bound to their aliases. -/
theorem Chained.reach_eq_filter (h : Chained rootAlias steps) (inner : Step → Bool) (root : Row) :
    tables.reach rootAlias (joinsOf inner steps) root =
      (tables.spread rootAlias steps root).filter (meets inner steps) := by
  induction h with
  | nil =>
    have hall : meets inner [] = fun _ => true := rfl
    rw [hall, List.filter_true]
    rfl
  | @snoc steps s prior source fresh ih =>
    rw [reach_append_singleton, ih, spread_append_singleton]
    apply flatMap_filter_eq
    intro b hb
    have hfree := (prior.of_mem_spread hb).2.1 _ fresh
    -- the join leaves what the earlier steps ask for as it is
    have hmeets : ∀ c ∈ tables.joinStep false s b, meets inner (steps ++ [s]) c =
        (meets inner steps b && (!inner s || (c.row? s.target.aliasName).isSome)) := by
      intro c hc
      have hkeep : ∀ t ∈ steps, c.row? t.target.aliasName = b.row? t.target.aliasName := fun t ht =>
        row?_of_mem_joinStep hc fun e => fresh (e ▸ target_mem_boundBy ht)
      rw [Bool.eq_iff_iff]
      simp only [meets, List.all_append, List.all_cons, List.all_nil, Bool.and_true,
        Bool.and_eq_true, List.all_eq_true]
      exact and_congr_left' (forall₂_congr fun t ht => by rw [hkeep t ht])
    rw [List.filter_congr hmeets]
    cases meets inner steps b with
    | false => simp
    | true => simp [← joinStep_eq_filter (inner s) hfree]

/-- What two bindings bind to some aliases is the same. -/
def Binding.Agree (aliases : List String) (b b' : Binding) : Prop :=
  ∀ a ∈ aliases, b.row? a = b'.row? a

lemma forall₂_flatMap {α β γ δ : Type} {R : α → β → Prop} {S : γ → δ → Prop} {f : α → List γ}
    {g : β → List δ} {xs : List α} {ys : List β} (h : List.Forall₂ R xs ys)
    (hfg : ∀ x ∈ xs, ∀ y ∈ ys, R x y → List.Forall₂ S (f x) (g y)) :
    List.Forall₂ S (xs.flatMap f) (ys.flatMap g) := by
  induction h with
  | nil => exact .nil
  | cons hxy hrest ih =>
    rw [List.flatMap_cons, List.flatMap_cons]
    refine List.rel_append (hfg _ List.mem_cons_self _ List.mem_cons_self hxy) (ih ?_)
    exact fun x hx y hy => hfg x (List.mem_cons_of_mem _ hx) y (List.mem_cons_of_mem _ hy)

lemma meets_iff : meets inner steps b ↔
    ∀ s ∈ steps, inner s → (b.row? s.target.aliasName).isSome := by
  rw [meets, List.all_eq_true]
  refine forall₂_congr fun s _ => ?_
  cases inner s <;> simp

lemma meets_eq {aliases : List String} (h : Binding.Agree aliases b b')
    (hs : ∀ s ∈ steps, s.target.aliasName ∈ aliases) : meets inner steps b = meets inner steps b' := by
  rw [Bool.eq_iff_iff, meets_iff, meets_iff]
  exact forall₂_congr fun s hmem => by rw [h _ (hs s hmem)]

lemma partnersOf_length_le (hk : tables.Keyed s) (hs : s.fansOut = false) (b : Binding) :
    (tables.partnersOf s b).length ≤ 1 := by
  unfold Tables.partnersOf
  cases b.row? s.source.aliasName with
  | none => simp
  | some row => exact matching_length_le hk hs row

lemma joinStep_direct (hk : tables.Keyed s) (hs : s.fansOut = false) (b : Binding) :
    ∃ c, tables.joinStep false s b = [c] := by
  have hlen := partnersOf_length_le hk hs b
  unfold Tables.joinStep
  match tables.partnersOf s b, hlen with
  | [], _ => exact ⟨b, rfl⟩
  | [row], _ => exact ⟨(s.target.aliasName, row) :: b, rfl⟩

lemma joinStep_length_le (hk : tables.Keyed s) (hs : s.fansOut = false) (i : Bool) (b : Binding) :
    (tables.joinStep i s b).length ≤ 1 := by
  have hlen := partnersOf_length_le hk hs b
  unfold Tables.joinStep
  split
  · cases i <;> simp
  · simpa using hlen

lemma length_flatMap_le {α β : Type} {f : α → List β} (h : ∀ x, (f x).length ≤ 1) (xs : List α) :
    (xs.flatMap f).length ≤ xs.length := by
  induction xs with
  | nil => simp
  | cons x xs ih =>
    have := h x
    simp only [List.flatMap_cons, List.length_append, List.length_cons]
    omega

/-- Steps that do not fan out add no rows. -/
theorem reach_length_le {later : List Step} (hk : ∀ s ∈ later, tables.Keyed s)
    (hl : ∀ s ∈ later, s.fansOut = false) (inner : Step → Bool) (steps : List Step) (root : Row) :
    (tables.reach rootAlias (joinsOf inner (steps ++ later)) root).length ≤
      (tables.reach rootAlias (joinsOf inner steps) root).length := by
  induction later using List.reverseRecOn with
  | nil => simp
  | append_singleton later s ih =>
    have hs : s ∈ later ++ [s] := by simp
    have ih := ih (fun t ht => hk t (List.mem_append_left _ ht))
      fun t ht => hl t (List.mem_append_left _ ht)
    rw [← List.append_assoc, reach_append_singleton]
    exact Nat.le_trans (length_flatMap_le (joinStep_length_le (hk s hs) (hl s hs) (inner s)) _) ih

/-- Left joins along steps that do not fan out leave the rows as they are, apart from what they bind. -/
theorem Chained.reach_append {later : List Step} (h : Chained rootAlias (steps ++ later))
    (inner : Step → Bool)
    (hk : ∀ s ∈ later, tables.Keyed s) (hl : ∀ s ∈ later, s.fansOut = false)
    (hinner : ∀ s ∈ later, inner s = false) (root : Row) :
    List.Forall₂ (Binding.Agree (boundBy rootAlias steps))
      (tables.reach rootAlias (joinsOf inner steps) root)
      (tables.reach rootAlias (joinsOf inner (steps ++ later)) root) := by
  induction later using List.reverseRecOn with
  | nil =>
    rw [List.append_nil, List.forall₂_same]
    exact fun b _ a _ => rfl
  | append_singleton later s ih =>
    have hs : s ∈ later ++ [s] := by simp
    rw [← List.append_assoc] at h ⊢
    obtain ⟨prior, -, fresh⟩ := h.append_singleton_inv
    have ih := ih prior (fun t ht => hk t (List.mem_append_left _ ht))
      (fun t ht => hl t (List.mem_append_left _ ht)) fun t ht => hinner t (List.mem_append_left _ ht)
    rw [reach_append_singleton, hinner s hs, ← List.flatMap_singleton'
      (tables.reach rootAlias (joinsOf inner steps) root)]
    refine forall₂_flatMap ih fun b _ b' _ hbb' => ?_
    obtain ⟨c, hc⟩ := joinStep_direct (hk s hs) (hl s hs) b'
    rw [hc]
    refine .cons (fun a ha => (hbb' a ha).trans ?_) .nil
    have hne : a ≠ s.target.aliasName := by
      rintro rfl
      apply fresh
      simp only [boundBy, List.map_append, List.mem_cons, List.mem_append] at ha ⊢
      tauto
    exact (row?_of_mem_joinStep (hc ▸ List.mem_singleton_self c) hne).symm

lemma Tables.Follows.row?_eq (h : tables.Follows s b) (h' : tables.Follows s b')
    (hk : tables.Keyed s) (hs : s.fansOut = false)
    (hsource : b.row? s.source.aliasName = b'.row? s.source.aliasName) :
    b.row? s.target.aliasName = b'.row? s.target.aliasName := by
  have hsame := partnersOf_congr tables hsource
  have hlen := partnersOf_length_le hk hs b
  unfold Tables.Follows at h h'
  rw [← hsame] at h'
  generalize tables.partnersOf s b = rows at h h' hlen
  match rows, hlen with
  | [], _ => simp_all
  | [row], _ => simp_all

lemma exists_spread_eq (hk : ∀ s ∈ steps, tables.Keyed s) (hl : ∀ s ∈ steps, s.fansOut = false)
    (rootAlias : String) (root : Row) : ∃ c, tables.spread rootAlias steps root = [c] := by
  induction steps using List.reverseRecOn with
  | nil => exact ⟨_, rfl⟩
  | append_singleton steps s ih =>
    obtain ⟨c, hc⟩ := ih (fun t ht => hk t (List.mem_append_left _ ht))
      fun t ht => hl t (List.mem_append_left _ ht)
    rw [spread_append_singleton, hc, List.flatMap_singleton]
    exact joinStep_direct (hk s (by simp)) (hl s (by simp)) c

lemma joinStep_agree {aliases : List String} (i : Bool) (h : Binding.Agree aliases b b')
    (hsource : s.source.aliasName ∈ aliases) (hb : b.row? s.target.aliasName = none)
    (hb' : b'.row? s.target.aliasName = none) :
    List.Forall₂ (Binding.Agree (aliases ++ [s.target.aliasName])) (tables.joinStep i s b)
      (tables.joinStep i s b') := by
  have hsame := partnersOf_congr tables (h _ hsource)
  have hrow : ∀ row, Binding.Agree (aliases ++ [s.target.aliasName])
      ((s.target.aliasName, row) :: b) ((s.target.aliasName, row) :: b') := by
    intro row a ha
    rw [row?_cons, row?_cons]
    split_ifs with hne
    · rfl
    · exact h a (by simpa [hne] using ha)
  unfold Tables.joinStep
  rw [hsame]
  split
  · cases i
    · refine .cons (fun a ha => ?_) .nil
      rcases List.mem_append.1 ha with ha | ha
      · exact h a ha
      · rw [List.mem_singleton.1 ha, hb, hb']
    · exact .nil
  · rw [List.forall₂_map_left_iff, List.forall₂_map_right_iff, List.forall₂_same]
    exact fun row _ => hrow row

/-- Rows that were joined to steps that do not fan out beforehand are the same as if they are joined
on the way. -/
theorem Chained.spread_absorb {main : List Step} (h : Chained rootAlias steps)
    (hall : Chained rootAlias (main ++ steps.filter (· ∉ main)))
    (hk : ∀ s ∈ main, tables.Keyed s) (hm : ∀ s ∈ main, s.fansOut = false) (root : Row) :
    List.Forall₂ (Binding.Agree (boundBy rootAlias steps))
      (tables.spread rootAlias steps root)
      (tables.spread rootAlias (main ++ steps.filter (· ∉ main)) root) := by
  induction h with
  | nil =>
    rw [List.filter_nil, List.append_nil] at hall ⊢
    have hall : Chained rootAlias ([] ++ main) := hall
    simpa [Tables.spread] using hall.reach_append (fun _ => false) hk hm (by simp) root
  | @snoc steps s prior source fresh ih =>
    have hbound : boundBy rootAlias (steps ++ [s]) =
        boundBy rootAlias steps ++ [s.target.aliasName] := by simp [boundBy]
    rw [List.filter_append] at hall ⊢
    by_cases hs : s ∈ main
    · -- the step was taken before, and its row is determined by the row of its source
      have hnil : [s].filter (· ∉ main) = [] := by simp [hs]
      rw [hnil, List.append_nil] at hall ⊢
      rw [spread_append_singleton, ← List.flatMap_singleton'
        (tables.spread rootAlias (main ++ steps.filter (· ∉ main)) root)]
      refine forall₂_flatMap (ih hall) fun b hb b' hb' hbb' => ?_
      obtain ⟨c, hc⟩ := joinStep_direct (hk s hs) (hm s hs) b
      have hmem : c ∈ tables.joinStep false s b := hc ▸ List.mem_singleton_self c
      have hne : ∀ a ∈ boundBy rootAlias steps, a ≠ s.target.aliasName :=
        fun a ha e => fresh (e ▸ ha)
      have hkeep : ∀ a ∈ boundBy rootAlias steps, c.row? a = b'.row? a := fun a ha =>
        (row?_of_mem_joinStep hmem (hne a ha)).trans (hbb' a ha)
      have hfollows := follows_of_mem_joinStep hmem (hne _ source) ((prior.of_mem_spread hb).2.1 _ fresh)
      have hfollows' := (hall.of_mem_spread hb').2.2 s (List.mem_append_left _ hs)
      rw [hc, hbound]
      refine .cons (fun a ha => ?_) .nil
      rcases List.mem_append.1 ha with ha | ha
      · exact hkeep a ha
      · rw [List.mem_singleton.1 ha]
        exact hfollows.row?_eq hfollows' (hk s hs) (hm s hs) (hkeep _ source)
    · have hself : [s].filter (· ∉ main) = [s] := by simp [hs]
      rw [hself, ← List.append_assoc] at hall ⊢
      obtain ⟨hprior, -, hfresh⟩ := hall.append_singleton_inv
      rw [spread_append_singleton, spread_append_singleton, hbound]
      refine forall₂_flatMap (ih hprior) fun b hb b' hb' hbb' => ?_
      exact joinStep_agree false hbb' source ((prior.of_mem_spread hb).2.1 _ fresh)
        ((hprior.of_mem_spread hb').2.1 _ hfresh)

/-- Rows that follow some of the steps are part of a row that follows all of them. -/
theorem Chained.exists_extension (h : Chained rootAlias steps) (aliases : List String)
    (hroot : b.row? rootAlias = some root)
    (hb : ∀ s ∈ steps, s.target.aliasName ∈ aliases →
      tables.Follows s b ∧ s.source.aliasName ∈ rootAlias :: aliases) :
    ∃ c ∈ tables.spread rootAlias steps root,
      ∀ a ∈ boundBy rootAlias steps, a ∈ rootAlias :: aliases → c.row? a = b.row? a := by
  induction h with
  | nil =>
    refine ⟨[(rootAlias, root)], List.mem_singleton_self _, fun a ha _ => ?_⟩
    obtain rfl : a = rootAlias := by simpa [boundBy] using ha
    simp [hroot]
  | @snoc steps s prior source fresh ih =>
    obtain ⟨c, hc, hcb⟩ := ih fun t ht => hb t (List.mem_append_left _ ht)
    have hfree := (prior.of_mem_spread hc).2.1 _ fresh
    -- what is joined agrees on the earlier aliases, so only the step's own alias matters
    have hstep : ∀ d ∈ tables.joinStep false s c,
        (s.target.aliasName ∈ rootAlias :: aliases →
          d.row? s.target.aliasName = b.row? s.target.aliasName) →
        ∃ d ∈ tables.spread rootAlias (steps ++ [s]) root,
          ∀ a ∈ boundBy rootAlias (steps ++ [s]), a ∈ rootAlias :: aliases → d.row? a = b.row? a := by
      intro d hd hds
      rw [spread_append_singleton]
      refine ⟨d, List.mem_flatMap.2 ⟨c, hc, hd⟩, fun a ha hal => ?_⟩
      by_cases has : a = s.target.aliasName
      · subst has
        exact hds hal
      · have ha := (mem_boundBy_append_singleton.1 ha).resolve_right has
        exact (row?_of_mem_joinStep hd has).trans (hcb a ha hal)
    by_cases hs : s.target.aliasName ∈ rootAlias :: aliases
    · have hs' : s.target.aliasName ∈ aliases := by
        rcases List.mem_cons.1 hs with hs | hs
        · exact absurd (hs ▸ List.mem_cons_self) fresh
        · exact hs
      obtain ⟨hfollows, hsource⟩ := hb s (by simp) hs'
      have hsame := partnersOf_congr tables (hcb _ source hsource)
      rcases hfollows with ⟨row, hrow, hbs⟩ | ⟨hnil, hbs⟩
      · refine hstep ((s.target.aliasName, row) :: c) ?_ fun _ => by simp [hbs]
        rw [← hsame] at hrow
        unfold Tables.joinStep
        split
        · rename_i hnil
          simp [hnil] at hrow
        · exact List.mem_map.2 ⟨row, hrow, rfl⟩
      · refine hstep c ?_ fun _ => hfree.trans hbs.symm
        rw [← hsame] at hnil
        simp [Tables.joinStep, hnil]
    · have hne : tables.joinStep false s c ≠ [] := by
        unfold Tables.joinStep
        split <;> simp_all
      obtain ⟨d, hd⟩ := List.exists_mem_of_ne_nil _ hne
      exact hstep d hd fun h => absurd h hs

/-- What a row binds along all of the steps, another one binds along some of them. -/
lemma Chained.exists_restriction {fewer : List Step} (h : Chained rootAlias steps)
    (hfewer : Chained rootAlias fewer) (hsub : fewer ⊆ steps)
    (hb : b ∈ tables.spread rootAlias steps root) :
    ∃ c ∈ tables.spread rootAlias fewer root, Binding.Agree (boundBy rootAlias fewer) c b := by
  obtain ⟨hroot, -, hfollows⟩ := h.of_mem_spread hb
  let aliases : List String := fewer.map (·.target.aliasName)
  obtain ⟨c, hc, hcb⟩ := hfewer.exists_extension aliases hroot fun s hs _ =>
    ⟨hfollows s (hsub hs), hfewer.source_mem hs⟩
  exact ⟨c, hc, fun a ha => hcb a ha ha⟩

lemma Chained.exists_mem_spread (h : Chained rootAlias steps) (tables : Tables) (root : Row) :
    ∃ b, b ∈ tables.spread rootAlias steps root := by
  have hroot : Binding.row? [(rootAlias, root)] rootAlias = some root := by simp
  have hnone : ∀ s ∈ steps, s.target.aliasName ∈ ([] : List String) →
      tables.Follows s [(rootAlias, root)] ∧ s.source.aliasName ∈ [rootAlias] := by simp
  obtain ⟨b, hb, -⟩ := h.exists_extension [] hroot hnone
  exact ⟨b, hb⟩

end Evaluation

namespace Plan
open Catalog (Step)
open Evaluation

variable {catalog : Catalog} {root : EntityType} {steps path : List Step} {s : Step}

lemma boundBy_subset {rootAlias : String} (h : path ⊆ steps) :
    boundBy rootAlias path ⊆ boundBy rootAlias steps :=
  List.cons_subset_cons _ (List.map_subset _ h)

lemma mem_boundBy_of_path (hc : catalog.WellFormed) {e : EntityType}
    (hp : catalog.path? root e = some path) (h : path ⊆ steps) :
    e.aliasName ∈ boundBy root.aliasName steps := by
  apply boundBy_subset h
  cases path using List.reverseRecOn with
  | nil => simp [boundBy, Catalog.path?_nil hc hp]
  | append_singleton path t =>
    rw [← Catalog.path?_target hc hp]
    exact target_mem_boundBy (by simp)

/-- Steps of paths from a root are chained to it, where aliases tell entity types apart. -/
theorem Rooted.chained (h : Rooted catalog root steps) (hc : catalog.WellFormed)
    (ha : catalog.DistinctAliases) : Chained root.aliasName steps := by
  induction h with
  | nil => exact .nil
  | @snoc steps p s prior path before fresh ih =>
    refine .snoc ih (mem_boundBy_of_path hc (Catalog.path?_split hc path).1 before) fun hmem => ?_
    obtain ⟨hroot, htarget⟩ := Catalog.contains_of_path? path
    rcases List.mem_cons.1 hmem with he | hmem
    · exact Catalog.path?_target_ne hc path (by simp) (ha _ _ htarget hroot he)
    · obtain ⟨t, ht, he⟩ := List.mem_map.1 hmem
      obtain ⟨q, hq, -⟩ := prior.path_of_mem ht
      have hts := ha _ _ (Catalog.contains_of_path? hq).2 htarget he
      exact fresh (Catalog.step_unique hc hq path (by simp) (by simp) hts ▸ ht)

/-- Where the end of a path is bound, the whole path is. -/
theorem isSome_of_path (hc : catalog.WellFormed) {tables : Tables} {b : Binding} {e : EntityType}
    (hp : catalog.path? root e = some path) (hb : ∀ s ∈ path, tables.Follows s b)
    (he : (b.row? e.aliasName).isSome) : ∀ s ∈ path, (b.row? s.target.aliasName).isSome := by
  induction path using List.reverseRecOn generalizing e with
  | nil => simp
  | append_singleton path s ih =>
    obtain rfl := Catalog.path?_target hc hp
    have hs := ih (Catalog.path?_split hc hp).1 (fun t ht => hb t (List.mem_append_left _ ht))
      ((hb s (by simp)).isSome_source he)
    intro t ht
    rcases List.mem_append.1 ht with ht | ht
    · exact hs t ht
    · rwa [List.mem_singleton.1 ht]

end Plan

end Tabulation
