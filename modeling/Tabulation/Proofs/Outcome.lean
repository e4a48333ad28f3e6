import Mathlib.Data.List.Forall2
import Mathlib.Data.List.Induction

/-! Computations that may fail: when a sequence, a map or a fold succeeds, and with what. -/
namespace Tabulation.Outcome

variable {ε α β : Type}

theorem bind_eq_ok {x : Except ε α} {f : α → Except ε β} {b : β} :
    x >>= f = .ok b ↔ ∃ a, x = .ok a ∧ f a = .ok b := by
  cases x <;> simp [bind, Except.bind]

theorem exists_bind_eq_ok {x : Except ε α} {f : α → Except ε β} :
    (∃ b, x >>= f = .ok b) ↔ ∃ a, x = .ok a ∧ ∃ b, f a = .ok b := by
  simp only [bind_eq_ok]
  exact exists_comm.trans (exists_congr fun a => exists_and_left)

theorem exists_unless_eq_ok {p : Prop} [Decidable p] {e : ε} {a : α} :
    (∃ b, (if p then .error e else .ok a : Except ε α) = .ok b) ↔ ¬ p := by
  by_cases h : p <;> simp [h]

theorem map_eq_ok {x : Except ε α} {f : α → β} {b : β} :
    x.map f = .ok b ↔ ∃ a, x = .ok a ∧ f a = b := by
  cases x <;> simp [Except.map]

instance decidableExistsOk : (x : Except ε α) → Decidable (∃ a, x = .ok a)
  | .ok a => .isTrue ⟨a, rfl⟩
  | .error _ => .isFalse (by simp)

/-- What a computation gives, or something else if it fails. -/
def getD (x : Except ε α) (otherwise : α) : α :=
  match x with
  | .ok a => a
  | .error _ => otherwise

theorem eq_ok_iff {x : Except ε α} {a : α} (otherwise : α) :
    x = .ok a ↔ (∃ b, x = .ok b) ∧ a = getD x otherwise := by
  cases x <;> simp [getD, eq_comm]

/-- A map over a list succeeds if it does on every element, and with these results. -/
theorem mapM_eq_ok {f : α → Except ε β} {xs : List α} {ys : List β} :
    xs.mapM f = .ok ys ↔ List.Forall₂ (fun x y => f x = .ok y) xs ys := by
  induction xs generalizing ys with
  | nil => simp [pure, Except.pure, eq_comm]
  | cons x xs ih =>
    simp only [List.mapM_cons, bind_eq_ok, List.forall₂_cons_left_iff, ih]
    constructor
    · rintro ⟨y, hy, zs, hzs, h⟩
      cases h
      exact ⟨y, zs, hy, hzs, rfl⟩
    · rintro ⟨y, zs, hy, hzs, rfl⟩
      exact ⟨y, hy, zs, hzs, rfl⟩

theorem mapM_append_singleton_eq_ok {f : α → Except ε β} {xs : List α} {x : α} {zs : List β} :
    (xs ++ [x]).mapM f = .ok zs ↔ ∃ ys y, xs.mapM f = .ok ys ∧ f x = .ok y ∧ zs = ys ++ [y] := by
  rw [List.mapM_append, bind_eq_ok]
  simp only [List.mapM_cons, List.mapM_nil, bind_eq_ok, exists_and_left]
  constructor
  · rintro ⟨ys, hys, _, ⟨y, hy, _, h, hr⟩, hz⟩
    cases h
    cases hr
    cases hz
    exact ⟨ys, hys, y, hy, rfl⟩
  · rintro ⟨ys, hys, y, hy, rfl⟩
    exact ⟨ys, hys, [y], ⟨y, hy, [], rfl, rfl⟩, rfl⟩

theorem exists_mapM_eq_ok {f : α → Except ε β} {xs : List α} :
    (∃ ys, xs.mapM f = .ok ys) ↔ ∀ x ∈ xs, ∃ y, f x = .ok y := by
  induction xs with
  | nil => simp [pure, Except.pure]
  | cons x xs ih =>
    rw [List.forall_mem_cons, ← ih]
    simp only [mapM_eq_ok, List.forall₂_cons_left_iff]
    constructor
    · rintro ⟨_, y, ys, hy, hys, -⟩
      exact ⟨⟨y, hy⟩, ys, hys⟩
    · rintro ⟨⟨y, hy⟩, ys, hys⟩
      exact ⟨_, y, ys, hy, hys, rfl⟩

theorem exists_of_mem_forall₂ {R : α → β → Prop} {xs : List α} {ys : List β} (h : List.Forall₂ R xs ys)
    {y : β} (hy : y ∈ ys) : ∃ x ∈ xs, R x y := by
  obtain ⟨i, hi, rfl⟩ := List.mem_iff_getElem.1 hy
  have hlength := h.length_eq
  exact ⟨xs[i], List.getElem_mem _, h.get (by omega) hi⟩

theorem eq_singleton_of_forall₂ {R : α → β → Prop} {x : α} {ys : List β} (h : List.Forall₂ R [x] ys) :
    ∃ y, ys = [y] ∧ R x y := by
  cases h with
  | cons hy hrest =>
    cases hrest
    exact ⟨_, rfl, hy⟩

theorem exists_of_mem_mapM {f : α → Except ε β} {xs : List α} {ys : List β} (h : xs.mapM f = .ok ys)
    {y : β} (hy : y ∈ ys) : ∃ x ∈ xs, f x = .ok y :=
  exists_of_mem_forall₂ (mapM_eq_ok.1 h) hy

theorem exists_mem_of_mapM {f : α → Except ε β} {xs : List α} {ys : List β} (h : xs.mapM f = .ok ys)
    {x : α} (hx : x ∈ xs) : ∃ y ∈ ys, f x = .ok y := by
  rw [mapM_eq_ok] at h
  obtain ⟨i, hi, rfl⟩ := List.mem_iff_getElem.1 hx
  have hlength := h.length_eq
  exact ⟨ys[i], List.getElem_mem _, h.get hi (by omega)⟩

theorem mem_iff_of_mapM {f : α → Except ε β} {xs : List α} {ys : List β} (h : xs.mapM f = .ok ys) {y : β} :
    y ∈ ys ↔ ∃ x ∈ xs, f x = .ok y := by
  refine ⟨exists_of_mem_mapM h, ?_⟩
  rintro ⟨x, hx, hy⟩
  obtain ⟨z, hz, hxz⟩ := exists_mem_of_mapM h hx
  rwa [Except.ok.inj (hy.symm.trans hxz)]

/-- Where a map succeeds on the elements with some property, it does on lists of them. -/
theorem mapM_eq_ok_iff_map {f : α → Except ε β} {P : α → Prop} {g : α → β}
    (h : ∀ x y, f x = .ok y ↔ P x ∧ y = g x) (xs : List α) (ys : List β) :
    xs.mapM f = .ok ys ↔ (∀ x ∈ xs, P x) ∧ ys = xs.map g := by
  rw [mapM_eq_ok]
  simp only [h]
  induction xs generalizing ys with
  | nil => simp
  | cons x xs ih =>
    simp only [List.forall₂_cons_left_iff, ih, List.mem_cons, forall_eq_or_imp, List.map_cons]
    constructor
    · rintro ⟨_, _, ⟨hx, rfl⟩, ⟨hxs, rfl⟩, rfl⟩
      exact ⟨⟨hx, hxs⟩, rfl⟩
    · rintro ⟨⟨hx, hxs⟩, rfl⟩
      exact ⟨_, _, ⟨hx, rfl⟩, ⟨hxs, rfl⟩, rfl⟩

theorem foldlM_append_singleton_eq_ok {f : β → α → Except ε β} {xs : List α} {x : α} {b b' : β} :
    (xs ++ [x]).foldlM f b = .ok b' ↔ ∃ c, xs.foldlM f b = .ok c ∧ f c x = .ok b' := by
  rw [List.foldlM_append, bind_eq_ok]
  simp [List.foldlM_cons]

/-- A computation that succeeds with a result of some kind, found by running it. -/
theorem exists_of_any {x : Except ε α} {p : α → Bool} (h : x.toOption.any p) :
    ∃ a, x = .ok a ∧ p a := by
  cases x with
  | error e => simp [Except.toOption] at h
  | ok a => exact ⟨a, rfl, h⟩

/-- What one step keeps, a whole fold keeps. -/
theorem foldlM_keeps {f : β → α → Except ε β} {xs : List α} {b b' : β} (P : β → Prop)
    (step : ∀ b x b', f b x = .ok b' → P b → P b') (h : xs.foldlM f b = .ok b') (hb : P b) :
    P b' := by
  induction xs generalizing b with
  | nil =>
    cases h
    exact hb
  | cons x xs ih =>
    simp only [List.foldlM_cons, bind_eq_ok] at h
    obtain ⟨c, hc, hr⟩ := h
    exact ih hr (step b x c hc hb)

/-- A fold succeeds on the lists that are accepted, and what it gives is known from the list. -/
theorem foldlM_accepts {f : β → α → Except ε β} {b : β} (Accepts : List α → Prop)
    (Holds : List α → β → Prop) (start : Accepts [] ∧ Holds [] b)
    (earlier : ∀ xs x, Accepts (xs ++ [x]) → Accepts xs)
    (step : ∀ xs x c, Accepts xs → Holds xs c → ((∃ c', f c x = .ok c') ↔ Accepts (xs ++ [x])))
    (keeps : ∀ xs x c c', Holds xs c → f c x = .ok c' → Holds (xs ++ [x]) c') (xs : List α) :
    ((∃ c, xs.foldlM f b = .ok c) ↔ Accepts xs) ∧ ∀ c, xs.foldlM f b = .ok c → Holds xs c := by
  induction xs using List.reverseRecOn with
  | nil => exact ⟨⟨fun _ => start.1, fun _ => ⟨b, rfl⟩⟩, fun c hc => Except.ok.inj hc ▸ start.2⟩
  | append_singleton xs x ih =>
    obtain ⟨haccepts, hholds⟩ := ih
    simp only [foldlM_append_singleton_eq_ok]
    refine ⟨⟨?_, fun h => ?_⟩, ?_⟩
    · rintro ⟨c', c, hc, hc'⟩
      exact (step xs x c (haccepts.1 ⟨c, hc⟩) (hholds c hc)).1 ⟨c', hc'⟩
    · obtain ⟨c, hc⟩ := haccepts.2 (earlier xs x h)
      obtain ⟨c', hc'⟩ := (step xs x c (earlier xs x h) (hholds c hc)).2 h
      exact ⟨c', c, hc, hc'⟩
    · rintro c' ⟨c, hc, hc'⟩
      exact keeps xs x c c' (hholds c hc) hc'

/-- A loop of which every round reads something first, and can fail only then. -/
theorem foldlM_eq_mapM {σ : Type} {f : σ → α → Except ε σ} (read : α → Except ε β) (step : σ → β → σ)
    (P : σ → Prop) (hf : ∀ s x, P s → f s x = (read x).map (step s))
    (hstep : ∀ s x y, P s → read x = .ok y → P (step s y)) {s : σ} (hs : P s) (xs : List α) :
    xs.foldlM f s = (xs.mapM read).map fun ys => ys.foldl step s := by
  induction xs generalizing s with
  | nil => rfl
  | cons x xs ih =>
    rw [List.foldlM_cons, List.mapM_cons, hf s x hs]
    cases hx : read x with
    | error e => rfl
    | ok y =>
      refine (ih (hstep s x y hs hx)).trans ?_
      cases xs.mapM read <;> rfl

theorem mapM_map {γ : Type} (f : α → Except ε β) (g : β → γ) (xs : List α) :
    xs.mapM (fun x => (f x).map g) = (xs.mapM f).map (·.map g) := by
  induction xs with
  | nil => rfl
  | cons x xs ih =>
    rw [List.mapM_cons, List.mapM_cons, ih]
    cases f x with
    | error e => rfl
    | ok y => cases xs.mapM f <;> rfl

theorem mapM_zipIdx (f : α → Except ε β) (xs : List α) (k : Nat) :
    (xs.zipIdx k).mapM (fun x => (f x.1).map (·, x.2)) = (xs.mapM f).map (·.zipIdx k) := by
  induction xs generalizing k with
  | nil => rfl
  | cons x xs ih =>
    rw [List.zipIdx_cons, List.mapM_cons, List.mapM_cons, ih]
    cases f x with
    | error e => rfl
    | ok y => cases xs.mapM f <;> rfl

end Tabulation.Outcome
