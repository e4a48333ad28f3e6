import Tabulation.Proofs.Plan.Partition

/-! Roots, and where the columns of a query lie from them. -/
namespace Tabulation.Plan
open Catalog (FanOutKey)
open Query (Projection)
open Outcome

variable {catalog : Catalog} {c : Checked} {root : EntityType}

lemma path?_of_place {α : Type} {role : Catalog.ColumnRole}
    {label : α → String} {f : Found α} {p : Placed α} (h : place catalog root role label f = .ok p) :
    p.use = f.use ∧ p.column = f.column ∧ catalog.path? root p.entity = some p.path := by
  unfold place at h
  split at h
  · rename_i path hpath
    cases h
    exact ⟨rfl, rfl, hpath⟩
  · cases h

lemma path?_of_placeProjection {f : Found Projection}
    {p : Placed Projection} (h : placeProjection catalog root f = .ok p) :
    p.use = f.use ∧ p.column = f.column ∧ catalog.path? root p.entity = some p.path ∧
      p.key.isRoot := by
  unfold placeProjection directPath? at h
  split at h
  · rename_i path hpath
    split at hpath
    · rename_i path' hpath'
      split_ifs at hpath with hroot
      cases hpath
      cases h
      exact ⟨rfl, rfl, hpath', hroot⟩
    · cases hpath
  · cases h

lemma fanOutKey?_of_path? {α : Type} {x : Placed α} (h : catalog.path? root x.entity = some x.path) :
    catalog.fanOutKey? root x.entity = some x.key := by
  rw [Catalog.fanOutKey?, h]
  rfl

lemma exists_place_iff {α : Type} {role : Catalog.ColumnRole} {label : α → String} {f : Found α} :
    (∃ x, place catalog root role label f = .ok x) ↔ (catalog.fanOutKey? root f.entity).isSome := by
  unfold place Catalog.fanOutKey?
  cases catalog.path? root f.entity <;> simp

lemma exists_placeProjection_iff {f : Found Projection} :
    (∃ x, placeProjection catalog root f = .ok x) ↔
      catalog.fanOutKey? root f.entity = some ⟨[]⟩ := by
  unfold placeProjection directPath? Catalog.fanOutKey?
  cases catalog.path? root f.entity with
  | none => simp
  | some path =>
    by_cases hroot : (FanOutKey.ofSteps path).isRoot
    · simpa [hroot] using FanOutKey.isRoot_iff.1 hroot
    · simpa [hroot] using fun h => hroot (FanOutKey.isRoot_iff.2 h)

lemma keys_of_place {α : Type} {role : Catalog.ColumnRole} {label : α → String} {fs : List (Found α)}
    {xs : List (Placed α)} (h : fs.mapM (place catalog root role label) = .ok xs) :
    xs.map (fun x => some x.key) = fs.map fun f => catalog.fanOutKey? root f.entity := by
  rw [← List.forall₂_eq_eq_eq, List.forall₂_map_left_iff, List.forall₂_map_right_iff]
  refine (mapM_eq_ok.1 h).flip.imp fun x f hx => ?_
  obtain ⟨-, hcolumn, hpath⟩ := path?_of_place hx
  rw [Found.entity, ← hcolumn]
  exact (fanOutKey?_of_path? hpath).symm

lemma find?_distinct (p : EntityType → Bool) (es : List EntityType) :
    (distinct es).find? p = es.find? p := by
  induction es with
  | nil => rfl
  | cons e es ih =>
    rw [distinct, List.find?_cons, List.find?_cons, List.find?_filter]
    cases hp : p e with
    | true => rfl
    | false =>
      have hother : (fun a => decide (decide (a ≠ e) = true ∧ p a = true)) = p := by
        funext a
        by_cases ha : a = e
        · simp [ha, hp]
        · simp [ha]
      simp only [hother, ih]

/-- A candidate for the root, with the projections placed from it. -/
def placedFrom (catalog : Catalog) (c : Checked) (root : EntityType) :
    Option (EntityType × List (Placed Projection)) :=
  match c.projections.mapM (placeProjection catalog root) with
  | .ok placed => some (root, placed)
  | .error _ => none

lemma placedFrom_eq_some {e : EntityType} {placed : List (Placed Projection)} :
    placedFrom catalog c e = some (root, placed) ↔
      e = root ∧ c.projections.mapM (placeProjection catalog e) = .ok placed := by
  unfold placedFrom
  cases c.projections.mapM (placeProjection catalog e) <;> simp

/-- Of candidates the first one is taken from which all projections can be placed. -/
lemma exists_findSome?_placedFrom {P : EntityType → Bool} {es : List EntityType}
    (h : ∀ e ∈ es, (∃ placed, c.projections.mapM (placeProjection catalog e) = .ok placed) ↔ P e) :
    (∃ placed, es.findSome? (placedFrom catalog c) = some (root, placed)) ↔ es.find? P = some root := by
  induction es with
  | nil => simp
  | cons e es ih =>
    obtain ⟨hplaces, hes⟩ := List.forall_mem_cons.1 h
    rw [List.findSome?_cons, List.find?_cons]
    cases hplaced : c.projections.mapM (placeProjection catalog e) with
    | error r =>
      have hnot : P e = false := by simpa [hplaced] using hplaces
      simp only [placedFrom, hplaced, hnot]
      exact ih hes
    | ok placed =>
      have hplaces : P e := hplaces.1 ⟨placed, hplaced⟩
      simp [placedFrom, hplaced, hplaces]

variable {placed : List (Placed Projection)}

lemma chooseRoot_named {named : EntityType} (h : c.root = some named) :
    chooseRoot catalog c = .ok (root, placed) ↔ named = root ∧ catalog.forest.contains root ∧
      c.projections.mapM (placeProjection catalog root) = .ok placed := by
  unfold chooseRoot
  simp only [h]
  split_ifs with hknown
  · rw [bind_eq_ok]
    constructor
    · rintro ⟨_, hplaced, hr⟩
      cases hr
      exact ⟨rfl, hknown, hplaced⟩
    · rintro ⟨rfl, -, hplaced⟩
      exact ⟨placed, hplaced, rfl⟩
  · refine ⟨fun hr => (by cases hr), ?_⟩
    rintro ⟨rfl, hc, -⟩
    exact absurd hc hknown

lemma chooseRoot_projected (h : c.root = none) (hp : c.projections ≠ []) :
    chooseRoot catalog c = .ok (root, placed) ↔
      (distinct (c.projections.map Found.entity)).findSome? (placedFrom catalog c) =
        some (root, placed) := by
  unfold chooseRoot
  simp only [h]
  split
  · rename_i hnil _
    exact absurd hnil hp
  · rename_i hnil _
    exact absurd hnil hp
  · split
    · rename_i choice h
      have hchoice : (distinct (c.projections.map Found.entity)).findSome? (placedFrom catalog c) =
          some choice := h
      rw [hchoice, Except.ok.injEq, Option.some.injEq]
    · rename_i h
      have hnone : (distinct (c.projections.map Found.entity)).findSome? (placedFrom catalog c) =
          none := h
      simp [hnone]

lemma chooseRoot_aggregated (h : c.root = none) (hp : c.projections = []) :
    chooseRoot catalog c = .ok (root, placed) ↔
      (∃ f fs, c.aggregations = f :: fs ∧ f.entity = root) ∧ placed = [] := by
  unfold chooseRoot
  simp only [h, hp]
  cases c.aggregations with
  | nil => simp
  | cons f fs => simp [eq_comm]

/-- Where a root is chosen, the projections lie around it and do not fan out. -/
lemma path?_of_chooseRoot (h : chooseRoot catalog c = .ok (root, placed)) :
    c.projections.mapM (placeProjection catalog root) = .ok placed := by
  cases hroot : c.root with
  | some named => exact ((chooseRoot_named hroot).1 h).2.2
  | none =>
    by_cases hp : c.projections = []
    · obtain ⟨-, rfl⟩ := (chooseRoot_aggregated hroot hp).1 h
      rw [hp]
      rfl
    · obtain ⟨e, -, he⟩ := List.exists_of_findSome?_eq_some ((chooseRoot_projected hroot hp).1 h)
      obtain ⟨rfl, hplaced⟩ := placedFrom_eq_some.1 he
      exact hplaced

end Tabulation.Plan
