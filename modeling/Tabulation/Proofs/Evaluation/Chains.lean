import Tabulation.Proofs.Evaluation.Expansion

/-! Chains of rows along a path. Inner joins along the path from the root to an entity type reach, one
after the other, the rows of this entity type in which chains from a root row end. -/
namespace Tabulation.Evaluation
open Catalog (Step)
open Plan (addInner addInner_nil joinsOf)

/-- One row for every step of a path, each one joined to the row before it by a key that both have. -/
inductive Tables.Chain (tables : Tables) : List Step → Row → Row → Prop
  | nil (row : Row) : tables.Chain [] row row
  | cons {s : Step} {path : List Step} {row next last : Row} {key : String}
      (mem : next ∈ tables.rows s.target) (source : joinKey? row s.sourceField = some key)
      (target : joinKey? next s.targetField = some key) (rest : tables.Chain path next last) :
      tables.Chain (s :: path) row last

/-- The rows in which the chains along a path end. -/
def Tables.ends (tables : Tables) : List Step → Row → List Row
  | [], row => [row]
  | s :: path, row => (tables.matching s row).flatMap (tables.ends path)

variable {tables : Tables} {path : List Step} {s : Step} {row next last : Row}

lemma mem_matching : next ∈ tables.matching s row ↔ next ∈ tables.rows s.target ∧
    ∃ key, joinKey? row s.sourceField = some key ∧ joinKey? next s.targetField = some key := by
  unfold Tables.matching
  cases joinKey? row s.sourceField with
  | none => simp
  | some key => simp

theorem mem_ends : last ∈ tables.ends path row ↔ tables.Chain path row last := by
  induction path generalizing row with
  | nil =>
    rw [Tables.ends, List.mem_singleton]
    constructor
    · rintro rfl
      exact .nil _
    · rintro ⟨⟩
      rfl
  | cons s path ih =>
    rw [Tables.ends, List.mem_flatMap]
    constructor
    · rintro ⟨next, hnext, hlast⟩
      obtain ⟨hmem, key, hsource, htarget⟩ := mem_matching.1 hnext
      exact .cons hmem hsource htarget (ih.1 hlast)
    · rintro (_ | ⟨hmem, hsource, htarget, hrest⟩)
      exact ⟨_, mem_matching.2 ⟨hmem, _, hsource, htarget⟩, ih.2 hrest⟩

instance (tables : Tables) (path : List Step) (row : Row) (P : Row → Prop) [DecidablePred P] :
    Decidable (∃ last, tables.Chain path row last ∧ P last) :=
  decidable_of_iff (∃ last ∈ tables.ends path row, P last) (by simp only [mem_ends])

lemma ends_append_singleton (path : List Step) (s : Step) (row : Row) :
    tables.ends (path ++ [s]) row = (tables.ends path row).flatMap (tables.matching s) := by
  induction path generalizing row with
  | nil => simp [Tables.ends]
  | cons t path ih => simp only [List.cons_append, Tables.ends, List.flatMap_assoc, funext ih]

variable {catalog : Catalog} {root : EntityType}

/-- Inner joins along a path bind the ends of the chains along it to the entity type at its end. -/
theorem map_row?_reach (hc : catalog.WellFormed) {e : EntityType}
    (hp : catalog.path? root e = some path) (row : Row) :
    (tables.reach root.aliasName (joinsOf (fun _ => true) path) row).map (·.row? e.aliasName) =
      (tables.ends path row).map some := by
  induction path using List.reverseRecOn generalizing e with
  | nil =>
    obtain rfl := Catalog.path?_nil hc hp
    simp [Tables.reach, Tables.ends, joinsOf, expand]
  | append_singleton path s ih =>
    obtain rfl := Catalog.path?_target hc hp
    have hsource := ih (Catalog.path?_split hc hp).1
    -- a joined row goes on to the partners of the row bound to the source of the step
    have hstep : ∀ b, (tables.joinStep true s b).map (·.row? s.target.aliasName) =
        (((b.row? s.source.aliasName).map (tables.matching s)).getD []).map some := by
      intro b
      unfold Tables.joinStep Tables.partnersOf
      split
      · rename_i hnil
        simp [hnil]
      · simp
    rw [reach_append_singleton, ends_append_singleton, List.map_flatMap, List.map_flatMap]
    simp only [hstep]
    calc _ = ((tables.reach root.aliasName (joinsOf (fun _ => true) path) row).map
            (·.row? s.source.aliasName)).flatMap fun found =>
              ((found.map (tables.matching s)).getD []).map some := by
          rw [List.flatMap_map]
      _ = _ := by
          rw [hsource, List.flatMap_map]
          rfl

/-- What is asked of the row at the end of a path is asked of the ends of chains. -/
theorem any_reach_iff (hc : catalog.WellFormed) (ha : catalog.DistinctAliases) {e : EntityType}
    (hp : catalog.path? root e = some path) (row : Row) (asked : Option Row → Bool) :
    (tables.reach root.aliasName (addInner [] path) row).any (fun b => asked (b.row? e.aliasName)) ↔
      ∃ last, tables.Chain path row last ∧ asked (some last) := by
  have hany : (tables.reach root.aliasName (addInner [] path) row).any
        (fun b => asked (b.row? e.aliasName)) = ((tables.ends path row).map some).any asked := by
    rw [(addInner_nil hc ha hp).1, ← map_row?_reach hc hp, List.any_map]
    rfl
  rw [hany, List.any_map, List.any_eq_true]
  simp only [mem_ends, Function.comp_apply]

end Tabulation.Evaluation
