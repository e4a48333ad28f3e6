import Mathlib.Data.List.Induction
import Mathlib.Tactic.Lemma
import Tabulation.Evaluation.Evaluator
import Tabulation.Proofs.Outcome
import Tabulation.Query.Definition

/-! The key indexes find the rows that a search through the whole table finds, and in table order. So
what joins reach is a matter of the tables alone. -/
namespace Tabulation.Evaluation
open Catalog (Step)
open Plan (Join ScopeBranch SemiJoin SubExpression)
open Outcome

/-- The rows of a step's target that belong to a parent row, by a search through its table. -/
def Tables.matching (tables : Tables) (step : Step) (parent : Row) : List Row :=
  match joinKey? parent step.sourceField with
  | some key => (tables.rows step.target).filter fun row => joinKey? row step.targetField = some key
  | none => []

/-- The rows that joins reach from one root row. -/
def Tables.reach (tables : Tables) (rootAlias : String) (joins : List Join) (root : Row) :
    List Binding :=
  expand (fun join => tables.matching join.step) joins [[(rootAlias, root)]]

/-- A step that does not fan out leads to one row at most: no two rows of its target have one key. -/
def Tables.Keyed (tables : Tables) (step : Step) : Prop :=
  step.fansOut = false → ∀ key,
    ((tables.rows step.target).filter fun row => joinKey? row step.targetField = some key).length ≤ 1

instance (tables : Tables) (step : Step) : Decidable (tables.Keyed step) :=
  decidable_of_iff
    (step.fansOut = false → ∀ parent ∈ tables.rows step.target,
      (joinKey? parent step.targetField).isSome →
        ((tables.rows step.target).filter fun row =>
          joinKey? row step.targetField = joinKey? parent step.targetField).length ≤ 1)
    (by
      refine imp_congr_right fun _ => ⟨fun h key => ?_, fun h parent _ hsome => ?_⟩
      · -- a key that no row has is no problem
        cases hrows : (tables.rows step.target).filter fun row => joinKey? row step.targetField = some key with
        | nil => simp
        | cons parent rows =>
          have hmem : parent ∈ (tables.rows step.target).filter fun row =>
            joinKey? row step.targetField = some key := hrows ▸ List.mem_cons_self
          obtain ⟨hparent, hkey⟩ := List.mem_filter.1 hmem
          have hkey := of_decide_eq_true hkey
          rw [← hrows]
          have hle := h parent hparent (by rw [hkey]; rfl)
          rwa [hkey] at hle
      · obtain ⟨key, hkey⟩ := Option.isSome_iff_exists.1 hsome
        rw [hkey]
        exact h key)

lemma matching_length_le {tables : Tables} {step : Step} (h : tables.Keyed step)
    (hs : step.fansOut = false) (parent : Row) : (tables.matching step parent).length ≤ 1 := by
  unfold Tables.matching
  split
  · exact h hs _
  · simp

lemma getD_ofRows (field key : String) (rows : List Row) :
    (KeyIndex.ofRows field rows).getD key [] =
      rows.filter fun row => joinKey? row field = some key := by
  induction rows with
  | nil => simp [KeyIndex.ofRows]
  | cons row rows ih =>
    unfold KeyIndex.ofRows at ih ⊢
    rw [List.foldr_cons]
    cases hk : joinKey? row field with
    | none => simp [hk, ih]
    | some k =>
      simp only [Std.HashMap.getD_alter]
      by_cases hkey : k = key
      · subst hkey
        simp [hk, ← ih, Std.HashMap.getD_eq_getD_getElem?]
      · simp [hk, hkey, ih]

/-- An index under construction: what it holds was built from the tables. -/
def JoinIndex.Reflects (tables : Tables) (index : JoinIndex) : Prop :=
  ∀ (target : EntityType × String) (rows : KeyIndex), index[target]? = some rows →
    rows = .ofRows target.2 (tables.rows target.1)

lemma ofJoins_append_singleton (tables : Tables) (joins : List Join) (join : Join) :
    JoinIndex.ofJoins tables (joins ++ [join]) =
      let index := JoinIndex.ofJoins tables joins
      let target := (join.step.target, join.step.targetField)
      if index.contains target then index
      else index.insert target (.ofRows target.2 (tables.rows target.1)) := by
  simp only [JoinIndex.ofJoins, List.foldl_append, List.foldl_cons, List.foldl_nil]

lemma reflects_ofJoins (tables : Tables) (joins : List Join) :
    (JoinIndex.ofJoins tables joins).Reflects tables ∧
      ∀ join ∈ joins,
        (JoinIndex.ofJoins tables joins).contains (join.step.target, join.step.targetField) := by
  induction joins using List.reverseRecOn with
  | nil => exact ⟨fun target rows h => by simp [JoinIndex.ofJoins] at h, by simp⟩
  | append_singleton joins join ih =>
    obtain ⟨hreflects, hall⟩ := ih
    rw [ofJoins_append_singleton]
    generalize JoinIndex.ofJoins tables joins = index at hreflects hall ⊢
    simp only
    split_ifs with hc
    · refine ⟨hreflects, fun j hj => ?_⟩
      rcases List.mem_append.1 hj with hj | hj
      · exact hall j hj
      · rw [List.mem_singleton.1 hj]
        exact hc
    · refine ⟨fun target rows h => ?_, fun j hj => ?_⟩
      · rw [Std.HashMap.getElem?_insert] at h
        split_ifs at h with ht
        · obtain rfl := eq_of_beq ht
          exact (Option.some.inj h).symm
        · exact hreflects target rows h
      · rw [Std.HashMap.contains_insert, Bool.or_eq_true]
        rcases List.mem_append.1 hj with hj | hj
        · exact .inr (hall j hj)
        · exact .inl (by simp [List.mem_singleton.1 hj])

/-- Looking partners up and searching for them is the same. -/
theorem partners_ofJoins {tables : Tables} {joins : List Join} {join : Join} (h : join ∈ joins)
    (parent : Row) :
    (JoinIndex.ofJoins tables joins).partners join parent = tables.matching join.step parent := by
  obtain ⟨hreflects, hall⟩ := reflects_ofJoins tables joins
  obtain ⟨rows, hrows⟩ := Option.isSome_iff_exists.1
    ((Std.HashMap.isSome_getElem?_eq_contains).trans (hall join h))
  unfold JoinIndex.partners Tables.matching
  rw [hrows, hreflects _ _ hrows]
  cases joinKey? parent join.step.sourceField with
  | none => rfl
  | some key => exact getD_ofRows join.step.targetField key _

section

variable {partners partners' : Join → Row → List Row} {joins : List Join} {seeds : List Binding}

lemma expand_append (partners : Join → Row → List Row) (xs ys : List Join) (seeds : List Binding) :
    expand partners (xs ++ ys) seeds = expand partners ys (expand partners xs seeds) := by
  simp [expand, List.foldl_append]

lemma expand_congr (h : ∀ join ∈ joins, partners join = partners' join) :
    expand partners joins seeds = expand partners' joins seeds := by
  induction joins generalizing seeds with
  | nil => rfl
  | cons join joins ih =>
    have hone : joinOne partners join = joinOne partners' join := by
      funext b
      simp only [joinOne, h join List.mem_cons_self]
    simp only [expand, List.foldl_cons, hone]
    exact ih fun j hj => h j (List.mem_cons_of_mem _ hj)

end

/-- What joins reach through an index of all joins is what the tables say. -/
theorem expand_ofJoins {tables : Tables} {joins all : List Join} (h : joins ⊆ all)
    (rootAlias : String) (root : Row) :
    expand (JoinIndex.ofJoins tables all).partners joins [[(rootAlias, root)]] =
      tables.reach rootAlias joins root := by
  apply expand_congr
  intro join hjoin
  funext parent
  exact partners_ofJoins (h hjoin) parent

lemma joins_subset_allJoins (p : Plan) : p.joins ⊆ allJoins p :=
  fun j hj => by simp [allJoins, hj]

lemma branchJoins_subset_allJoins {p : Plan} {branches : List ScopeBranch}
    (h : p.scope = some branches) {branch : ScopeBranch} (hb : branch ∈ branches) :
    branch.joins ⊆ allJoins p := by
  intro j hj
  simp only [allJoins, h, Option.getD_some, List.mem_append, List.mem_flatMap]
  exact .inl (.inl (.inr ⟨branch, hb, hj⟩))

lemma semiJoins_subset_allJoins {p : Plan} {semi : SemiJoin} (h : semi ∈ p.semiJoins) :
    semi.joins ⊆ allJoins p := by
  intro j hj
  simp only [allJoins, List.mem_append, List.mem_flatMap]
  exact .inl (.inr ⟨semi, h, hj⟩)

lemma subJoins_subset_allJoins {p : Plan} {sub : SubExpression} (h : sub ∈ p.subExpressions) :
    sub.joins ⊆ allJoins p := by
  intro j hj
  simp only [allJoins, List.mem_append, List.mem_flatMap]
  exact .inr ⟨sub, h, hj⟩

/-- The rows of a help desk: two teams, of which one has tickets, one open and one done, with notes. -/
def helpDesk : Tables :=
  let row (fields : List (String × String)) : Row := fields.map fun f => (f.1, .string f.2)
  .ofList [
    ("Team", [row [("id", "r"), ("name", "red")], row [("id", "b"), ("name", "blue")]]),
    ("Ticket", [row [("id", "1"), ("team", "r"), ("state", "open")],
      row [("id", "2"), ("team", "r"), ("state", "done")]]),
    ("Note", [row [("id", "x"), ("ticket", "1"), ("kind", "private")],
      row [("id", "y"), ("ticket", "2"), ("kind", "public")],
      row [("id", "z"), ("ticket", "2"), ("kind", "public")]])]

end Tabulation.Evaluation

namespace Tabulation.Query

/-- Counts by the name of the team, over the rows of an entity type of the help desk. -/
def Model.perTeam (root : EntityType) (counted : List String) (filters : List Filter) : Model where
  root := some root
  involved := [("Ticket", EntityRole.measure), ("Note", .measure), ("Ticket", .filter), ("Note", .filter)].foldl
    (fun involved e => involved.add e.2 e.1) (Involved.add {} .axis "Team")
  projections := [⟨"TEAM_NAME", none⟩]
  aggregations := counted.map fun label => ⟨label, .count⟩
  filters := filters

end Tabulation.Query
