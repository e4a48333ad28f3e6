import Tabulation.Proofs.Evaluation.Chains
import Tabulation.Proofs.Evaluation.Success
import Tabulation.Proofs.Plan.Aliases

/-! Which rows columns are read from. Where the aliases of a join list are unambiguous, every column is read
from a row of its own entity type; where they are not, a join may hide the rows of another entity type. -/
namespace Tabulation
open Plan (ColumnRef Join LeadsTo StandsFor Unambiguous compile entitiesTo stepsTo)

namespace Evaluation

variable {catalog : Catalog} {root : EntityType} {joins : List Join} {columns : List ColumnRef}
  {tables : Tables} {rootAlias : String} {row found : Row} {b : Binding}

/-- A row that is bound is the root row, or a row of what a join of the alias leads to. -/
theorem of_row?_of_mem_reach (hb : b ∈ tables.reach rootAlias joins row) {aliasName : String}
    (hfound : b.row? aliasName = some found) : (aliasName = rootAlias ∧ found = row) ∨
      ∃ j ∈ joins, j.aliasName = aliasName ∧ found ∈ tables.rows j.step.target := by
  induction joins using List.reverseRecOn generalizing b with
  | nil =>
    obtain rfl := List.mem_singleton.1 hb
    rw [row?_cons] at hfound
    split_ifs at hfound with halias
    · exact .inl ⟨halias, (Option.some.inj hfound).symm⟩
    · simp [Binding.row?] at hfound
  | append_singleton joins j ih =>
    rw [Tables.reach, expand_append] at hb
    obtain ⟨b', hb', hjoined⟩ := List.mem_flatMap.1 hb
    have hearlier : b'.row? aliasName = some found → (aliasName = rootAlias ∧ found = row) ∨
        ∃ k ∈ joins ++ [j], k.aliasName = aliasName ∧ found ∈ tables.rows k.step.target := by
      intro hfound'
      refine (ih hb' hfound').imp_right ?_
      rintro ⟨k, hk, h⟩
      exact ⟨k, List.mem_append_left _ hk, h⟩
    rcases of_mem_joinOne hjoined with rfl | ⟨parent, next, hnext, rfl⟩
    · exact hearlier hfound
    · rw [row?_cons] at hfound
      split_ifs at hfound with halias
      · cases hfound
        exact .inr ⟨j, by simp, halias.symm, (mem_matching.1 hnext).1⟩
      · exact hearlier hfound

/-- Unambiguous aliases lead to rows of the columns' own entity types, and to the root row for those of the
root. -/
theorem mem_rows_of_unambiguous (h : LeadsTo catalog root joins columns) (hc : catalog.WellFormed)
    (hu : Unambiguous catalog root joins columns) (hrow : row ∈ tables.rows root)
    (hb : b ∈ tables.reach root.aliasName joins row) {c : ColumnRef} (hcolumn : c ∈ columns)
    (hfound : b.row? c.aliasName = some found) :
    found ∈ tables.rows c.entity ∧ (c.entity = root → found = row) := by
  obtain ⟨halias, path, hpath⟩ := h.column c hcolumn
  -- the last step on the way to a column leads to its entity type
  have hentity : c.entity ∈ entitiesTo catalog root columns := by
    rw [Plan.mem_entitiesTo]
    rcases List.eq_nil_or_concat' path with rfl | ⟨before, s, rfl⟩
    · exact .inl (Catalog.path?_nil hc hpath).symm
    · exact .inr ⟨s, Plan.mem_stepsTo.2 ⟨c, hcolumn, _, hpath, by simp⟩, Catalog.path?_target hc hpath⟩
  have hown := hu.standsFor h hentity
  rw [← halias] at hown
  rcases of_row?_of_mem_reach hb hfound with ⟨hroot, rfl⟩ | ⟨j, hj, hjoined, hmem⟩
  · have hsame : c.entity = root := hu.unique _ _ _ hown (.inl ⟨hroot, rfl⟩)
    exact ⟨hsame ▸ hrow, fun _ => rfl⟩
  · have hsame : j.step.target = c.entity := hu.unique _ _ _ (.inr ⟨j, hj, hjoined, rfl⟩) hown
    refine ⟨hsame ▸ hmem, fun hroot => ?_⟩
    rw [hroot] at halias
    exact absurd (hjoined.trans halias) (hu.rootAlias j hj)

/-- In every join list of a compiled plan, the aliases are unambiguous if and only if the entity types on the
ways from the root to the columns of the list have different aliases. Then every column is read from a row of
its own entity type. -/
theorem aliases_unambiguous_iff {declarations : Catalog.Declarations} {m : Query.Model}
    {scope : Scope.Resolved} {sort : Sorting.Criteria} {p : Plan}
    (hbuild : Catalog.build declarations = .ok catalog) (hp : compile catalog m scope sort = .ok p) :
    ∀ list ∈ p.joinLists,
      (Unambiguous catalog p.root list.1 list.2 ↔ ∀ e ∈ entitiesTo catalog p.root list.2,
        ∀ e' ∈ entitiesTo catalog p.root list.2, e.aliasName = e'.aliasName → e = e') ∧
      (Unambiguous catalog p.root list.1 list.2 → ∀ (tables : Tables), ∀ row ∈ tables.rows p.root,
        ∀ b ∈ tables.reach p.rootAlias list.1 row, ∀ c ∈ list.2, ∀ found ∈ b.row? c.aliasName,
          found ∈ tables.rows c.entity ∧ (c.entity = p.root → found = row)) := by
  have hc := Catalog.wellFormed_build hbuild
  obtain ⟨c, l, os, -, -, hs, -, rfl⟩ := Plan.exists_layout hc hp
  intro list hlist
  have hleads := hs.leadsTo_joinLists hc list hlist
  exact ⟨hleads.unambiguous_iff hc, fun hu tables row hrow b hb c hcolumn found hfound =>
    mem_rows_of_unambiguous hleads hc hu hrow hb hcolumn hfound⟩

/-- The aliases of the help desk are different, so a team and its notes are read from rows of their own. -/
theorem aliases_unambiguous_iff_helpDesk :
    let m : Query.Model := .perTeam "Team" ["NOTE_ID"] []
    ∃ catalog p, Catalog.build Catalog.helpDesk = .ok catalog ∧
      compile catalog m .unrestricted [] = .ok p ∧ p.joinLists.map (·.1.map (·.aliasName)) =
        [[], ["ticket", "note"]] ∧
      ∀ list ∈ p.joinLists, Unambiguous catalog p.root list.1 list.2 ∧
        ∀ row ∈ helpDesk.rows p.root, ∀ b ∈ helpDesk.reach p.rootAlias list.1 row, ∀ c ∈ list.2,
          ∀ found ∈ b.row? c.aliasName, found ∈ helpDesk.rows c.entity := by
  intro m
  obtain ⟨catalog, hbuild, h⟩ : ∃ catalog, Catalog.build Catalog.helpDesk = .ok catalog ∧
      (compile catalog m .unrestricted []).toOption.any fun p =>
        p.joinLists.map (·.1.map (·.aliasName)) = [[], ["ticket", "note"]] ∧
          ∀ list ∈ p.joinLists, ∀ e ∈ entitiesTo catalog p.root list.2,
            ∀ e' ∈ entitiesTo catalog p.root list.2, e.aliasName = e'.aliasName → e = e' :=
    Outcome.exists_of_any (by decide +kernel)
  obtain ⟨p, hp, h⟩ := Outcome.exists_of_any h
  obtain ⟨haliases, hdistinct⟩ := of_decide_eq_true h
  refine ⟨catalog, p, hbuild, hp, haliases, fun list hlist => ?_⟩
  obtain ⟨hiff, hown⟩ := aliases_unambiguous_iff hbuild hp list hlist
  have hu := hiff.2 (hdistinct list hlist)
  exact ⟨hu, fun row hrow b hb c hc found hfound => (hown hu helpDesk row hrow b hb c hc found hfound).1⟩

end Evaluation

/-- Teams that belong to what is called a team, too, but for the first letter. -/
def Catalog.lookalikes : Catalog.Declarations where
  entities := [⟨"Team", "id"⟩, ⟨"team", "id"⟩]
  relations := [⟨"Team", "parent", "team", "id", .manyToOne⟩]
  columns := [{ label := "TEAM_NAME", entity := "Team", field := "name", kind := .text },
    { label := "PARENT_NAME", entity := "team", field := "name", kind := .text }]

/-- The name of every team, and that of what it belongs to. -/
def Query.Model.lookalikes : Query.Model where
  root := some "Team"
  involved := (Query.Involved.add {} .axis "Team").add .axis "team"
  projections := [⟨"TEAM_NAME", none⟩, ⟨"PARENT_NAME", none⟩]

namespace Evaluation

/-- The red team, which belongs to a green one. -/
def lookalikes : Tables :=
  .ofList [("Team", [[("id", .string "r"), ("name", .string "red"), ("parent", .string "g")]]),
    ("team", [[("id", .string "g"), ("name", .string "green")]])]

/-- The join of the other team takes the alias of the root, and the name of the red team is read from it. -/
theorem aliases_ambiguous_lookalikes :
    ∃ catalog p, Catalog.build Catalog.lookalikes = .ok catalog ∧
      compile catalog .lookalikes .unrestricted [] = .ok p ∧
      (∃ list ∈ p.joinLists, ¬ Unambiguous catalog p.root list.1 list.2 ∧
        (∃ j ∈ list.1, j.aliasName = p.root.aliasName ∧ j.step.target ≠ p.root) ∧
        ∃ row ∈ lookalikes.rows p.root, ∃ b ∈ lookalikes.reach p.rootAlias list.1 row, ∃ c ∈ list.2,
          ∃ found ∈ b.row? c.aliasName, found ∉ lookalikes.rows c.entity) ∧
      evaluate lookalikes .builtin p = .ok [[.string "green", .string "green"]] := by
  obtain ⟨catalog, hbuild, h⟩ : ∃ catalog, Catalog.build Catalog.lookalikes = .ok catalog ∧
      (compile catalog .lookalikes .unrestricted []).toOption.any fun p =>
        Run.gives ⟨lookalikes, .builtin, p⟩ [[.string "green", .string "green"]] &&
          p.joinLists.any fun list =>
            decide (∃ j ∈ list.1, j.aliasName = p.root.aliasName ∧ j.step.target ≠ p.root) &&
              decide (∃ row ∈ lookalikes.rows p.root, ∃ b ∈ lookalikes.reach p.rootAlias list.1 row,
                ∃ c ∈ list.2, ∃ found ∈ b.row? c.aliasName, found ∉ lookalikes.rows c.entity) :=
    Outcome.exists_of_any (by decide +kernel)
  obtain ⟨p, hp, h⟩ := Outcome.exists_of_any h
  obtain ⟨hgives, h⟩ := Bool.and_eq_true_iff.1 h
  obtain ⟨list, hlist, h⟩ := List.any_eq_true.1 h
  obtain ⟨hroot, hread⟩ := Bool.and_eq_true_iff.1 h
  have hroot := of_decide_eq_true hroot
  have hread := of_decide_eq_true hread
  refine ⟨catalog, p, hbuild, hp, ⟨list, hlist, fun hu => ?_, hroot, hread⟩, evaluate_of_gives hgives⟩
  obtain ⟨j, hj, halias, -⟩ := hroot
  exact hu.rootAlias j hj halias

end Evaluation

end Tabulation
