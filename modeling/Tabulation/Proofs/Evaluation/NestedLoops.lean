import Tabulation.Proofs.Evaluation.Partners
import Tabulation.Proofs.Plan.Binding

/-! Joining without any index: for every join and every binding, a loop goes through the whole table that the
join leads to. All join lists of a plan share one set of indexes, which is built before any of them is used;
through these indexes each list gives the bindings of the nested loops, one by one. -/
namespace Tabulation.Evaluation
open Plan (Join)

/-- A join pairs two rows if its field of the parent row has a key, and its field of the other row the same
one. -/
def Pairs (join : Join) (parent row : Row) : Prop :=
  ∃ key, joinKey? parent join.step.sourceField = some key ∧ joinKey? row join.step.targetField = some key

instance (join : Join) (parent row : Row) : Decidable (Pairs join parent row) :=
  decidable_of_iff ((joinKey? parent join.step.sourceField).any fun key =>
      joinKey? row join.step.targetField = some key)
    (by simp [Pairs, Option.any_eq_true])

/-- The innermost loop, over rows: every one that is paired with the parent row gives a binding. -/
def scan (join : Join) (b : Binding) (parent : Row) : List Row → List Binding
  | [] => []
  | row :: rows =>
    if Pairs join parent row then ((join.aliasName, row) :: b) :: scan join b parent rows
    else scan join b parent rows

/-- The loop over bindings. One without a parent row is not paired with any row. A left join keeps bindings
that are not paired, an inner join drops them. -/
def joinAll (tables : Tables) (join : Join) : List Binding → List Binding
  | [] => []
  | b :: bs =>
    let found := match b.row? join.parentAlias with
      | some parent => scan join b parent (tables.rows join.step.target)
      | none => []
    let kept := if found.isEmpty ∧ join.kind = .left then [b] else found
    kept ++ joinAll tables join bs

/-- The outer loop, over joins. -/
def nestedLoops (tables : Tables) : List Join → List Binding → List Binding
  | [], bs => bs
  | join :: joins, bs => nestedLoops tables joins (joinAll tables join bs)

variable {tables : Tables} {join : Join} {joins : List Join} {parent : Row} {b : Binding} {seeds : List Binding}

lemma matching_eq_filter (tables : Tables) (join : Join) (parent : Row) :
    tables.matching join.step parent = (tables.rows join.step.target).filter (Pairs join parent ·) := by
  unfold Tables.matching
  cases hkey : joinKey? parent join.step.sourceField with
  | none => simp [Pairs, hkey]
  | some key => simp [Pairs, hkey]

lemma scan_eq_map_filter (join : Join) (b : Binding) (parent : Row) (rows : List Row) :
    scan join b parent rows = (rows.filter (Pairs join parent ·)).map fun row => (join.aliasName, row) :: b := by
  induction rows with
  | nil => rfl
  | cons row rows ih =>
    rw [scan, List.filter_cons, ih]
    by_cases h : Pairs join parent row <;> simp [h]

lemma joinAll_eq_flatMap (tables : Tables) (join : Join) (bs : List Binding) :
    joinAll tables join bs = bs.flatMap (joinOne (fun join => tables.matching join.step) join) := by
  induction bs with
  | nil => rfl
  | cons b bs ih =>
    rw [joinAll, List.flatMap_cons, ih]
    congr 1
    unfold joinOne
    cases b.row? join.parentAlias with
    | none => simp
    | some parent =>
      simp only [scan_eq_map_filter, ← matching_eq_filter, Option.map_some]
      cases tables.matching join.step parent with
      | nil => simp
      | cons row rows => simp

lemma nestedLoops_eq_expand (tables : Tables) (joins : List Join) (seeds : List Binding) :
    nestedLoops tables joins seeds = expand (fun join => tables.matching join.step) joins seeds := by
  induction joins generalizing seeds with
  | nil => rfl
  | cons join joins ih => rw [nestedLoops, ih, joinAll_eq_flatMap, expand, expand, List.foldl_cons]

lemma subset_allJoins_of_mem_joinLists {p : Plan} {list : List Join × List Plan.ColumnRef}
    (h : list ∈ p.joinLists) : list.1 ⊆ allJoins p := by
  rw [Plan.joinLists, List.mem_cons, List.mem_append, List.mem_append] at h
  rcases h with rfl | (h | h) | h
  · exact joins_subset_allJoins p
  · obtain ⟨s, hs, rfl⟩ := List.mem_map.1 h
    exact subJoins_subset_allJoins hs
  · obtain ⟨s, hs, rfl⟩ := List.mem_map.1 h
    exact semiJoins_subset_allJoins hs
  · obtain ⟨branch, hb, rfl⟩ := List.mem_map.1 h
    cases hscope : p.scope with
    | none => simp [hscope] at hb
    | some branches => exact branchJoins_subset_allJoins hscope (by simpa [hscope] using hb)

/-- Along every join list of a plan, through the indexes of all its joins, the same bindings come out in the
same order as from nested loops, whatever the tables hold and the joins start from. -/
theorem expand_eq_nestedLoops (tables : Tables) (p : Plan) (seeds : List Binding) :
    ∀ list ∈ p.joinLists, expand (JoinIndex.ofJoins tables (allJoins p)).partners list.1 seeds =
      nestedLoops tables list.1 seeds := by
  intro list hlist
  rw [nestedLoops_eq_expand]
  refine expand_congr fun join hjoin => ?_
  funext parent
  exact partners_ofJoins (subset_allJoins_of_mem_joinLists hlist hjoin) parent

/-- From the red team, the blue one and nothing at all, the list for the notes of teams leads to the three notes
of the red one. -/
theorem expand_eq_nestedLoops_helpDesk :
    let m : Query.Model := .perTeam "Team" ["NOTE_ID"] []
    let seeds : List Binding := [("team", [("id", .string "r")])] :: [("team", [("id", .string "b")])] :: [[]]
    ∃ catalog p, Catalog.build Catalog.helpDesk = .ok catalog ∧
      Plan.compile catalog m .unrestricted [] = .ok p ∧
      ∃ list ∈ p.joinLists, list.1.map (·.aliasName) = ["ticket", "note"] ∧
        (expand (JoinIndex.ofJoins helpDesk (allJoins p)).partners list.1 seeds).map
          (fun b => (b.row? "note").bind (·.get? "id")) = ["x", "y", "z"].map fun id => some (.string id) := by
  intro m seeds
  obtain ⟨catalog, hbuild, h⟩ : ∃ catalog, Catalog.build Catalog.helpDesk = .ok catalog ∧
      (Plan.compile catalog m .unrestricted []).toOption.any fun p => p.joinLists.any fun list =>
        list.1.map (·.aliasName) = ["ticket", "note"] ∧ (nestedLoops helpDesk list.1 seeds).map
          (fun b => (b.row? "note").bind (·.get? "id")) = ["x", "y", "z"].map fun id => some (.string id) :=
    Outcome.exists_of_any (by decide +kernel)
  obtain ⟨p, hp, h⟩ := Outcome.exists_of_any h
  obtain ⟨list, hlist, h⟩ := List.any_eq_true.1 h
  obtain ⟨haliases, hnotes⟩ := of_decide_eq_true h
  exact ⟨catalog, p, hbuild, hp, list, hlist, haliases,
    by rw [expand_eq_nestedLoops helpDesk p seeds list hlist, hnotes]⟩

end Tabulation.Evaluation
