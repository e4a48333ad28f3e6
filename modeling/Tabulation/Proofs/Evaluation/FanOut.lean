import Tabulation.Proofs.Evaluation.Cells
import Tabulation.Proofs.Evaluation.Merging
import Tabulation.Proofs.Evaluation.Success

/-! Counting without fan-out. However many joined rows a root row has in a group, and whatever the other
sub-expressions are, the aggregates of a sub-expression see the rows of that root row once. -/
namespace Tabulation.Evaluation
open Plan (Aggregate SubExpression)
open Query (Model)
open Storage (Fault)
open Outcome

/-- The groups of a result, before they are made tuples. -/
def resultGroups (tables : Tables) (specials : Specials) (p : Plan) :
    Except Fault (List (Group Share)) := do
  let ready ← Ready.ofPlan tables specials p
  let shares ← (tables.rows p.root).mapM ready.shares
  return groupBy Share.keyText shares.flatten

/-- The accumulators of a group. -/
def groupTotals (p : Plan) (g : Group Share) : Totals := g.toList.foldl Totals.add (.zero p)

def groupTuple (p : Plan) (g : Group Share) : Tuple := tuple p g.first.key (groupTotals p g)

def groupTuples (p : Plan) : List (Group Share) → List Tuple
  | [] => if p.isGlobal then [tuple p [] (.zero p)] else []
  | groups => groups.map (groupTuple p)

/-- Evaluating is finding the groups, and sorting their tuples. -/
theorem evaluate_eq_map (tables : Tables) (specials : Specials) (p : Plan) :
    evaluate tables specials p =
      (resultGroups tables specials p).map fun groups =>
        SortKey.sort p.sortKeys (groupTuples p groups) := by
  have htuples : ∀ shares, tuples p shares = groupTuples p (groupBy Share.keyText shares) := by
    intro shares
    unfold tuples groupTuples
    cases groupBy Share.keyText shares <;> rfl
  unfold evaluate resultGroups
  cases hr : Ready.ofPlan tables specials p with
  | error e => rfl
  | ok r =>
    cases hs : (tables.rows p.root).mapM r.shares with
    | error e => simp only [hs, bind, Except.bind]; rfl
    | ok shares => simp only [hs, bind, Except.bind, htuples]; rfl

variable {x : Run} {groups : List (Group Share)} {g : Group Share}

lemma resultGroups_eq_ok (h : resultGroups x.tables x.specials x.plan = .ok groups) :
    groups = groupBy Share.keyText (x.roots.flatMap x.rootShares) ∧
      ∀ root ∈ x.roots, x.Reads root := by
  obtain ⟨r, hr, h⟩ := bind_eq_ok.1 h
  obtain ⟨shares, hshares, h⟩ := bind_eq_ok.1 h
  cases h
  obtain ⟨hflat, hreads⟩ := mapM_shares_eq_ok (ofPlan_eq_ok.1 hr) hshares
  exact ⟨by rw [hflat]; rfl, hreads⟩

lemma resultGroups_of_reads {r : Ready} (h : r.Of x)
    (hsubs : ∀ root ∈ x.roots, ∀ s ∈ x.plan.subExpressions, x.ReadsSub root s)
    (hreads : ∀ root ∈ x.roots, x.Reads root) :
    resultGroups x.tables x.specials x.plan =
      .ok (groupBy Share.keyText (x.roots.flatMap x.rootShares)) := by
  have hshares := h.mapM_shares_of_reads hsubs hreads
  refine bind_eq_ok.2 ⟨r, ofPlan_eq_ok.2 h, bind_eq_ok.2 ⟨_, hshares, ?_⟩⟩
  rw [List.flatMap_def]
  rfl

lemma groupTotals_eq (hg : g ∈ groupBy Share.keyText (x.roots.flatMap x.rootShares)) :
    groupTotals x.plan g = x.totals x.roots g.first.keyText := by
  rw [groupBy_eq] at hg
  obtain ⟨s, hs, rfl⟩ := List.mem_map.1 hg
  rw [groupTotals, toList_groupOf hs, Run.foldl_add_shares]
  rfl

lemma map_key_groups (x : Run) :
    (groupBy Share.keyText (x.roots.flatMap x.rootShares)).map (·.first.key) =
      (firsts (groupText x.plan) (x.bindings x.roots)).map (groupValues x.plan) := by
  have h := congrArg (List.map Contribution.key) (x.firsts_shares x.roots)
  rw [List.map_map, List.map_map] at h
  rw [groupBy_eq, List.map_map]
  exact h

/-- The accumulator of an aggregate in a group is that of one accumulator which is fed, in table order,
with the rows that the sub-expression has for the members of the group, each of them taken once. -/
lemma groupTotals_subs (hg : g ∈ groupBy Share.keyText (x.roots.flatMap x.rootShares)) {i j : Nat}
    {s : SubExpression} {a : Aggregate} (hs : x.plan.subExpressions[i]? = some s)
    (ha : s.aggregates[j]? = some a)
    (hm : Mergeable a.function
      ((x.members x.roots g.first.keyText).map fun root => valuesOf a (x.subRows s root))) :
    ((groupTotals x.plan g).subs[i]?.bind fun accs : List Accumulator => accs[j]?) = some (tally a.function
      ((x.members x.roots g.first.keyText).flatMap fun root => valuesOf a (x.subRows s root))) := by
  have hmerge := foldl_merge_tally hm
  rw [List.map_map] at hmerge
  rw [groupTotals_eq hg, Run.totals, List.getElem?_map, hs, Option.map_some, Option.bind_some,
    mergedTallies, List.getElem?_map, ha, Option.map_some, List.map_map, List.flatMap_def, ← hmerge]
  rfl

lemma readable_of_member (hreads : ∀ root ∈ x.roots, x.Reads root) (text : String)
    {s : SubExpression} (hs : s ∈ x.plan.subExpressions) {a : Aggregate} (ha : a ∈ s.aggregates) :
    ∀ v ∈ (x.members x.roots text).flatMap fun root => valuesOf a (x.subRows s root),
      Readable a.function v := by
  intro v hv
  obtain ⟨root, hroot, hv⟩ := List.mem_flatMap.1 hv
  obtain ⟨hroot, hcounts⟩ := List.mem_filter.1 (List.mem_filter.1 hroot).1
  exact (hreads root hroot hcounts).1 s hs a ha v hv

lemma map_key_eq_of_left {tables : Tables} {specials : Specials} {p : Plan}
    {subs : List SubExpression} (hp : ∀ s ∈ p.subExpressions, s.joinKind = .left)
    (hsubs : ∀ s ∈ subs, s.joinKind = .left) :
    let x : Run := ⟨tables, specials, p⟩
    let y : Run := ⟨tables, specials, { p with subExpressions := subs }⟩
    (groupBy Share.keyText (y.roots.flatMap y.rootShares)).map (·.first.key) =
      (groupBy Share.keyText (x.roots.flatMap x.rootShares)).map (·.first.key) := by
  intro x y
  have hcounts : y.counts = x.counts := by
    funext root
    rw [Run.counts_eq_admits hsubs, Run.counts_eq_admits hp]
    rfl
  have hbindings : y.bindings y.roots = x.bindings x.roots := by
    unfold Run.bindings
    rw [hcounts]
    rfl
  rw [map_key_groups, map_key_groups, hbindings]
  rfl

lemma groupTuple_sub (hfilled : x.plan.filled.Perm (List.range x.plan.outputs.length))
    (hg : g ∈ groupBy Share.keyText (x.roots.flatMap x.rootShares)) {s : SubExpression}
    {a : Aggregate} (hs : s ∈ x.plan.subExpressions) (ha : a ∈ s.aggregates)
    (hm : Mergeable a.function
      ((x.members x.roots g.first.keyText).map fun root => valuesOf a (x.subRows s root))) :
    (groupTuple x.plan g)[a.outputIndex]? = some (tally a.function
      ((x.members x.roots g.first.keyText).flatMap fun root =>
        valuesOf a (x.subRows s root))).finish := by
  have hkey : g.first.key ∈ (firsts (groupText x.plan) (x.bindings x.roots)).map
      (groupValues x.plan) := map_key_groups x ▸ List.mem_map.2 ⟨g, hg, rfl⟩
  obtain ⟨b, -, hb⟩ := List.mem_map.1 hkey
  have hmerge := foldl_merge_tally hm
  rw [List.map_map] at hmerge
  rw [groupTuple, groupTotals_eq hg, ← hb]
  apply x.getElem?_tuple_totals _ _ hfilled
  rw [filling, x.cells_totals]
  refine List.mem_append_right _ (List.mem_append_right _ (List.mem_flatMap.2 ⟨s, hs, ?_⟩))
  refine List.mem_map.2 ⟨a, ha, ?_⟩
  rw [List.flatMap_def, ← hmerge]
  rfl

/-- Without its sub-expressions, a plan that drops no root rows is evaluated, too. -/
lemma exists_groups_of_left {tables : Tables} {specials : Specials} {p : Plan}
    (hp : ∀ s ∈ p.subExpressions, s.joinKind = .left)
    (h : resultGroups tables specials p = .ok groups) :
    ∃ others, resultGroups tables specials { p with subExpressions := [] } = .ok others := by
  have h' : resultGroups (Run.tables ⟨tables, specials, p⟩) (Run.specials ⟨tables, specials, p⟩)
    (Run.plan ⟨tables, specials, p⟩) = .ok groups := h
  obtain ⟨-, hreads⟩ := resultGroups_eq_ok h'
  obtain ⟨r, hr, -⟩ := bind_eq_ok.1 h'
  have hof := ofPlan_eq_ok.1 hr
  let y : Run := ⟨tables, specials, { p with subExpressions := [] }⟩
  let r' : Ready := { r with
    plan := y.plan
    partners := (JoinIndex.ofJoins tables (allJoins y.plan)).partners
    subExpressions := [] }
  have hof' : r'.Of y := ⟨rfl, rfl, hof.conditions, hof.semiJoins, rfl⟩
  refine ⟨_, resultGroups_of_reads hof' (fun root _ s hs => by simp [y] at hs) fun root hroot hcounts => ?_⟩
  rw [Run.counts_eq_admits (by simp [y])] at hcounts
  have hcounts' : Run.counts ⟨tables, specials, p⟩ root := by
    rw [Run.counts_eq_admits hp]
    exact hcounts
  exact ⟨by simp [y], (hreads root hroot hcounts').2⟩

/-- The aggregates of a sub-expression in a group are those of one accumulator, which is fed with the
rows that the sub-expression has for every root row with joined rows in the group, once for each such
row. In an outer plan the groups are the same for any sub-expressions. -/
theorem aggregated_once {catalog : Catalog} {m : Model} {scope : Scope.Resolved}
    {sort : Sorting.Criteria} {p : Plan} {tables : Tables} {specials : Specials} {ts : List Tuple}
    (hp : Plan.compile catalog m scope sort = .ok p) (he : evaluate tables specials p = .ok ts) :
    ∃ groups, resultGroups tables specials p = .ok groups ∧
      ts = SortKey.sort p.sortKeys (groupTuples p groups) ∧
      (∀ g ∈ groups, ∀ (i : Nat) s, p.subExpressions[i]? = some s →
        ∀ (j : Nat) a, s.aggregates[j]? = some a →
        let x : Run := ⟨tables, specials, p⟩
        let members := x.members x.roots g.first.keyText
        Mergeable a.function (members.map fun root => valuesOf a (x.subRows s root)) →
        ∃ acc, (members.flatMap (x.subRows s)).foldlM
              (fun acc b => Accumulator.push acc (b.value? a.column)) (.new a.function) = .ok acc ∧
          ((groupTotals p g).subs[i]?.bind fun accs : List Accumulator => accs[j]?) = some acc ∧
          (groupTuple p g)[a.outputIndex]? = some acc.finish) ∧
      (m.joinStyle = .outer →
        (∀ root, Run.counts ⟨tables, specials, p⟩ root = Run.admits ⟨tables, specials, p⟩ root) ∧
        (∃ groups', resultGroups tables specials { p with subExpressions := [] } = .ok groups') ∧
        ∀ subs groups', (∀ s ∈ subs, s.joinKind = .left) →
          resultGroups tables specials { p with subExpressions := subs } = .ok groups' →
            groups'.map (·.first.key) = groups.map (·.first.key)) := by
  rw [evaluate_eq_map, map_eq_ok] at he
  obtain ⟨groups, hgroups, rfl⟩ := he
  have hgroups' : resultGroups (Run.tables ⟨tables, specials, p⟩) (Run.specials ⟨tables, specials, p⟩)
    (Run.plan ⟨tables, specials, p⟩) = .ok groups := hgroups
  obtain ⟨heq, hreads⟩ := resultGroups_eq_ok hgroups'
  refine ⟨groups, hgroups, rfl, ?_, fun ho => ⟨?_, ?_, ?_⟩⟩
  · intro g hg i s hs j a ha x members hm
    rw [heq] at hg
    have hsub := List.mem_of_getElem? hs
    have haggregate := List.mem_of_getElem? ha
    have hvalues : (members.flatMap fun root => valuesOf a (x.subRows s root)) =
        (members.flatMap (x.subRows s)).map (·.value? a.column) := by
      rw [List.map_flatMap]
      rfl
    have htotals := groupTotals_subs hg hs ha hm
    have hread := readable_of_member hreads g.first.keyText hsub haggregate
    refine ⟨_, ?_, htotals, ?_⟩
    · have hpush := foldlM_push_eq_ok.2 ⟨hread, rfl⟩
      rw [hvalues, List.foldlM_map] at hpush
      rw [hpush, ← hvalues]
    · exact groupTuple_sub (Plan.filled_perm hp) hg hsub haggregate hm
  · exact fun root => Run.counts_eq_admits (Plan.joinKind_of_outer hp ho) root
  · exact exists_groups_of_left (Plan.joinKind_of_outer hp ho) hgroups
  · intro subs others hsubs hothers
    have hothers' : resultGroups (Run.tables ⟨tables, specials, { p with subExpressions := subs }⟩)
      (Run.specials ⟨tables, specials, { p with subExpressions := subs }⟩)
      (Run.plan ⟨tables, specials, { p with subExpressions := subs }⟩) = .ok others := hothers
    rw [(resultGroups_eq_ok hothers').1, heq]
    exact map_key_eq_of_left (Plan.joinKind_of_outer hp ho) hsubs

/-- Over tickets with one note and with two, the team of both tickets has three notes. -/
theorem aggregated_once_helpDesk :
    ∃ catalog p groups, Catalog.build Catalog.helpDesk = .ok catalog ∧
      Plan.compile catalog (.perTeam "Ticket" ["TICKET_ID", "NOTE_ID"] []) .unrestricted [] = .ok p ∧
      evaluate helpDesk .builtin p = .ok [[.string "red", .ofNat 2, .ofNat 3]] ∧
      resultGroups helpDesk .builtin p = .ok groups ∧
      (∀ g ∈ groups, ∀ (i : Nat) s, p.subExpressions[i]? = some s →
        ∀ (j : Nat) a, s.aggregates[j]? = some a →
        let x : Run := ⟨helpDesk, .builtin, p⟩
        ∃ acc, ((x.members x.roots g.first.keyText).flatMap (x.subRows s)).foldlM
              (fun acc b => Accumulator.push acc (b.value? a.column)) (.new a.function) = .ok acc ∧
          (groupTuple p g)[a.outputIndex]? = some acc.finish) ∧
      ∀ root, Run.counts ⟨helpDesk, .builtin, p⟩ root = Run.admits ⟨helpDesk, .builtin, p⟩ root := by
  obtain ⟨catalog, hbuild, h⟩ : ∃ catalog, Catalog.build Catalog.helpDesk = .ok catalog ∧
      (Plan.compile catalog (.perTeam "Ticket" ["TICKET_ID", "NOTE_ID"] []) .unrestricted []).toOption.any
        fun p => Run.gives ⟨helpDesk, .builtin, p⟩ [[.string "red", .ofNat 2, .ofNat 3]] &&
          decide (∀ s ∈ p.subExpressions, ∀ a ∈ s.aggregates, a.function = .count) :=
    exists_of_any (by decide +kernel)
  obtain ⟨p, hp, h⟩ := exists_of_any h
  obtain ⟨hgives, hcount⟩ := Bool.and_eq_true_iff.1 h
  have hcount := of_decide_eq_true hcount
  have he := evaluate_of_gives hgives
  obtain ⟨groups, hgroups, -, hsubs, houter⟩ := aggregated_once hp he
  refine ⟨catalog, p, groups, hbuild, hp, he, hgroups, fun g hg i s hs j a ha => ?_, (houter rfl).1⟩
  have hfunction := hcount s (List.mem_of_getElem? hs) a (List.mem_of_getElem? ha)
  obtain ⟨acc, hacc, -, hcell⟩ := hsubs g hg i s hs j a ha (by rw [hfunction]; trivial)
  exact ⟨acc, hacc, hcell⟩

end Tabulation.Evaluation
