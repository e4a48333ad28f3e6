import Mathlib.Data.List.Nodup
import Tabulation.Plan.Compiler
import Tabulation.Proofs.Catalog.Path
import Tabulation.Proofs.Comparison.GroupKeys
import Tabulation.Proofs.Evaluation.Success

/-! The groups of a run. Every joined row has its place in one of them, and two rows have the same place exactly
where grouping does not tell the values apart that they are grouped by. -/
namespace Tabulation.Evaluation
open Json (Value)
open Comparison (groupKey)
open Outcome

/-- The joined rows of a group, as they were read. -/
def joinedRows (g : Group Share) : List Contribution := g.toList.flatMap (·.rows.toList)

/-- The values by which two joined rows are grouped can be read, and they have the same texts one by one. -/
def KeysAgree (p : Plan) (b b' : Binding) : Prop :=
  ∀ k ∈ p.groupKeys, ∃ v v', groupValue k.bucket (b.value? k.column) = .ok v ∧
    groupValue k.bucket (b'.value? k.column) = .ok v' ∧ groupKey v = groupKey v'

variable {p : Plan} {x : Run} {roots : List Row} {b b' : Binding}

lemma groupText_eq_iff (hb : Contributes p b) (hb' : Contributes p b') :
    groupText p b = groupText p b' ↔ KeysAgree p b b' := by
  rw [groupText, groupText, Comparison.groupKey_array_iff, groupValues, groupValues, List.map_map, List.map_map,
    List.map_inj_left]
  refine forall₂_congr fun k hk => ?_
  obtain ⟨v, hv⟩ := hb.1 k hk
  obtain ⟨v', hv'⟩ := hb'.1 k hk
  simp [hv, hv', getD]

namespace Run

lemma bindings_cons (x : Run) (root : Row) (roots : List Row) :
    x.bindings (root :: roots) = (if x.counts root then x.mainRows root else []) ++ x.bindings roots := by
  rw [bindings, bindings, List.filter_cons]
  split_ifs
  · rw [List.flatMap_cons]
  · rw [List.nil_append]

/-- What a root row shares under a text are its joined rows under it. -/
lemma flatMap_rows_rootShares (x : Run) (root : Row) (text : String) :
    ((x.rootShares root).filter fun s => s.keyText = text).flatMap (·.rows.toList) =
      ((if x.counts root then x.mainRows root else []).filter fun b => groupText x.plan b = text).map
        (contributionOf x.plan) := by
  by_cases hcounts : x.counts root
  · rw [if_pos hcounts, ← filter_contributions, filter_rootShares hcounts]
    cases hrows : ((x.mainRows root).map (contributionOf x.plan)).filter fun c => c.keyText = text with
    | nil => rfl
    | cons c cs =>
      rw [List.head?_cons, Option.toList_some, List.map_singleton, List.flatMap_singleton]
      exact toList_groupOf_head hrows
  · rw [rootShares, if_neg hcounts, if_neg hcounts]
    rfl

lemma flatMap_rows_shares (x : Run) (roots : List Row) (text : String) :
    ((roots.flatMap x.rootShares).filter fun s => s.keyText = text).flatMap (·.rows.toList) =
      ((x.bindings roots).filter fun b => groupText x.plan b = text).map (contributionOf x.plan) := by
  induction roots with
  | nil => rfl
  | cons root roots ih =>
    rw [List.flatMap_cons, List.filter_append, List.flatMap_append, ih, flatMap_rows_rootShares, bindings_cons,
      List.filter_append, List.map_append]

/-- The texts of the groups, in the order in which they appear. -/
def texts (x : Run) (roots : List Row) : List String :=
  (firsts (groupText x.plan) (x.bindings roots)).map (groupText x.plan)

/-- The place of the group that a joined row falls into. -/
def slot (x : Run) (roots : List Row) (b : Binding) : Nat := (x.texts roots).idxOf (groupText x.plan b)

lemma texts_nodup (x : Run) (roots : List Row) : (x.texts roots).Nodup :=
  List.nodup_iff_pairwise_ne.2 (List.pairwise_map.2 (firsts_pairwise _ _))

lemma groupText_mem_texts (hb : b ∈ x.bindings roots) : groupText x.plan b ∈ x.texts roots := by
  obtain ⟨first, hfirst, htext⟩ := exists_mem_firsts (groupText x.plan) hb
  exact htext ▸ List.mem_map_of_mem hfirst

lemma slot_eq_iff {n : Nat} (hn : n < (x.texts roots).length) :
    x.slot roots b = n ↔ groupText x.plan b = (x.texts roots)[n] := by
  constructor
  · rintro rfl
    exact (List.getElem_idxOf hn).symm
  · intro h
    rw [slot, h, (x.texts_nodup roots).idxOf_getElem]

/-- The groups of the shares are those of the joined rows. -/
theorem map_joinedRows (x : Run) (roots : List Row) :
    (groupBy Share.keyText (roots.flatMap x.rootShares)).map joinedRows =
      (x.texts roots).map fun text =>
        ((x.bindings roots).filter fun b => groupText x.plan b = text).map (contributionOf x.plan) := by
  calc (groupBy Share.keyText (roots.flatMap x.rootShares)).map joinedRows
      = ((firsts Share.keyText (roots.flatMap x.rootShares)).map (·.rows.first)).map fun c =>
          ((x.bindings roots).filter fun b => groupText x.plan b = c.keyText).map (contributionOf x.plan) := by
        rw [groupBy_eq, List.map_map, List.map_map]
        refine List.map_congr_left fun s hs => ?_
        rw [Function.comp_apply, joinedRows, toList_groupOf hs, flatMap_rows_shares]
        rfl
    _ = _ := by
        rw [firsts_shares, texts, List.map_map, List.map_map]
        rfl

lemma length_groups (x : Run) (roots : List Row) :
    (groupBy Share.keyText (roots.flatMap x.rootShares)).length = (x.texts roots).length := by
  have := congrArg List.length (x.map_joinedRows roots)
  rwa [List.length_map, List.length_map] at this

/-- Each group holds the rows of its place. -/
lemma joinedRows_getElem (x : Run) (roots : List Row) {n : Nat}
    (hn : n < (groupBy Share.keyText (roots.flatMap x.rootShares)).length) :
    joinedRows (groupBy Share.keyText (roots.flatMap x.rootShares))[n] =
      ((x.bindings roots).filter fun b => x.slot roots b = n).map (contributionOf x.plan) := by
  have hmap := x.map_joinedRows roots
  have hlength : n < (x.texts roots).length := x.length_groups roots ▸ hn
  have hrows : joinedRows (groupBy Share.keyText (roots.flatMap x.rootShares))[n] =
      ((x.bindings roots).filter fun b => groupText x.plan b = (x.texts roots)[n]).map
        (contributionOf x.plan) := by
    have := congrArg (·[n]?) hmap
    simpa only [List.getElem?_map, List.getElem?_eq_getElem hn, List.getElem?_eq_getElem hlength,
      Option.map_some, Option.some.injEq] using this
  rw [hrows]
  congr 1
  exact List.filter_congr fun b _ => decide_eq_decide.2 (slot_eq_iff hlength).symm

end Run

/-- The text of a list tells the texts of its items, and how many there are. So two joined rows of an evaluation
fall into one group exactly where the values agree by which they are grouped. -/
theorem grouped_iff_agree :
    (∀ xs ys : List Value, groupKey (.array xs) = groupKey (.array ys) ↔
      xs.length = ys.length ∧
        ∀ (i : Nat) (hx : i < xs.length) (hy : i < ys.length), groupKey xs[i] = groupKey ys[i]) ∧
    ∀ (x : Run) (ts : List Tuple), evaluate x.tables x.specials x.plan = .ok ts →
      ∃ r shares, ∃ slot : Binding → Nat,
        Ready.ofPlan x.tables x.specials x.plan = .ok r ∧ x.roots.mapM r.shares = .ok shares ∧
        ts = SortKey.sort x.plan.sortKeys (tuples x.plan shares.flatten) ∧
        let groups := groupBy Share.keyText shares.flatten
        let rows := x.bindings x.roots
        (∀ b ∈ rows, slot b < groups.length ∧ r.contribution b = .ok (contributionOf x.plan b)) ∧
        (∀ (n : Nat) (hn : n < groups.length),
          joinedRows groups[n] = (rows.filter fun b => slot b = n).map (contributionOf x.plan)) ∧
        ∀ b ∈ rows, ∀ b' ∈ rows, slot b = slot b' ↔ KeysAgree x.plan b b' := by
  refine ⟨fun xs ys => Comparison.groupKey_array_iff.trans ?_, fun x ts h => ?_⟩
  · rw [List.ext_getElem_iff]
    simp only [List.length_map, List.getElem_map]
  · obtain ⟨r, hr, h⟩ := bind_eq_ok.1 h
    obtain ⟨shares, hshares, h⟩ := bind_eq_ok.1 h
    have hof := ofPlan_eq_ok.1 hr
    have hshares : x.roots.mapM r.shares = .ok shares := hshares
    obtain ⟨hflat, hreads⟩ := mapM_shares_eq_ok hof hshares
    have hcontributes : ∀ b ∈ x.bindings x.roots, Contributes x.plan b := fun b hb => by
      obtain ⟨root, hroot, hb⟩ := List.mem_flatMap.1 hb
      obtain ⟨hroot, hcounts⟩ := List.mem_filter.1 hroot
      exact (hreads root hroot hcounts).2 b hb
    refine ⟨r, shares, x.slot x.roots, hr, hshares, (Except.ok.inj h).symm, fun b hb => ⟨?_, ?_⟩, ?_, ?_⟩
    · rw [hflat, x.length_groups]
      exact List.idxOf_lt_length_iff.2 (Run.groupText_mem_texts hb)
    · rw [contribution_eq_ok, hof.plan]
      exact ⟨hcontributes b hb, rfl⟩
    · rw [hflat]
      exact fun n hn => x.joinedRows_getElem x.roots hn
    · intro b hb b' hb'
      rw [← groupText_eq_iff (hcontributes b hb) (hcontributes b' hb')]
      exact List.idxOf_inj (Run.groupText_mem_texts hb)

/-- Tickets whose identifiers and states give the same characters, but do not have the same parts. -/
theorem grouped_iff_agree_tickets :
    let m : Query.Model := {
      root := some "Ticket", involved := Query.Involved.add {} .axis "Ticket",
      projections := [⟨"TICKET_ID", none⟩, ⟨"TICKET_STATE", none⟩] }
    let ticket (id state : String) : Row := [("id", .string id), ("state", .string state)]
    let tables : Tables := .ofList [("Ticket", [ticket "a\",\"b" "c", ticket "a" "b\",\"c", ticket "a\",\"b" "c"])]
    let ts : List Tuple := [[.string "a\",\"b", .string "c"], [.string "a", .string "b\",\"c"]]
    ∃ catalog p, Catalog.build Catalog.helpDesk = .ok catalog ∧ Plan.compile catalog m .unrestricted [] = .ok p ∧
      evaluate tables .builtin p = .ok ts ∧
      groupKey (.array [.string "a\",\"b", .string "c"]) ≠ groupKey (.array [.string "a", .string "b\",\"c"]) ∧
      ∃ slot : Binding → Nat, let rows := Run.bindings ⟨tables, .builtin, p⟩ (tables.rows p.root)
        rows.length = 3 ∧ ∀ b ∈ rows, ∀ b' ∈ rows, slot b = slot b' ↔ KeysAgree p b b' := by
  intro m ticket tables ts
  obtain ⟨catalog, hbuild, h⟩ : ∃ catalog, Catalog.build Catalog.helpDesk = .ok catalog ∧
      (Plan.compile catalog m .unrestricted []).toOption.any fun p =>
        Run.gives ⟨tables, .builtin, p⟩ ts &&
          decide ((Run.bindings ⟨tables, .builtin, p⟩ (tables.rows p.root)).length = 3) :=
    Outcome.exists_of_any (by decide +kernel)
  obtain ⟨p, hp, h⟩ := Outcome.exists_of_any h
  obtain ⟨hgives, hlength⟩ := Bool.and_eq_true_iff.1 h
  have he := evaluate_of_gives hgives
  obtain ⟨htexts, hgroups⟩ := grouped_iff_agree
  obtain ⟨r, shares, slot, -, -, -, -, -, hslot⟩ := hgroups ⟨tables, .builtin, p⟩ ts he
  refine ⟨catalog, p, hbuild, hp, he, fun h => ?_, slot, of_decide_eq_true hlength, hslot⟩
  have hfirst := ((htexts _ _).1 h).2 0 (by decide) (by decide)
  exact absurd hfirst (by decide +kernel)

end Tabulation.Evaluation
