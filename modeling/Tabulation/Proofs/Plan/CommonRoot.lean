import Tabulation.Proofs.Catalog.Route
import Tabulation.Proofs.Plan.Joins

/-! The root of a query that names none and projects something: an entity type from which all projected ones
are reached without fan-out. Where there are several of them, they differ by one-to-one relations only, since
a relation that fans out on the way there or on the way back keeps one of its two ends from being a root. -/
namespace Tabulation

namespace Catalog

/-- The way from one entity type to another takes one-to-one relations only. -/
def LinkedOneToOne (catalog : Catalog) (a b : EntityType) : Prop :=
  ∃ path, catalog.path? a b = some path ∧
    ∀ s ∈ path, ∃ r ∈ catalog.forest.relations, s.Walks r ∧ r.cardinality = .oneToOne

variable {catalog : Catalog} {relations : List Relation} {a b : EntityType} {path : List Step} {s t : Step}

/-- What fans out in neither direction is one-to-one. -/
lemma Opposite.oneToOne (h : Opposite relations s t) (hs : s.fansOut = false) (ht : t.fansOut = false) :
    ∃ r ∈ relations, s.Walks r ∧ r.cardinality = .oneToOne := by
  obtain ⟨r, hr, hst⟩ := h
  refine ⟨r, hr, hst.imp And.left And.left, ?_⟩
  cases hc : r.cardinality with
  | oneToOne => rfl
  | oneToMany => rcases hst with ⟨rfl, rfl⟩ | ⟨rfl, rfl⟩ <;> simp [Relation.forward, hc] at hs ht
  | manyToOne => rcases hst with ⟨rfl, rfl⟩ | ⟨rfl, rfl⟩ <;> simp [Relation.backward, hc] at hs ht

lemma fanOutKey?_eq_nil_iff : catalog.fanOutKey? a b = some ⟨[]⟩ ↔
    ∃ path, catalog.path? a b = some path ∧ ∀ s ∈ path, s.fansOut = false := by
  simp only [fanOutKey?, Option.map_eq_some_iff, ← FanOutKey.isRoot_iff, FanOutKey.isRoot_ofSteps]

/-- Entity types that reach one another without fan-out are linked by one-to-one relations. -/
theorem linkedOneToOne_of_keys (hc : catalog.WellFormed) (hab : catalog.fanOutKey? a b = some ⟨[]⟩)
    (hba : catalog.fanOutKey? b a = some ⟨[]⟩) : catalog.LinkedOneToOne a b := by
  obtain ⟨path, hpath, hdirect⟩ := fanOutKey?_eq_nil_iff.1 hab
  obtain ⟨back, hback, hdirectBack⟩ := fanOutKey?_eq_nil_iff.1 hba
  obtain ⟨back', hback', hopposite⟩ := path?_back hc hpath
  obtain rfl : back' = back := Option.some.inj (hback'.symm.trans hback)
  refine ⟨path, hpath, fun s hs => ?_⟩
  obtain ⟨t, ht, hst⟩ := Outcome.exists_of_mem_forall₂ hopposite.flip (List.mem_reverse.2 hs)
  exact Opposite.oneToOne hst (hdirect s hs) (hdirectBack t ht)

end Catalog

namespace Plan
open Catalog (LinkedOneToOne)
open Query (Projection)
open Outcome

/-- One of some entity types from which the ways to all of them are without fan-out. -/
structure CommonRoot (catalog : Catalog) (es : List EntityType) (root : EntityType) : Prop where
  mem : root ∈ es
  key : ∀ e ∈ es, catalog.fanOutKey? root e = some ⟨[]⟩

instance (catalog : Catalog) (es : List EntityType) : DecidablePred (CommonRoot catalog es) := fun root =>
  decidable_of_iff (root ∈ es ∧ ∀ e ∈ es, catalog.fanOutKey? root e = some ⟨[]⟩)
    ⟨fun h => ⟨h.1, h.2⟩, fun h => ⟨h.mem, h.key⟩⟩

/-- The entity types of the projections, in their order. -/
def Checked.projected (c : Checked) : List EntityType := c.projections.map Found.entity

variable {catalog : Catalog} {es es' : List EntityType} {a b root : EntityType} {c c' : Checked}

lemma CommonRoot.linked (hc : catalog.WellFormed) (ha : CommonRoot catalog es a)
    (hb : CommonRoot catalog es b) : catalog.LinkedOneToOne a b :=
  Catalog.linkedOneToOne_of_keys hc (ha.key b hb.mem) (hb.key a ha.mem)

lemma CommonRoot.congr (h : ∀ e, e ∈ es ↔ e ∈ es') : CommonRoot catalog es root ↔ CommonRoot catalog es' root :=
  ⟨fun hr => ⟨(h root).1 hr.mem, fun e he => hr.key e ((h e).2 he)⟩,
    fun hr => ⟨(h root).2 hr.mem, fun e he => hr.key e ((h e).1 he)⟩⟩

lemma exists_find?_commonRoot : (∃ root, es.find? (CommonRoot catalog es ·) = some root) ↔
    ∃ root, CommonRoot catalog es root := by
  rw [← Option.isSome_iff_exists, List.find?_isSome]
  simp only [decide_eq_true_eq]
  exact exists_congr fun root => and_iff_right_of_imp CommonRoot.mem

lemma mem_distinct {e : EntityType} : e ∈ distinct es ↔ e ∈ es := by
  induction es with
  | nil => rfl
  | cons x xs ih =>
    rw [distinct, List.mem_cons, List.mem_cons, List.mem_filter, ih]
    by_cases h : e = x <;> simp [h]

/-- The root is the first common root of the projected entity types. -/
lemma exists_chooseRoot_eq_ok (hroot : c.root = none) (hp : c.projections ≠ []) :
    (∃ placed, chooseRoot catalog c = .ok (root, placed)) ↔
      c.projected.find? (CommonRoot catalog c.projected ·) = some root := by
  have hplaces : ∀ e ∈ distinct c.projected,
      ((∃ placed, c.projections.mapM (placeProjection catalog e) = .ok placed) ↔
        decide (CommonRoot catalog c.projected e)) := by
    intro e he
    rw [exists_mapM_eq_ok, decide_eq_true_iff]
    simp only [exists_placeProjection_iff]
    refine ⟨fun h => ⟨mem_distinct.1 he, fun e' he' => ?_⟩, fun h f hf => h.key _ (List.mem_map_of_mem hf)⟩
    obtain ⟨f, hf, rfl⟩ := List.mem_map.1 he'
    exact h f hf
  simp only [chooseRoot_projected hroot hp]
  exact (exists_findSome?_placedFrom hplaces).trans (by rw [find?_distinct])

lemma exists_choice_iff (hroot : c.root = none) (hp : c.projections ≠ []) :
    (∃ choice, chooseRoot catalog c = .ok choice) ↔ ∃ root, CommonRoot catalog c.projected root := by
  rw [Prod.exists, ← exists_find?_commonRoot]
  exact exists_congr fun root => exists_chooseRoot_eq_ok hroot hp

lemma commonRoot_of_chooseRoot (hroot : c.root = none) (hp : c.projections ≠ [])
    {placed : List (Placed Projection)} (h : chooseRoot catalog c = .ok (root, placed)) :
    c.projected.find? (CommonRoot catalog c.projected ·) = some root ∧
      CommonRoot catalog c.projected root := by
  have hfirst := (exists_chooseRoot_eq_ok hroot hp).1 ⟨placed, h⟩
  have hcommon := List.find?_some hfirst
  exact ⟨hfirst, of_decide_eq_true hcommon⟩

/-- Where a query names no root and projects something, it has a root if and only if its projected entity types
have a common one. The root is the first of these, from any other one it differs by one-to-one relations only,
and so it does after a permutation of the projections. -/
theorem root_is_first_common_root {declarations : Catalog.Declarations}
    (hbuild : Catalog.build declarations = .ok catalog) (hroot : c.root = none) (hp : c.projections ≠ []) :
    ((∃ choice, chooseRoot catalog c = .ok choice) ↔ ∃ e, CommonRoot catalog c.projected e) ∧
    (∀ root placed, chooseRoot catalog c = .ok (root, placed) →
      c.projected.find? (CommonRoot catalog c.projected ·) = some root ∧
        ∀ e, CommonRoot catalog c.projected e → catalog.LinkedOneToOne root e) ∧
    ∀ c' : Checked, c'.root = none → c'.projections.Perm c.projections →
      ((∃ choice, chooseRoot catalog c' = .ok choice) ↔ ∃ choice, chooseRoot catalog c = .ok choice) ∧
        ∀ root placed root' placed', chooseRoot catalog c = .ok (root, placed) →
          chooseRoot catalog c' = .ok (root', placed') → catalog.LinkedOneToOne root root' := by
  have hc := Catalog.wellFormed_build hbuild
  refine ⟨exists_choice_iff hroot hp, fun root placed h => ?_, fun c' hroot' hperm => ?_⟩
  · obtain ⟨hfirst, hcommon⟩ := commonRoot_of_chooseRoot hroot hp h
    exact ⟨hfirst, fun e he => hcommon.linked hc he⟩
  · have hp' : c'.projections ≠ [] := fun h => hp (h ▸ hperm).nil_eq.symm
    have hsame (e : EntityType) : e ∈ c'.projected ↔ e ∈ c.projected := (hperm.map Found.entity).mem_iff
    refine ⟨?_, fun root placed root' placed' h h' => ?_⟩
    · rw [exists_choice_iff hroot' hp', exists_choice_iff hroot hp]
      exact exists_congr fun e => CommonRoot.congr hsame
    · obtain ⟨-, hcommon⟩ := commonRoot_of_chooseRoot hroot hp h
      obtain ⟨-, hcommon'⟩ := commonRoot_of_chooseRoot hroot' hp' h'
      exact hcommon.linked hc ((CommonRoot.congr hsame).1 hcommon')

/-- Teams, tickets and for every ticket one receipt. -/
def receipts : Catalog.Declarations where
  entities := [⟨"Team", "id"⟩, ⟨"Ticket", "id"⟩, ⟨"Receipt", "id"⟩]
  relations := [⟨"Team", "id", "Ticket", "team", .oneToMany⟩,
    ⟨"Ticket", "id", "Receipt", "ticket", .oneToOne⟩]
  columns := [{ label := "TEAM_NAME", entity := "Team", field := "name", kind := .text },
    { label := "TICKET_ID", entity := "Ticket", field := "id", kind := .id },
    { label := "RECEIPT_NO", entity := "Receipt", field := "no", kind := .text }]

/-- Tickets and receipts are roots in turn, as the ones or the others are projected first. -/
theorem root_is_first_common_root_receipts :
    let query (labels : List String) : Query.Model := {
      involved := ["Team", "Ticket", "Receipt"].foldl (·.add .axis) {}
      projections := labels.map fun label => ⟨label, none⟩ }
    ∃ catalog c c', Catalog.build receipts = .ok catalog ∧
      check catalog (query ["TEAM_NAME", "TICKET_ID", "RECEIPT_NO"]) = .ok c ∧
      check catalog (query ["RECEIPT_NO", "TICKET_ID", "TEAM_NAME"]) = .ok c' ∧
      c.root = none ∧ c'.projections.Perm c.projections ∧
      (∃ placed, chooseRoot catalog c = .ok ("Ticket", placed)) ∧
      (∃ placed, chooseRoot catalog c' = .ok ("Receipt", placed)) ∧
      catalog.LinkedOneToOne "Ticket" "Receipt" := by
  intro query
  obtain ⟨catalog, hbuild, h⟩ : ∃ catalog, Catalog.build receipts = .ok catalog ∧
      ((check catalog (query ["TEAM_NAME", "TICKET_ID", "RECEIPT_NO"])).toOption.any fun c =>
        (check catalog (query ["RECEIPT_NO", "TICKET_ID", "TEAM_NAME"])).toOption.any fun c' =>
          ((c.root = none ∧ c.projections ≠ []) ∧ c'.root = none ∧ c'.projections.Perm c.projections) &&
            ((chooseRoot catalog c).toOption.any (·.1 = "Ticket") &&
              (chooseRoot catalog c').toOption.any (·.1 = "Receipt"))) :=
    exists_of_any (by decide +kernel)
  obtain ⟨c, hc, h⟩ := exists_of_any h
  obtain ⟨c', hc', h⟩ := exists_of_any h
  simp only [Bool.and_eq_true, decide_eq_true_eq] at h
  obtain ⟨⟨⟨hroot, hp⟩, hroot', hperm⟩, hticket, hreceipt⟩ := h
  obtain ⟨⟨_, placed⟩, hticket, he⟩ := exists_of_any hticket
  obtain rfl := of_decide_eq_true he
  obtain ⟨⟨_, placed'⟩, hreceipt, he'⟩ := exists_of_any hreceipt
  obtain rfl := of_decide_eq_true he'
  obtain ⟨-, -, hpermuted⟩ := root_is_first_common_root hbuild hroot hp
  exact ⟨catalog, c, c', hbuild, hc, hc', hroot, hperm, ⟨placed, hticket⟩, ⟨placed', hreceipt⟩,
    (hpermuted c' hroot' hperm).2 _ _ _ _ hticket hreceipt⟩

end Plan

end Tabulation
