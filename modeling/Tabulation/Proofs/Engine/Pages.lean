import Tabulation.Proofs.Engine.Rights
import Tabulation.Proofs.Evaluation.Pages

/-! Pages of a request. An engine over a store gives a slice of what it gives without pages: the store cuts out
the page and the engine caps it, and the position follows the size that was asked for. -/
namespace Tabulation.Engine
open Evaluation (ResultSet)
open Query (Paging)
open Storage (Store)

variable {setup : Setup} {store : Store} {i j : Input} {p : Paging}

/-- Sort criteria that come with a page, but are none, make no difference in compiling. -/
lemma compiled_of_unsorted (setup : Setup) (r : Request) (scope : Scope.Resolved) (hsort : p.sort = []) :
    (({ r with paging := some p } : Request).within scope).compiled setup =
      (({ r with paging := none } : Request).within scope).compiled setup := by
  simp only [Input.compiled, Request.within, Request.sort?, Option.map_some, hsort, Option.map_none,
    Option.getD_some, Option.getD_none]

/-- What the store cuts out and the engine caps is a slice of the whole result. -/
lemma executed_page (hbackend : setup.backend = store.run) (hcompiled : j.compiled setup = i.compiled setup)
    (hfits : ∀ result, i.executed setup none = .ok result → result.Fits) :
    j.executed setup (some p) = (i.executed setup none).map fun result =>
      result.slice (p.page.toNat * p.size.toNat) (min p.size.toNat setup.maxPageSize) := by
  unfold Input.executed at hfits ⊢
  rw [hcompiled]
  cases hplan : i.compiled setup with
  | error e => rfl
  | ok plan =>
    have hrun : ∀ paging, setup.backend plan paging =
        (Evaluation.evaluate store.tables store.specials plan).map fun tuples =>
          (⟨plan.columnNames, tuples⟩ : ResultSet).paged paging := fun paging => by
      rw [hbackend]
      rfl
    simp only [hplan, hrun] at hfits ⊢
    cases hevaluate : Evaluation.evaluate store.tables store.specials plan with
    | error f => rfl
    | ok tuples =>
      simp only [hevaluate, Except.map] at hfits ⊢
      have hwhole : (⟨plan.columnNames, tuples⟩ : ResultSet).Fits := hfits _ rfl
      rw [ResultSet.paged_eq_slice hwhole]
      exact congrArg Except.ok (ResultSet.slice_take _ _ _)

/-- Pages of one size, one after the other, give the whole result, and each of them is the slice that unbounded
numbers would single out. An engine over a store fails with a page exactly where it fails without, and otherwise
it gives the page of the whole result, capped. -/
theorem pages_tile :
    (∀ result : ResultSet, result.Fits →
      (∀ p : Paging, result.paged (some p) = result.slice (p.page.toNat * p.size.toNat) p.size.toNat) ∧
      ∀ size : UInt64, 0 < size → ∀ n ≤ UInt64.size,
        let pages := (List.range n).map fun k => (result.paged (some ⟨.ofNat k, size, []⟩)).tuples
        pages.flatten = result.tuples.take (n * size.toNat) ∧
          (result.tuples.length ≤ n → pages.flatten = result.tuples)) ∧
    ∀ (setup : Setup) (store : Store), setup.backend = store.run → ∀ (s : State) (r : Request),
      let outcome (paging : Option Paging) :=
        ((execute setup { r with paging }).run (s.withCache 0)).1
      (∀ result, outcome none = .ok result → result.Fits) →
      ∀ p : Paging, p.sort = [] → outcome (some p) = (outcome none).map fun result =>
        result.slice (p.page.toNat * p.size.toNat) (min p.size.toNat setup.maxPageSize) := by
  refine ⟨fun result hresult => ⟨ResultSet.paged_eq_slice hresult, fun size hsize n hn => ?_⟩, ?_⟩
  · have hflatten := ResultSet.flatten_pages hresult size hn
    refine ⟨hflatten, fun hlength => hflatten.trans (List.take_of_length_le ?_)⟩
    exact hlength.trans (Nat.le_mul_of_pos_right n (UInt64.lt_iff_toNat_lt.1 hsize))
  · intro setup store hbackend s r outcome hfits p hsort
    have houtcome : ∀ paging, outcome paging =
        (({ r with paging } : Request).input setup s.acl).executed setup paging := fun paging =>
      run_execute (faithful_withCache setup { r with paging } s 0)
    rw [houtcome, houtcome]
    simp only [houtcome] at hfits
    exact executed_page hbackend (compiled_of_unsorted setup r _ hsort) hfits

/-- Two tickets are a result that pages of one tuple tile. The second of them comes as the second page, and no
ticket is on a page whose position 64 bits cannot hold. -/
theorem pages_tile_tickets :
    ∃ catalog, Catalog.build Catalog.helpDesk = .ok catalog ∧
      let setup := Setup.ofStore catalog ticketFolder 1000
      let r : Request := { Request.firstTicket with scope := none }
      let whole : ResultSet := ⟨["TICKET_STATE"], [[.string "open"], [.string "done"]]⟩
      let outcome (paging : Option Paging) := ((execute setup { r with paging }).run (State.withCache {} 0)).1
      whole.Fits ∧ whole.paged (some ⟨.ofNat Query.maxSize, 2, []⟩) = ⟨["TICKET_STATE"], []⟩ ∧
      ((List.range 2).map fun k => (whole.paged (some ⟨.ofNat k, 1, []⟩)).tuples).flatten = whole.tuples ∧
      outcome none = .ok whole ∧
      outcome (some ⟨1, 1, []⟩) = .ok ⟨["TICKET_STATE"], [[.string "done"]]⟩ := by
  let r : Request := { Request.firstTicket with scope := none }
  let whole : ResultSet := ⟨["TICKET_STATE"], [[.string "open"], [.string "done"]]⟩
  let i : Input := r.within .unrestricted
  obtain ⟨catalog, hbuild, hi⟩ : ∃ catalog, Catalog.build Catalog.helpDesk = .ok catalog ∧
      ((i.compiled (.ofStore catalog ticketFolder 1000)).toOption.any fun p =>
        Evaluation.Run.gives ⟨ticketFolder.tables, ticketFolder.specials, p⟩ whole.tuples &&
          decide (p.columnNames = ["TICKET_STATE"])) :=
    Outcome.exists_of_any (by decide +kernel)
  have hwhole : ((execute (.ofStore catalog ticketFolder 1000) r).run (State.withCache {} 0)).1 =
      .ok whole := by
    rw [run_execute (faithful_withCache _ r {} 0)]
    exact executed_of_gives rfl hi
  have hfits : whole.Fits := by decide
  obtain ⟨hresults, hrequests⟩ := pages_tile
  obtain ⟨hpaged, hpages⟩ := hresults whole hfits
  have hsecond := hrequests (.ofStore catalog ticketFolder 1000) ticketFolder rfl {} r
    (fun result hresult => by
      cases hwhole.symm.trans hresult
      exact hfits) ⟨1, 1, []⟩ rfl
  refine ⟨catalog, hbuild, hfits, (hpaged _).trans (by decide +kernel),
    (hpages 1 (by decide) 2 (by decide)).2 (by decide), hwhole, hsecond.trans ?_⟩
  exact (congrArg _ hwhole).trans rfl

end Tabulation.Engine
