import Tabulation.Proofs.Engine.Transparency
import Tabulation.Proofs.Evaluation.Widening

/-! Rights are monotone. Whoever is granted more sees all that was seen before: the scope of a request lists
the same leaves and perhaps more, and the result has the same tuples and perhaps more. -/
namespace Tabulation
open Comparison (groupKey)

namespace Scope

/-- All that is granted by one is granted by the other. -/
def Grants.Included (g g' : Grants) : Prop := ∀ login r, g.allows login r → g'.allows login r

lemma canRead_of_included {acl acl' : Acl} (h : acl.grants.Included acl'.grants) {caller : Identity}
    {r : Reference} (hr : acl.canRead caller r) : acl'.canRead caller r := by
  rcases Bool.or_eq_true_iff.1 hr with hadministrator | hallows
  · exact Bool.or_eq_true_iff.2 (.inl hadministrator)
  · exact Bool.or_eq_true_iff.2 (.inr (h _ _ hallows))

lemma allows_iff {g : Grants} {login : String} {r : Reference} :
    g.allows login r ↔ ∃ leaves, g.byLogin.get? login = some leaves ∧ leaves.Lists r := by
  unfold Grants.allows IdsByType.Lists
  cases g.byLogin.get? login with
  | none => simp
  | some leaves => cases hids : leaves.get? r.entityType <;> simp [hids, OrderedSet.contains]

/-- To grant a leaf takes nothing away. -/
lemma included_grant (g : Grants) (login : String) (r : Reference) : g.Included (g.grant login r) := by
  intro login' r' h
  obtain ⟨leaves, hleaves, hlists⟩ := allows_iff.1 h
  rw [allows_iff, Grants.grant, OrderedMap.get?_alter]
  split_ifs with hlogin
  · subst hlogin
    exact ⟨_, rfl, lists_add.2 (.inr (by simpa [hleaves] using hlists))⟩
  · exact ⟨leaves, hleaves, hlists⟩

/-- With an oracle that allows more, no leaf is lost. -/
lemma within_grantedLeaves {d : Directory} {oracle oracle' : Oracle} {caller : Identity}
    (h : ∀ r, oracle caller r → oracle' caller r) (references : List Reference) :
    (grantedLeaves (visit d oracle caller [] references)).Within
      (grantedLeaves (visit d oracle' caller [] references)) := by
  intro r hr
  rw [(lists_grantedLeaves _).1, mem_visit_iff] at hr ⊢
  obtain ⟨hreaches, hleaf, hallowed⟩ := hr
  exact ⟨hreaches, hleaf, h r hallowed⟩

end Scope

namespace Engine
open Scope (Acl Identity Reference Resolved)
open Evaluation (ResultSet)
open Storage (Store)

/-- An engine whose store is its backend and its directory, too. -/
def Setup.ofStore (catalog : Catalog) (store : Store) (maxPageSize : Nat) : Setup :=
  ⟨catalog, store.directory, store.run, maxPageSize⟩

/-- The cache has no plan for the request but the one that it is compiled to, as its plans come from inputs
that no key confuses. -/
def State.Faithful (setup : Setup) (r : Request) (s : State) : Prop :=
  ∃ known, Unambiguous known ∧ s.Sound setup known ∧ r.input setup s.acl ∈ known

variable {catalog : Catalog} {setup : Setup} {store : Store} {maxPageSize : Nat} {r : Request}
  {s s' : State} {result result' : ResultSet}

/-- A cache that nothing has been entered into is faithful. -/
lemma faithful_withCache (setup : Setup) (r : Request) (s : State) (capacity : Nat) :
    (s.withCache capacity).Faithful setup r := by
  refine ⟨[r.input setup s.acl], ?_, sound_withCache s capacity, List.mem_singleton.2 rfl⟩
  rintro i hi j hj -
  rw [List.mem_singleton.1 hi, List.mem_singleton.1 hj]

/-- It stays so whatever the engine is asked, unless two of the inputs share a key. -/
theorem faithful_answers {capacity : Nat} {commands : List Command}
    (h : Unambiguous (inputs setup s.acl (commands ++ [.execute r]))) :
    let s' := ((answers setup commands).run (s.withCache capacity)).2
    s'.acl = commands.foldl Command.aclAfter s.acl ∧ s'.Faithful setup r := by
  have hsub : inputs setup s.acl commands ⊆ inputs setup s.acl (commands ++ [.execute r]) := by
    rw [inputs_append]
    exact List.subset_append_left _ _
  obtain ⟨after, hrun, hacl, hsound⟩ := gives_answers (sound_withCache s capacity) h commands hsub
  rw [hrun]
  refine ⟨hacl, _, h, hsound, ?_⟩
  rw [hacl, inputs_append]
  exact List.mem_append_right _ (List.mem_singleton.2 rfl)

lemma run_execute (hs : s.Faithful setup r) :
    ((execute setup r).run s).1 = (r.input setup s.acl).executed setup r.paging := by
  obtain ⟨known, hknown, hsound, hi⟩ := hs
  obtain ⟨after, hrun, -⟩ := gives_execute hsound hknown hi
  rw [hrun]

/-- A result without pages has all tuples of a plan. -/
lemma evaluate_of_executed {i : Input}
    (h : i.executed (.ofStore catalog store maxPageSize) none = .ok result) :
    ∃ p, Plan.compile catalog i.model i.scope (i.sort?.getD []) = .ok p ∧
      Evaluation.evaluate store.tables store.specials p = .ok result.tuples := by
  unfold Input.executed at h
  cases hp : i.compiled (.ofStore catalog store maxPageSize) with
  | error e => simp [hp] at h
  | ok p =>
    have hbackend : (Setup.ofStore catalog store maxPageSize).backend p none =
      (Evaluation.evaluate store.tables store.specials p).bind fun ts => .ok ⟨p.columnNames, ts⟩ := rfl
    refine ⟨p, hp, ?_⟩
    cases he : Evaluation.evaluate store.tables store.specials p with
    | error f => simp [hp, hbackend, he, Except.bind] at h
    | ok ts =>
      simp only [hp, hbackend, he, Except.bind, capPage, Option.isSome_none, Bool.false_eq_true,
        if_false, Except.ok.injEq] at h
      rw [← h]

/-- The scope of a request that lists references stays restricted under all grants, and lists no less
under more of them. -/
theorem within_resolveScope (setup : Setup) (hscope : r.scope.getD [] ≠ [])
    (h : s.acl.grants.Included s'.acl.grants) :
    ∃ leaves leaves', ((resolveScope setup r).run s).1 = .restricted leaves ∧
      ((resolveScope setup r).run s').1 = .restricted leaves' ∧ leaves.Within leaves' := by
  have hresolve : ∀ s : State, ((resolveScope setup r).run s).1 = .restricted (Scope.grantedLeaves
      (Scope.visit setup.directory s.acl.canRead r.caller [] (r.scope.getD []))) := fun s =>
    (Scope.scope_resolve setup.directory s.acl.canRead r.scope r.caller).trans (if_neg hscope)
  exact ⟨_, _, hresolve s, hresolve s',
    Scope.within_grantedLeaves (fun _ => Scope.canRead_of_included h) _⟩

/-- Under more grants a request that lists references sees all that it sees under fewer. The scope lists all
leaves that it lists under fewer grants, and where nothing is aggregated and no page is asked for, the
result has all tuples, up to the texts that they are grouped under. -/
theorem rights_are_monotone (hscope : r.scope.getD [] ≠ []) (hpaging : r.paging = none)
    (haggregations : r.model.aggregations = []) (hgrants : s.acl.grants.Included s'.acl.grants)
    (hs : s.Faithful (.ofStore catalog store maxPageSize) r)
    (hs' : s'.Faithful (.ofStore catalog store maxPageSize) r)
    (h : ((execute (.ofStore catalog store maxPageSize) r).run s).1 = .ok result)
    (h' : ((execute (.ofStore catalog store maxPageSize) r).run s').1 = .ok result') :
    (∀ t ∈ result.tuples, ∃ t' ∈ result'.tuples, groupKey (.array t') = groupKey (.array t)) ∧
    ∃ leaves leaves', ((resolveScope (.ofStore catalog store maxPageSize) r).run s).1 = .restricted leaves ∧
      ((resolveScope (.ofStore catalog store maxPageSize) r).run s').1 = .restricted leaves' ∧
      ∀ x, leaves.Lists x → leaves'.Lists x := by
  obtain ⟨leaves, leaves', hleaves, hleaves', hwithin⟩ :=
    within_resolveScope (.ofStore catalog store maxPageSize) hscope hgrants
  refine ⟨fun t ht => ?_, leaves, leaves', hleaves, hleaves', hwithin⟩
  rw [run_execute hs, hpaging] at h
  rw [run_execute hs', hpaging] at h'
  obtain ⟨p, hp, he⟩ := evaluate_of_executed h
  obtain ⟨p', hp', he'⟩ := evaluate_of_executed h'
  have hinput : (r.input (.ofStore catalog store maxPageSize) s.acl).scope = .restricted leaves := hleaves
  have hinput' : (r.input (.ofStore catalog store maxPageSize) s'.acl).scope = .restricted leaves' := hleaves'
  rw [hinput] at hp
  rw [hinput'] at hp'
  exact Evaluation.exists_mem_of_within haggregations hwithin hp hp' he he' ht

lemma input_of_visits {acl : Acl} {visits : List Scope.Visit} (hscope : r.scope.getD [] ≠ [])
    (h : Scope.visitWithin store.directory acl.canRead r.caller
      (Scope.unopenedSize [] store.directory.containers + (r.scope.getD []).length) [] (r.scope.getD []) =
        some visits) : r.input (.ofStore catalog store maxPageSize) acl =
          r.within (.restricted (Scope.grantedLeaves visits)) := by
  rw [Scope.visitWithin_eq_visit _ _ _ _ _ le_rfl, Option.some.injEq] at h
  rw [Request.input, Scope.scope_resolve, if_neg hscope, ← h]
  rfl

/-- A folder with an open ticket and one that is done. -/
def ticketFolder : Store where
  tables := .ofList [("Ticket", [[("id", .ofNat 1), ("state", .string "open")],
    [("id", .ofNat 2), ("state", .string "done")]])]
  containers := [(⟨"Folder", 1⟩, [⟨"Ticket", 1⟩, ⟨"Ticket", 2⟩])]

/-- The folder is asked for by somebody who may read one of its tickets, and then both. -/
theorem rights_are_monotone_folder :
    ∃ catalog, Catalog.build Catalog.helpDesk = .ok catalog ∧
      let setup := Setup.ofStore catalog ticketFolder 1000
      let r : Request := { Request.firstTicket with scope := some [⟨"Folder", 1⟩] }
      let one := Scope.Grants.grant {} "ann" ⟨"Ticket", 1⟩
      let both := one.grant "ann" ⟨"Ticket", 2⟩
      let s := State.withCache { acl := ⟨0, one⟩ } 8
      let s' := ((answers setup [.execute r, .refresh both]).run s).2
      let ts : List Evaluation.Tuple := [[.string "open"], [.string "done"]]
      ((execute setup r).run s).1 = .ok ⟨["TICKET_STATE"], [[.string "open"]]⟩ ∧
      ((execute setup r).run s').1 = .ok ⟨["TICKET_STATE"], ts⟩ ∧
      (∃ t' ∈ ts, groupKey (.array t') = groupKey (.array [.string "open"])) ∧
      ∃ leaves leaves', ((resolveScope setup r).run s).1 = .restricted leaves ∧
        ((resolveScope setup r).run s').1 = .restricted leaves' ∧ ∀ x, leaves.Lists x → leaves'.Lists x := by
  let r : Request := { Request.firstTicket with scope := some [⟨"Folder", 1⟩] }
  let one := Scope.Grants.grant {} "ann" ⟨"Ticket", 1⟩
  let both := one.grant "ann" ⟨"Ticket", 2⟩
  let ts : List Evaluation.Tuple := [[.string "open"], [.string "done"]]
  let fewer : Input := r.within (.restricted (Scope.grantedLeaves
    [.granted ⟨"Ticket", 1⟩, .denied ⟨"Ticket", 2⟩]))
  let more : Input := r.within (.restricted (Scope.grantedLeaves
    [.granted ⟨"Ticket", 1⟩, .granted ⟨"Ticket", 2⟩]))
  obtain ⟨catalog, hbuild, h⟩ : ∃ catalog, Catalog.build Catalog.helpDesk = .ok catalog ∧
      ((fewer.compiled (.ofStore catalog ticketFolder 1000)).toOption.any fun p =>
        Evaluation.Run.gives ⟨ticketFolder.tables, ticketFolder.specials, p⟩ [[.string "open"]] &&
          decide (p.columnNames = ["TICKET_STATE"])) &&
      ((more.compiled (.ofStore catalog ticketFolder 1000)).toOption.any fun p =>
        Evaluation.Run.gives ⟨ticketFolder.tables, ticketFolder.specials, p⟩ ts &&
          decide (p.columnNames = ["TICKET_STATE"])) :=
    Outcome.exists_of_any (by decide +kernel)
  obtain ⟨hfewer, hmore⟩ := Bool.and_eq_true_iff.1 h
  let setup := Setup.ofStore catalog ticketFolder 1000
  let s := State.withCache { acl := ⟨0, one⟩ } 8
  have hscope : r.scope.getD [] ≠ [] := by decide
  have hbefore : r.input setup ⟨0, one⟩ = fewer := input_of_visits hscope (by decide +kernel)
  have hafter : r.input setup ⟨1, both⟩ = more := input_of_visits hscope (by decide +kernel)
  have hkeys : fewer.key ≠ more.key := by
    rw [Input.key_eq, Input.key_eq]
    decide +kernel
  have hinputs : inputs setup ⟨0, one⟩ [.execute r, .refresh both, .execute r] = [fewer, more] :=
    congrArg₂ (fun i j => [i, j]) hbefore hafter
  have hunambiguous : Unambiguous (inputs setup ⟨0, one⟩ [.execute r, .refresh both, .execute r]) := by
    rw [hinputs]
    exact unambiguous_of_two hkeys (by simp)
  have hs : s.Faithful setup r := faithful_withCache setup r _ 8
  let s' := ((answers setup [.execute r, .refresh both]).run s).2
  obtain ⟨hacl, hs'⟩ : s'.acl = ⟨1, both⟩ ∧ s'.Faithful setup r := faithful_answers hunambiguous
  have hresult : ((execute setup r).run s).1 = .ok ⟨["TICKET_STATE"], [[.string "open"]]⟩ := by
    rw [run_execute hs]
    exact hbefore ▸ executed_of_gives rfl hfewer
  have hresult' : ((execute setup r).run s').1 = .ok ⟨["TICKET_STATE"], ts⟩ := by
    rw [run_execute hs', hacl]
    exact hafter ▸ executed_of_gives rfl hmore
  have hgrants : s.acl.grants.Included s'.acl.grants := by
    rw [hacl]
    exact Scope.included_grant one "ann" ⟨"Ticket", 2⟩
  obtain ⟨htuples, hleaves⟩ := rights_are_monotone hscope rfl rfl hgrants hs hs' hresult hresult'
  exact ⟨catalog, hbuild, hresult, hresult', htuples _ (List.mem_singleton.2 rfl), hleaves⟩

end Engine

end Tabulation
