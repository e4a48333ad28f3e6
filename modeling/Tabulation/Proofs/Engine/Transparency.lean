import Mathlib.Tactic.Lemma
import Tabulation.Engine.Session
import Tabulation.Proofs.Catalog.Path
import Tabulation.Proofs.Evaluation.Success
import Tabulation.Proofs.Plan.Cache
import Tabulation.Proofs.Plan.Fingerprint

/-! The cache of plans does not show. Whatever an engine is asked, and however its grants change in
between, it answers as if every request were compiled anew under the grants in force. -/
namespace Tabulation.Engine
open Plan (Rejection Explanation)
open Query (Model Paging)
open Scope (Acl Grants Resolved)
open Evaluation (ResultSet)

/-- What a request gives to compile. -/
structure Input where
  model : Model
  scope : Resolved
  sort? : Option Sorting.Criteria
deriving DecidableEq

namespace Input

def key (i : Input) : String := Plan.fingerprint i.model i.scope i.sort?

def compiled (setup : Setup) (i : Input) : Except Rejection Plan :=
  Plan.compile setup.catalog i.model i.scope (i.sort?.getD [])

def explained (setup : Setup) (i : Input) : Explanation :=
  match i.compiled setup with
  | .ok plan => .ofPlan plan
  | .error e => .ofRejection e

def executed (setup : Setup) (paging : Option Paging) (i : Input) : Except Failure ResultSet :=
  match i.compiled setup with
  | .ok plan =>
    match setup.backend plan paging with
    | .ok found => .ok (capPage setup paging found)
    | .error f => .error (.storage f)
  | .error e => .error (.rejected e)

end Input

/-- What a request gives to compile when its scope has been resolved. -/
def Request.within (r : Request) (scope : Resolved) : Input := ⟨r.model, scope, r.sort?⟩

/-- What a request gives to compile under the grants in force. -/
def Request.input (setup : Setup) (acl : Acl) (r : Request) : Input :=
  r.within (Scope.resolve setup.directory acl.canRead r.scope r.caller).scope

/-- What an engine can be asked. -/
inductive Command where
  | prepare (r : Request)
  | explain (r : Request)
  | execute (r : Request)
  | refresh (grants : Grants)

inductive Answer where
  | prepared (plan : Except Rejection Plan)
  | explained (explanation : Explanation)
  | executed (result : Except Failure ResultSet)
  | refreshed (epoch : Nat)

namespace Command

def request? : Command → Option Request
  | .prepare r | .explain r | .execute r => some r
  | .refresh _ => none

/-- The grants in force afterwards. -/
def aclAfter (acl : Acl) : Command → Acl
  | .refresh grants => acl.refresh grants
  | _ => acl

def answer (setup : Setup) : Command → StateM State Answer
  | .prepare r => return .prepared (← Engine.prepare setup r)
  | .explain r => return .explained (← Engine.explain setup r)
  | .execute r => return .executed (← Engine.execute setup r)
  | .refresh grants => return .refreshed (← refreshAcl grants)

/-- The answer of an engine that remembers nothing but the grants in force. -/
def direct (setup : Setup) (acl : Acl) : Command → Answer
  | .prepare r => .prepared ((r.input setup acl).compiled setup)
  | .explain r => .explained ((r.input setup acl).explained setup)
  | .execute r => .executed ((r.input setup acl).executed setup r.paging)
  | .refresh grants => .refreshed (acl.refresh grants).epoch

end Command

def answers (setup : Setup) (commands : List Command) : StateM State (List Answer) :=
  commands.mapM (Command.answer setup)

def directAnswers (setup : Setup) (acl : Acl) : List Command → List Answer
  | [] => []
  | c :: cs => c.direct setup acl :: directAnswers setup (c.aclAfter acl) cs

/-- Everything that commands give to compile, each request under the grants in force by then. -/
def inputs (setup : Setup) (acl : Acl) : List Command → List Input
  | [] => []
  | c :: cs => (c.request?.map (Request.input setup acl)).toList ++ inputs setup (c.aclAfter acl) cs

/-- No two inputs share a key. -/
def Unambiguous (known : List Input) : Prop := ∀ i ∈ known, ∀ j ∈ known, i.key = j.key → i = j

lemma unambiguous_of_two {known : List Input} {i j : Input} (h : i.key ≠ j.key)
    (hknown : ∀ k ∈ known, k = i ∨ k = j) : Unambiguous known := by
  intro k hk k' hk' hkey
  rcases hknown k hk with rfl | rfl
  · rcases hknown k' hk' with rfl | rfl
    · rfl
    · exact absurd hkey h
  · rcases hknown k' hk' with rfl | rfl
    · exact absurd hkey.symm h
    · rfl

/-- Every plan in the cache is what an input with its key is compiled to. -/
def State.Sound (setup : Setup) (known : List Input) (s : State) : Prop :=
  ∀ cache, s.cache = some cache → ∀ key plan, cache.get? key = some plan →
    ∃ i ∈ known, i.key = key ∧ i.compiled setup = .ok plan

section

variable {setup : Setup} {known : List Input} {s : State}

/-- What the cache has under the key of an input is what the input is compiled to. -/
lemma State.Sound.compiled (hs : s.Sound setup known) (hknown : Unambiguous known)
    {cache : Plan.Cache} (hcache : s.cache = some cache) {i : Input} (hi : i ∈ known) {plan : Plan}
    (hget : cache.get? i.key = some plan) : i.compiled setup = .ok plan := by
  obtain ⟨j, hj, hkey, hplan⟩ := hs cache hcache _ _ hget
  rwa [← hknown j hj i hi hkey]

/-- A state is sound again once the plan of an input has been entered under its key. -/
lemma State.Sound.insert (hs : s.Sound setup known) {i : Input} (hi : i ∈ known) {plan : Plan}
    (hplan : i.compiled setup = .ok plan) :
    State.Sound setup known { s with cache := s.cache.map (·.insert i.key plan) } := by
  intro cache hcache key found hget
  obtain ⟨before, hbefore, rfl⟩ := Option.map_eq_some_iff.1 hcache
  rcases Plan.Cache.get?_insert_eq_some hget with ⟨rfl, rfl⟩ | hget
  · exact ⟨i, hi, rfl, hplan⟩
  · exact hs before hbefore key found hget

/-- A step gives a result, leaves some grants in force and keeps the cache sound. -/
def Gives {α : Type} (setup : Setup) (known : List Input) (s : State) (step : StateM State α)
    (result : α) (acl : Acl) : Prop :=
  ∃ s', step.run s = (result, s') ∧ s'.acl = acl ∧ s'.Sound setup known

variable {α β : Type} {acl : Acl}

lemma run_bind_of_run {step : StateM State α} {next : α → StateM State β} {s s' : State} {x : α}
    (h : step.run s = (x, s')) : (step >>= next).run s = (next x).run s' := by
  rw [StateT.run_bind, h]
  rfl

lemma Gives.bind {step : StateM State α} {next : α → StateM State β} {a : α} {b : β} {acl' : Acl}
    (h : Gives setup known s step a acl)
    (hnext : ∀ s' : State, s'.acl = acl → s'.Sound setup known → Gives setup known s' (next a) b acl') :
    Gives setup known s (step >>= next) b acl' := by
  obtain ⟨s', hrun, hacl, hs'⟩ := h
  obtain ⟨s'', hrun', h'⟩ := hnext s' hacl hs'
  exact ⟨s'', (run_bind_of_run hrun).trans hrun', h'⟩

lemma gives_get_bind {next : State → StateM State β} {b : β}
    (h : Gives setup known s (next s) b acl) : Gives setup known s (get >>= next) b acl := h

lemma gives_pure (hs : s.Sound setup known) (hacl : s.acl = acl) (a : α) :
    Gives setup known s (pure a) a acl := ⟨s, rfl, hacl, hs⟩

lemma gives_record (hs : s.Sound setup known) (hacl : s.acl = acl) (entries : List Journal.Entry) :
    Gives setup known s (record entries) () acl := ⟨_, rfl, hacl, hs⟩

lemma gives_count (hs : s.Sound setup known) (hacl : s.acl = acl) (bump : Metrics → Metrics) :
    Gives setup known s (count bump) () acl := ⟨_, rfl, hacl, hs⟩

/-- A request that is compiled anew enters nothing but its own plan. -/
lemma gives_compileAnew (hs : s.Sound setup known) (hacl : s.acl = acl) {r : Request}
    {scope : Resolved} (hi : r.within scope ∈ known) {key : Option String}
    (hkey : ∀ k, key = some k → k = (r.within scope).key) :
    Gives setup known s (compileAnew setup r scope key) ((r.within scope).compiled setup) acl := by
  have hcompiled : Plan.compile setup.catalog r.model scope (r.sort?.getD []) =
    (r.within scope).compiled setup := rfl
  unfold compileAnew
  rw [hcompiled]
  refine (gives_record hs hacl _).bind fun s hacl hs => ?_
  cases hplan : (r.within scope).compiled setup with
  | error e =>
    refine (gives_count hs hacl _).bind fun s hacl hs => ?_
    exact (gives_record hs hacl _).bind fun s hacl hs => gives_pure hs hacl _
  | ok plan =>
    refine (gives_count hs hacl _).bind fun s hacl hs => ?_
    cases key with
    | none => exact (gives_record hs hacl _).bind fun s hacl hs => gives_pure hs hacl _
    | some key =>
      cases hkey key rfl
      have hentered : Gives setup known s
          (modify fun s => { s with cache := s.cache.map (·.insert (r.within scope).key plan) }) ()
          acl := ⟨_, rfl, hacl, hs.insert hi hplan⟩
      refine hentered.bind fun s hacl hs => ?_
      exact (gives_record hs hacl _).bind fun s hacl hs => gives_pure hs hacl _

/-- A plan out of the cache is the one that the request would be compiled to. -/
lemma gives_compile (hs : s.Sound setup known) (hacl : s.acl = acl) (hknown : Unambiguous known)
    {r : Request} {scope : Resolved} (hi : r.within scope ∈ known) :
    Gives setup known s (compile setup r scope) ((r.within scope).compiled setup) acl := by
  refine gives_get_bind ?_
  cases hcache : s.cache with
  | none => exact gives_compileAnew hs hacl hi (by simp)
  | some cache =>
    have hkey : Plan.fingerprint r.model scope r.sort? = (r.within scope).key := rfl
    simp only [hkey]
    cases hget : cache.get? (r.within scope).key with
    | some plan =>
      rw [hs.compiled hknown hcache hi hget]
      refine (gives_count hs hacl _).bind fun s hacl hs => ?_
      exact (gives_record hs hacl _).bind fun s hacl hs => gives_pure hs hacl _
    | none =>
      refine (gives_count hs hacl _).bind fun s hacl hs => ?_
      exact gives_compileAnew hs hacl hi (by simp)

/-- The scope of a request is resolved anew every time. -/
lemma gives_prepare (hs : s.Sound setup known) (hknown : Unambiguous known) {r : Request}
    (hi : r.input setup s.acl ∈ known) :
    Gives setup known s (prepare setup r) ((r.input setup s.acl).compiled setup) s.acl := by
  have hscope : Gives setup known s (resolveScope setup r)
      (Scope.resolve setup.directory s.acl.canRead r.scope r.caller).scope s.acl :=
    ⟨_, rfl, rfl, hs⟩
  exact hscope.bind fun s' hacl hs' => gives_compile hs' hacl hknown hi

lemma gives_explain (hs : s.Sound setup known) (hknown : Unambiguous known) {r : Request}
    (hi : r.input setup s.acl ∈ known) :
    Gives setup known s (explain setup r) ((r.input setup s.acl).explained setup) s.acl := by
  refine (gives_prepare hs hknown hi).bind fun s' hacl hs' => ?_
  unfold Input.explained
  cases (r.input setup s.acl).compiled setup with
  | ok plan => exact gives_pure hs' hacl _
  | error e => exact gives_pure hs' hacl _

lemma gives_execute (hs : s.Sound setup known) (hknown : Unambiguous known) {r : Request}
    (hi : r.input setup s.acl ∈ known) :
    Gives setup known s (execute setup r) ((r.input setup s.acl).executed setup r.paging) s.acl := by
  refine (gives_prepare hs hknown hi).bind fun s' hacl hs' => ?_
  unfold Input.executed
  cases (r.input setup s.acl).compiled setup with
  | error e => exact gives_pure hs' hacl _
  | ok plan =>
    refine (gives_record hs' hacl _).bind fun s' hacl hs' => ?_
    dsimp only
    cases setup.backend plan r.paging with
    | error f =>
      refine (gives_count hs' hacl _).bind fun s' hacl hs' => ?_
      exact (gives_record hs' hacl _).bind fun s' hacl hs' => gives_pure hs' hacl _
    | ok found =>
      refine (gives_count hs' hacl _).bind fun s' hacl hs' => ?_
      exact (gives_record hs' hacl _).bind fun s' hacl hs' => gives_pure hs' hacl _

/-- Every command is answered as if its request had been compiled anew. -/
theorem gives_answer (hs : s.Sound setup known) (hknown : Unambiguous known) (c : Command)
    (hc : ∀ r, c.request? = some r → r.input setup s.acl ∈ known) :
    Gives setup known s (c.answer setup) (c.direct setup s.acl) (c.aclAfter s.acl) := by
  cases c with
  | prepare r =>
    exact (gives_prepare hs hknown (hc r rfl)).bind fun s' hacl hs' => gives_pure hs' hacl _
  | explain r =>
    exact (gives_explain hs hknown (hc r rfl)).bind fun s' hacl hs' => gives_pure hs' hacl _
  | execute r =>
    exact (gives_execute hs hknown (hc r rfl)).bind fun s' hacl hs' => gives_pure hs' hacl _
  | refresh grants => exact ⟨_, rfl, rfl, hs⟩

/-- And so is a whole sequence of them. -/
theorem gives_answers (hs : s.Sound setup known) (hknown : Unambiguous known)
    (commands : List Command) (hsub : inputs setup s.acl commands ⊆ known) :
    Gives setup known s (answers setup commands) (directAnswers setup s.acl commands)
      (commands.foldl Command.aclAfter s.acl) := by
  unfold answers
  induction commands generalizing s with
  | nil => exact gives_pure hs rfl _
  | cons c commands ih =>
    rw [List.mapM_cons]
    have hc : ∀ r, c.request? = some r → r.input setup s.acl ∈ known := by
      intro r hr
      exact hsub (by simp [inputs, hr])
    refine (gives_answer hs hknown c hc).bind fun s' hacl hs' => ?_
    have hrest : inputs setup s'.acl commands ⊆ known := by
      rw [hacl]
      exact fun i hi => hsub (List.mem_append_right _ hi)
    have hnext := ih hs' hrest
    rw [hacl] at hnext
    exact hnext.bind fun s'' hacl hs'' => gives_pure hs'' hacl _

lemma sound_withCache (s : State) (capacity : Nat) : (s.withCache capacity).Sound setup known := by
  intro cache hcache key plan hget
  simp only [State.withCache] at hcache
  split_ifs at hcache
  cases hcache
  cases hget

lemma inputs_append (acl : Acl) (before after : List Command) :
    inputs setup acl (before ++ after) =
      inputs setup acl before ++ inputs setup (before.foldl Command.aclAfter acl) after := by
  induction before generalizing acl with
  | nil => rfl
  | cons c before ih => simp [inputs, ih]

lemma directAnswers_append (acl : Acl) (before after : List Command) :
    directAnswers setup acl (before ++ after) =
      directAnswers setup acl before ++
        directAnswers setup (before.foldl Command.aclAfter acl) after := by
  induction before generalizing acl with
  | nil => rfl
  | cons c before ih => simp [directAnswers, ih]

lemma length_directAnswers (acl : Acl) (commands : List Command) :
    (directAnswers setup acl commands).length = commands.length := by
  induction commands generalizing acl with
  | nil => rfl
  | cons c commands ih => simp [directAnswers, ih]

end

/-- With a cache an engine answers as it does without one, which is under the grants that are in
force at each request: a refresh shows in the very next answer. A request that is rejected has no plan
in the cache. -/
theorem cache_transparent (setup : Setup) (s : State) (capacity : Nat) (commands : List Command)
    (unambiguous : Unambiguous (inputs setup s.acl commands)) :
    let cached := ((answers setup commands).run (s.withCache capacity)).1
    cached = ((answers setup commands).run (s.withCache 0)).1 ∧
    cached = directAnswers setup s.acl commands ∧
    (∀ before grants c after, commands = before ++ .refresh grants :: c :: after →
      ∃ epoch, cached[before.length + 1]? = some (c.direct setup ⟨epoch, grants⟩)) ∧
    ∀ before c after r, commands = before ++ c :: after → c.request? = some r →
      let s' := ((answers setup before).run (s.withCache capacity)).2
      ∀ rejection, (r.input setup s'.acl).compiled setup = .error rejection →
        ∀ cache, s'.cache = some cache → cache.get? (r.input setup s'.acl).key = none := by
  have hgives : ∀ capacity, Gives setup (inputs setup s.acl commands) (s.withCache capacity)
      (answers setup commands) (directAnswers setup s.acl commands)
      (commands.foldl Command.aclAfter s.acl) :=
    fun capacity => gives_answers (sound_withCache s capacity) unambiguous commands (List.Subset.refl _)
  obtain ⟨_, hcached, -⟩ := hgives capacity
  obtain ⟨_, huncached, -⟩ := hgives 0
  intro cached
  have hdirect : cached = directAnswers setup s.acl commands := congrArg Prod.fst hcached
  refine ⟨hdirect.trans (congrArg Prod.fst huncached).symm, hdirect, ?_, ?_⟩
  · rintro before grants c after rfl
    refine ⟨((before.foldl Command.aclAfter s.acl).refresh grants).epoch, ?_⟩
    rw [hdirect, directAnswers_append, List.getElem?_append_right (by simp [length_directAnswers]),
      length_directAnswers, Nat.add_sub_cancel_left]
    rfl
  · rintro before c after r rfl hr s' rejection hrejected cache hcache
    have hsub : inputs setup s.acl before ⊆ inputs setup s.acl (before ++ c :: after) := by
      rw [inputs_append]
      exact List.subset_append_left _ _
    obtain ⟨s'', hrun, hacl, hs''⟩ :=
      gives_answers (sound_withCache s capacity) unambiguous before hsub
    have hs' : s' = s'' := congrArg Prod.snd hrun
    have hi : r.input setup s'.acl ∈ inputs setup s.acl (before ++ c :: after) := by
      rw [inputs_append, hs', hacl]
      exact List.mem_append_right _ (by simp [inputs, hr, State.withCache])
    cases hget : cache.get? (r.input setup s'.acl).key with
    | none => rfl
    | some plan =>
      have hplan := State.Sound.compiled (hs' ▸ hs'') unambiguous hcache hi hget
      rw [hrejected] at hplan
      cases hplan

/-- The states of the first ticket of the help desk, asked for by somebody. -/
def Request.firstTicket : Request where
  model := {
    root := some "Ticket"
    involved := .add {} .axis "Ticket"
    projections := [⟨"TICKET_STATE", none⟩] }
  scope := some [⟨"Ticket", 1⟩]
  caller := ⟨"ann", false⟩

def Setup.helpDesk (catalog : Catalog) : Setup where
  catalog := catalog
  directory := ⟨[], fun r => r.entityType = "Ticket"⟩
  backend := ({ tables := Evaluation.helpDesk } : Storage.Store).run

/-- Keys are computed from characters, without going through text. -/
lemma Input.key_eq (i : Input) : i.key = String.ofList (Digest.base64Url (Digest.sha256
    ((Plan.compilationInput i.model i.scope i.sort?).compact.flatMap String.utf8EncodeChar))) := by
  have hbytes : ∀ text : List Char,
      (String.ofList text).toUTF8.toList = text.flatMap String.utf8EncodeChar := by
    intro text
    have hutf8 : (String.ofList text).toUTF8 =
      (text.flatMap String.utf8EncodeChar).toByteArray := rfl
    rw [hutf8, Digest.toList_eq_data, List.data_toByteArray]
  rw [Input.key, Plan.fingerprint, Plan.hashedBytes, Json.Value.text, hbytes]

lemma input_firstTicket (catalog : Catalog) (acl : Acl) :
    Request.firstTicket.input (Setup.helpDesk catalog) acl =
      ⟨Request.firstTicket.model,
        .restricted (if acl.canRead ⟨"ann", false⟩ ⟨"Ticket", 1⟩ then .add ∅ ⟨"Ticket", 1⟩ else ∅),
        none⟩ := by
  have hvisit : Scope.visit ⟨[], fun r => r.entityType = "Ticket"⟩ acl.canRead ⟨"ann", false⟩ []
      [⟨"Ticket", 1⟩] =
        [if acl.canRead ⟨"ann", false⟩ ⟨"Ticket", 1⟩ then .granted ⟨"Ticket", 1⟩
          else .denied ⟨"Ticket", 1⟩] := by
    simp [Scope.visit, Scope.visitAsking, Scope.Directory.lookup]
  have hscope : Request.firstTicket.input (Setup.helpDesk catalog) acl =
      ⟨Request.firstTicket.model, .restricted (Scope.grantedLeaves (Scope.visit
        ⟨[], fun r => r.entityType = "Ticket"⟩ acl.canRead ⟨"ann", false⟩ [] [⟨"Ticket", 1⟩])),
        none⟩ := rfl
  rw [hscope, hvisit]
  cases acl.canRead ⟨"ann", false⟩ ⟨"Ticket", 1⟩ <;> rfl

lemma executed_of_gives {setup : Setup} {store : Storage.Store} (hbackend : setup.backend = store.run)
    {i : Input} {columns : List String} {ts : List Evaluation.Tuple}
    (h : (i.compiled setup).toOption.any fun p =>
      Evaluation.Run.gives ⟨store.tables, store.specials, p⟩ ts && decide (p.columnNames = columns)) :
    i.executed setup none = .ok ⟨columns, ts⟩ := by
  obtain ⟨p, hp, h⟩ := Outcome.exists_of_any h
  obtain ⟨hgives, hcolumns⟩ := Bool.and_eq_true_iff.1 h
  have hrun : setup.backend p none = .ok ⟨columns, ts⟩ := by
    rw [← of_decide_eq_true hcolumns, hbackend]
    simp only [Storage.Store.run, Evaluation.evaluate_of_gives hgives]
    rfl
  simp only [Input.executed, hp, hrun]
  rfl

lemma executed_helpDesk {catalog : Catalog} {i : Input} {ts : List Evaluation.Tuple}
    (h : (i.compiled (Setup.helpDesk catalog)).toOption.any fun p =>
      Evaluation.Run.gives ⟨Evaluation.helpDesk, .builtin, p⟩ ts &&
        decide (p.columnNames = ["TICKET_STATE"])) :
    i.executed (Setup.helpDesk catalog) none = .ok ⟨["TICKET_STATE"], ts⟩ := by
  have hbackend : (Setup.helpDesk catalog).backend =
    ({ tables := Evaluation.helpDesk } : Storage.Store).run := rfl
  exact executed_of_gives hbackend h

/-- The ticket is asked for before and after its reader has been granted it, and once more. -/
theorem cache_transparent_helpDesk :
    ∃ catalog, Catalog.build Catalog.helpDesk = .ok catalog ∧
      let setup := Setup.helpDesk catalog
      let commands := [.execute .firstTicket, .refresh (.grant {} "ann" ⟨"Ticket", 1⟩),
        .execute .firstTicket, .execute .firstTicket]
      Unambiguous (inputs setup {} commands) ∧
      ((answers setup commands).run (State.withCache {} 8)).1 =
        [.executed (.ok ⟨["TICKET_STATE"], []⟩), .refreshed 1,
          .executed (.ok ⟨["TICKET_STATE"], [[.string "open"]]⟩),
          .executed (.ok ⟨["TICKET_STATE"], [[.string "open"]]⟩)] := by
  let denied : Input := ⟨Request.firstTicket.model, .restricted ∅, none⟩
  let granted : Input :=
    ⟨Request.firstTicket.model, .restricted (.add ∅ ⟨"Ticket", 1⟩), none⟩
  obtain ⟨catalog, hbuild, h⟩ : ∃ catalog, Catalog.build Catalog.helpDesk = .ok catalog ∧
      ((denied.compiled (Setup.helpDesk catalog)).toOption.any fun p =>
        Evaluation.Run.gives ⟨Evaluation.helpDesk, .builtin, p⟩ [] &&
          decide (p.columnNames = ["TICKET_STATE"])) &&
      ((granted.compiled (Setup.helpDesk catalog)).toOption.any fun p =>
        Evaluation.Run.gives ⟨Evaluation.helpDesk, .builtin, p⟩ [[.string "open"]] &&
          decide (p.columnNames = ["TICKET_STATE"])) :=
    Outcome.exists_of_any (by decide +kernel)
  obtain ⟨hdenied, hgranted⟩ := Bool.and_eq_true_iff.1 h
  have hbefore : Request.firstTicket.input (Setup.helpDesk catalog) {} = denied :=
    (input_firstTicket catalog {}).trans (by decide +kernel)
  have hafter : Request.firstTicket.input (Setup.helpDesk catalog)
      (Acl.refresh {} (.grant {} "ann" ⟨"Ticket", 1⟩)) = granted :=
    (input_firstTicket catalog _).trans (by decide +kernel)
  have hkeys : denied.key ≠ granted.key := by
    rw [Input.key_eq, Input.key_eq]
    decide +kernel
  let commands : List Command := [.execute .firstTicket, .refresh (.grant {} "ann" ⟨"Ticket", 1⟩),
    .execute .firstTicket, .execute .firstTicket]
  have hinputs : inputs (Setup.helpDesk catalog) {} commands = [denied, granted, granted] := by
    simp only [commands, inputs, Command.request?, Command.aclAfter, Option.map_some, hbefore,
      hafter, Option.map_none]
    rfl
  have hunambiguous : Unambiguous (inputs (Setup.helpDesk catalog) {} commands) := by
    rw [hinputs]
    exact unambiguous_of_two hkeys (by simp)
  obtain ⟨-, hanswers, -⟩ :=
    cache_transparent (Setup.helpDesk catalog) {} 8 commands hunambiguous
  refine ⟨catalog, hbuild, hunambiguous, hanswers.trans ?_⟩
  simp only [commands, directAnswers, Command.direct, Command.aclAfter, hbefore, hafter]
  rw [show Request.firstTicket.paging = none from rfl, executed_helpDesk hdenied,
    executed_helpDesk hgranted]
  rfl

end Tabulation.Engine
