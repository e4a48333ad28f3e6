import Mathlib.Algebra.GroupWithZero.Nat
import Tabulation.Proofs.Engine.Transparency
import Tabulation.Proofs.Journal.Lines

/-! The counters of an engine account for what it was asked. Whatever the calls and their order, each
request that needs a plan is a hit or a miss, each miss is a plan or a rejection, each plan that was
to be run has been run or has failed, and the journal has one line for each event that is counted. -/
namespace Tabulation.Engine
open Journal (Entry Event lineCount)
open Plan (Rejection)
open Scope (Acl Identity Resolution Resolved Visit)
open Evaluation (ResultSet)

/-! ### Calls and replies -/

/-- A call of an engine: a command, or a scope to be resolved on its own. -/
inductive Call where
  | command (c : Command)
  | resolveScope (r : Request)

inductive Reply where
  | answered (a : Answer)
  | resolved (scope : Resolved)

namespace Call

def reply (setup : Setup) : Call → StateM State Reply
  | .command c => return .answered (← c.answer setup)
  | .resolveScope r => return .resolved (← Engine.resolveScope setup r)

/-- Whether the call asks for a plan: to have it, to see it explained or to run it. -/
def needsPlan : Call → Bool
  | .command c => c.request?.isSome
  | .resolveScope _ => false

end Call

/-- Whether there was a plan to be run. -/
def hadPlan : Except Failure ResultSet → Bool
  | .error (.rejected _) => false
  | _ => true

/-- How many tuples are returned. -/
def tupleCount : Except Failure ResultSet → Nat
  | .ok result => result.tuples.length
  | .error _ => 0

/-- What a call to run a query ended in; a call of another kind has no such outcome. -/
def Reply.outcome? : Reply → Option (Except Failure ResultSet)
  | .answered (.executed outcome) => some outcome
  | _ => none

def replies (setup : Setup) (calls : List Call) : StateM State (List Reply) :=
  calls.mapM (Call.reply setup)

/-! ### What a stretch of a run adds -/

/-- What a stretch of a run counts, in numbers that do not wrap around, and what it records. -/
structure Activity where
  prepared : Nat := 0
  rejected : Nat := 0
  executed : Nat := 0
  failed : Nat := 0
  tuples : Nat := 0
  dropped : Nat := 0
  denied : Nat := 0
  hits : Nat := 0
  misses : Nat := 0
  entries : List Entry := []

namespace Activity

/-- One stretch after another. -/
instance : Add Activity where
  add a b := {
    prepared := a.prepared + b.prepared
    rejected := a.rejected + b.rejected
    executed := a.executed + b.executed
    failed := a.failed + b.failed
    tuples := a.tuples + b.tuples
    dropped := a.dropped + b.dropped
    denied := a.denied + b.denied
    hits := a.hits + b.hits
    misses := a.misses + b.misses
    entries := a.entries ++ b.entries }

lemma add_def (a b : Activity) : a + b =
    ⟨a.prepared + b.prepared, a.rejected + b.rejected, a.executed + b.executed,
      a.failed + b.failed, a.tuples + b.tuples, a.dropped + b.dropped, a.denied + b.denied,
      a.hits + b.hits, a.misses + b.misses, a.entries ++ b.entries⟩ := rfl

/-- The counters afterwards. -/
def countedOn (a : Activity) (m : Metrics) : Metrics where
  queriesPrepared := m.queriesPrepared + .ofNat a.prepared
  queriesRejected := m.queriesRejected + .ofNat a.rejected
  queriesExecuted := m.queriesExecuted + .ofNat a.executed
  queriesFailed := m.queriesFailed + .ofNat a.failed
  tuplesReturned := m.tuplesReturned + .ofNat a.tuples
  scopeReferencesDropped := m.scopeReferencesDropped + .ofNat a.dropped
  scopeReadDenials := m.scopeReadDenials + .ofNat a.denied
  planCacheHits := m.planCacheHits + .ofNat a.hits
  planCacheMisses := m.planCacheMisses + .ofNat a.misses

lemma countedOn_add (a b : Activity) (m : Metrics) :
    (a + b).countedOn m = b.countedOn (a.countedOn m) := by
  simp [countedOn, add_def, UInt64.ofNat_add, UInt64.add_assoc]

lemma countedOn_entries (entries : List Entry) (m : Metrics) :
    ({ entries } : Activity).countedOn m = m := by simp [countedOn]

lemma nothing_add (a : Activity) : {} + a = a := by simp [add_def]

lemma add_nothing (a : Activity) : a + {} = a := by simp [add_def]

/-- What is recorded is what is counted of the events that have a counter. -/
structure Journaled (a : Activity) : Prop where
  rejected : lineCount .queryRejected a.entries = a.rejected
  failed : lineCount .queryFailed a.entries = a.failed
  dropped : lineCount .scopeReferenceDropped a.entries = a.dropped
  denied : lineCount .scopeReadDenied a.entries = a.denied
  hits : lineCount .planCacheHit a.entries = a.hits

/-- The counts of a stretch in which so many plans were needed and so many were there to be run, and
so many tuples have been returned. Only with a cache there are hits and misses. -/
structure Balances (cached : Bool) (needed runs tuples : Nat) (a : Activity) : Prop where
  lookups : a.hits + a.misses = if cached then needed else 0
  compiled : a.prepared + a.rejected = if cached then a.misses else needed
  runs : a.executed + a.failed = runs
  tuples : a.tuples = tuples
  journaled : a.Journaled

variable {a b : Activity} {cached : Bool} {needed needed' runs runs' tuples tuples' : Nat}

lemma Journaled.add (ha : a.Journaled) (hb : b.Journaled) : (a + b).Journaled := by
  obtain ⟨ha₁, ha₂, ha₃, ha₄, ha₅⟩ := ha
  obtain ⟨hb₁, hb₂, hb₃, hb₄, hb₅⟩ := hb
  constructor <;> simp [add_def, *]

lemma Balances.add (ha : a.Balances cached needed runs tuples)
    (hb : b.Balances cached needed' runs' tuples') :
    (a + b).Balances cached (needed + needed') (runs + runs') (tuples + tuples') := by
  obtain ⟨ha₁, ha₂, ha₃, ha₄, ha⟩ := ha
  obtain ⟨hb₁, hb₂, hb₃, hb₄, hb⟩ := hb
  refine ⟨?_, ?_, ?_, ?_, ha.add hb⟩ <;> simp only [add_def] <;> cases cached <;> grind

/-- No plan is needed where nothing is looked up and nothing is compiled. -/
lemma Balances.of_unplanned (hlookups : a.hits + a.misses = 0)
    (hcompiled : a.prepared + a.rejected = 0) (hruns : a.executed + a.failed = runs)
    (htuples : a.tuples = tuples) (h : a.Journaled) : a.Balances cached 0 runs tuples := by
  refine ⟨by rw [hlookups, ite_self], ?_, hruns, htuples, h⟩
  rw [hcompiled, (Nat.add_eq_zero_iff.1 hlookups).2, ite_self]

lemma Balances.nothing : ({} : Activity).Balances cached 0 0 0 :=
  .of_unplanned rfl rfl rfl rfl (by constructor <;> rfl)

/-- With a cache, what is compiled anew has been missed before. -/
lemma Balances.missed (h : a.Balances false needed runs tuples) :
    ({ misses := needed } + a).Balances true needed runs tuples := by
  obtain ⟨h₁, h₂, h₃, h₄, h⟩ := h
  have hmissed : ({ misses := needed } : Activity).Journaled := by constructor <;> rfl
  refine ⟨?_, ?_, ?_, ?_, hmissed.add h⟩ <;> simp only [add_def] <;> grind

end Activity

/-- A stretch of a run leads from one state to another. -/
structure State.Leads (s : State) (a : Activity) (s' : State) : Prop where
  metrics : s'.metrics = a.countedOn s.metrics
  journal : s'.journal = s.journal ++ a.entries
  cached : s'.cache.isSome = s.cache.isSome

lemma State.Leads.trans {s s' s'' : State} {a b : Activity} (h : s.Leads a s')
    (h' : s'.Leads b s'') : s.Leads (a + b) s'' where
  metrics := by rw [h'.metrics, h.metrics, Activity.countedOn_add]
  journal := by
    rw [h'.journal, h.journal, List.append_assoc]
    rfl
  cached := h'.cached.trans h.cached

/-- Wherever it is taken from, with a cache or without, a step gives a result and adds an activity
that go together. -/
def Accounts {α : Type} (cached : Bool) (step : StateM State α) (P : α → Activity → Prop) : Prop :=
  ∀ s : State, s.cache.isSome = cached →
    ∃ a, s.Leads a (step.run s).2 ∧ P (step.run s).1 a

section Steps

variable {α β : Type} {cached : Bool} {setup : Setup} {r : Request}

lemma Accounts.bind {step : StateM State α} {next : α → StateM State β} {P : α → Activity → Prop}
    {Q : β → Activity → Prop} (h : Accounts cached step P)
    (hnext : ∀ x a, P x a → Accounts cached (next x) fun y b => Q y (a + b)) :
    Accounts cached (step >>= next) Q := by
  intro s hs
  obtain ⟨a, hled, hP⟩ := h s hs
  obtain ⟨b, hled', hQ⟩ := hnext _ a hP (step.run s).2 (hled.cached.trans hs)
  exact ⟨a + b, hled.trans hled', hQ⟩

/-- A step that adds an activity known beforehand, and what comes after it. -/
lemma Accounts.andThen {step : StateM State Unit} {next : Unit → StateM State β} {a : Activity}
    {Q : β → Activity → Prop} (h : Accounts cached step fun _ b => b = a)
    (hnext : Accounts cached (next ()) fun y b => Q y (a + b)) :
    Accounts cached (step >>= next) Q := by
  refine h.bind ?_
  rintro - _ rfl
  exact hnext

lemma Accounts.mono {step : StateM State α} {P Q : α → Activity → Prop} (h : Accounts cached step P)
    (hPQ : ∀ x a, P x a → Q x a) : Accounts cached step Q := by
  intro s hs
  obtain ⟨a, hled, hP⟩ := h s hs
  exact ⟨a, hled, hPQ _ a hP⟩

lemma accounts_get_bind {next : State → StateM State β} {Q : β → Activity → Prop}
    (h : ∀ s : State, s.cache.isSome = cached → Accounts cached (next s) Q) :
    Accounts cached (get >>= next) Q := fun s hs => h s hs s hs

lemma accounts_pure {x : α} {P : α → Activity → Prop} (h : P x {}) :
    Accounts cached (pure x) P :=
  fun s _ => ⟨{}, ⟨(Activity.countedOn_entries [] s.metrics).symm, (List.append_nil _).symm, rfl⟩, h⟩

lemma Accounts.map {step : StateM State α} {f : α → β} {Q : β → Activity → Prop}
    (h : Accounts cached step fun x a => Q (f x) a) :
    Accounts cached (do return f (← step)) Q :=
  h.bind fun x a ha => accounts_pure (by rwa [Activity.add_nothing])

lemma accounts_modify {f : State → State} {a : Activity} (h : ∀ s : State, s.Leads a (f s)) :
    Accounts cached (modify f) fun _ b => b = a :=
  fun s _ => ⟨a, h s, rfl⟩

lemma accounts_record (entries : List Entry) :
    Accounts cached (record entries) fun _ a => a = { entries } :=
  accounts_modify fun s => ⟨(Activity.countedOn_entries entries s.metrics).symm, rfl, rfl⟩

/-- Counting leaves the journal alone. -/
lemma accounts_count {bump : Metrics → Metrics} {a : Activity} (hentries : a.entries = [])
    (h : ∀ m, bump m = a.countedOn m) : Accounts cached (count bump) fun _ b => b = a :=
  accounts_modify fun s => ⟨h s.metrics, by rw [hentries, List.append_nil], rfl⟩

/-- Either there is a plan, and it counts as prepared, or the rejection is counted and recorded. -/
lemma accounts_compileAnew (scope : Resolved) (key : Option String) :
    Accounts cached (compileAnew setup r scope key) fun _ a => a.Balances false 1 0 0 := by
  unfold compileAnew
  refine (accounts_record _).andThen ?_
  cases Plan.compile setup.catalog r.model scope (r.sort?.getD []) with
  | error e =>
    refine (accounts_count (a := { rejected := 1 }) rfl fun m => ?_).andThen ?_
    · simp [Activity.countedOn, Metrics.rejected]
    refine (accounts_record _).andThen (accounts_pure ⟨rfl, rfl, rfl, rfl, ?_⟩)
    constructor <;> simp [Activity.add_def, rejectionEntries]
  | ok plan =>
    refine (accounts_count (a := { prepared := 1 }) rfl fun m => ?_).andThen ?_
    · simp [Activity.countedOn, Metrics.prepared]
    -- what comes after the plan has been entered, and all there is if it is not entered
    have hdone : Accounts cached
        (record [prepareSpan.completed [("root", .text plan.root)]] >>= fun _ =>
          (pure (.ok plan) : StateM State (Except Rejection Plan)))
        fun _ a => ({ entries := [prepareSpan.opened] } + ({ prepared := 1 } + a) : Activity).Balances
          false 1 0 0 := by
      refine (accounts_record _).andThen (accounts_pure ⟨rfl, rfl, rfl, rfl, ?_⟩)
      constructor <;> simp [Activity.add_def]
    cases key with
    | none => exact hdone
    | some key =>
      have hentered : Accounts cached
          (modify fun s => { s with cache := s.cache.map (·.insert key plan) }) fun _ a => a = {} :=
        accounts_modify fun s => ⟨(Activity.countedOn_entries [] s.metrics).symm,
          (List.append_nil _).symm, Option.isSome_map⟩
      exact hentered.andThen (by simpa only [Activity.nothing_add] using hdone)

lemma lineCount_visits (event : Event) (caller : Identity) (visits : List Visit) :
    lineCount event (visits.flatMap (visitEntries caller)) =
      (if .scopeReferenceDropped = event then visits.countP Visit.isDropped else 0) +
        if .scopeReadDenied = event then visits.countP Visit.isDenied else 0 := by
  induction visits with
  | nil => simp
  | cons v visits ih =>
    rw [List.flatMap_cons, Journal.lineCount_append, ih]
    cases v <;> simp [visitEntries, List.countP_cons, Visit.isDropped, Visit.isDenied] <;> grind

/-- A scope without restriction has no entries, and nothing has been visited either. -/
lemma lineCount_scopeEntries {event : Event} (h : .scopeResolved ≠ event) (d : Scope.Directory)
    (oracle : Scope.Oracle) (scope : Option (List Scope.Reference)) (caller : Identity) :
    lineCount event (scopeEntries caller (Scope.resolve d oracle scope caller)) =
      (if .scopeReferenceDropped = event then
        (Scope.resolve d oracle scope caller).droppedCount else 0) +
      if .scopeReadDenied = event then
        (Scope.resolve d oracle scope caller).deniedCount else 0 := by
  unfold Scope.resolve Scope.resolveAsking
  split <;>
    simp [scopeEntries, Resolution.droppedCount, Resolution.deniedCount, lineCount_visits, h]

/-- Each reference that is dropped and each leaf that is denied is counted and recorded. -/
lemma accounts_resolveScope :
    Accounts cached (resolveScope setup r) fun _ a => a.Balances cached 0 0 0 := by
  refine accounts_get_bind fun s _ => ?_
  let resolution := Scope.resolve setup.directory s.acl.canRead r.scope r.caller
  refine (accounts_count
    (a := { dropped := resolution.droppedCount, denied := resolution.deniedCount }) rfl
    fun m => ?_).andThen ?_
  · simp [Activity.countedOn, Metrics.dropped, Metrics.denied, resolution]
  refine (accounts_record _).andThen (accounts_pure (.of_unplanned rfl rfl rfl rfl ?_))
  constructor <;> simp [Activity.add_def, lineCount_scopeEntries, resolution]

/-- A hit is counted and recorded. Everything else is compiled anew, with a cache after a miss. -/
lemma accounts_compile (scope : Resolved) :
    Accounts cached (compile setup r scope) fun _ a => a.Balances cached 1 0 0 := by
  refine accounts_get_bind fun s hs => ?_
  cases hcache : s.cache with
  | none =>
    rw [hcache] at hs
    cases hs
    exact accounts_compileAnew scope none
  | some cache =>
    rw [hcache] at hs
    cases hs
    cases hplan : cache.get? (Plan.fingerprint r.model scope r.sort?) with
    | some plan =>
      simp only [hplan]
      refine (accounts_count (a := { hits := 1 }) rfl fun m => ?_).andThen ?_
      · simp [Activity.countedOn, Metrics.hit]
      refine (accounts_record _).andThen (accounts_pure ⟨rfl, rfl, rfl, rfl, ?_⟩)
      constructor <;> simp [Activity.add_def, hitEntry]
    | none =>
      simp only [hplan]
      refine (accounts_count (a := { misses := 1 }) rfl fun m => ?_).andThen ?_
      · simp [Activity.countedOn, Metrics.missed]
      exact (accounts_compileAnew scope _).mono fun _ _ => Activity.Balances.missed

/-- Other grants are recorded, but they are not counted. -/
lemma accounts_refreshAcl {grants : Scope.Grants} :
    Accounts cached (refreshAcl grants) fun _ a => a.Balances cached 0 0 0 := by
  have hrefresh : Accounts cached
      (modify fun s => { s with acl := s.acl.refresh grants }) fun _ a => a = {} :=
    accounts_modify fun s => ⟨(Activity.countedOn_entries [] s.metrics).symm,
      (List.append_nil _).symm, rfl⟩
  refine hrefresh.andThen (accounts_get_bind fun s _ => ?_)
  refine (accounts_record _).andThen (accounts_pure (.of_unplanned rfl rfl rfl rfl ?_))
  constructor <;> simp [Activity.add_def, aclEntry]

lemma accounts_prepare :
    Accounts cached (prepare setup r) fun _ a => a.Balances cached 1 0 0 :=
  accounts_resolveScope.bind fun scope _ ha =>
    (accounts_compile scope).mono fun _ _ hb => ha.add hb

lemma accounts_explain :
    Accounts cached (explain setup r) fun _ a => a.Balances cached 1 0 0 := by
  refine accounts_prepare.bind fun compiled a ha => ?_
  cases compiled <;> exact accounts_pure (ha.add .nothing)

/-- A plan that is there has been run or has failed. What is counted of the page is its capped size. -/
lemma accounts_execute : Accounts cached (execute setup r) fun outcome a =>
    a.Balances cached 1 (if hadPlan outcome then 1 else 0) (tupleCount outcome) := by
  refine accounts_prepare.bind fun compiled a ha => ?_
  cases compiled with
  | error e => exact accounts_pure (ha.add .nothing)
  | ok plan =>
    -- the plan is accounted for by now, and what is left needs no other
    suffices hrun : Accounts cached _ fun outcome b => b.Balances cached 0
        (if hadPlan outcome then 1 else 0) (tupleCount outcome) by
      exact hrun.mono fun outcome b hb => by simpa using ha.add hb
    refine (accounts_record _).andThen ?_
    cases setup.backend plan r.paging with
    | error f =>
      refine (accounts_count (a := { failed := 1 }) rfl fun m => ?_).andThen ?_
      · simp [Activity.countedOn, Metrics.failed]
      refine (accounts_record _).andThen (accounts_pure (.of_unplanned rfl rfl rfl rfl ?_))
      constructor <;> simp [Activity.add_def, faultEntries]
    | ok found =>
      let result := capPage setup r.paging found
      refine (accounts_count (a := { executed := 1, tuples := result.tuples.length }) rfl
        fun m => ?_).andThen ?_
      · simp [Activity.countedOn, Metrics.executed, Metrics.returned, result]
      refine (accounts_record _).andThen (accounts_pure (.of_unplanned rfl rfl rfl ?_ ?_))
      · simp [Activity.add_def, tupleCount, result]
      · constructor <;> simp [Activity.add_def]

end Steps

/-! ### Whole runs -/

/-- What the calls to run a query ended in. -/
def outcomes (rs : List Reply) : List (Except Failure ResultSet) := rs.filterMap Reply.outcome?

lemma accounts_reply {cached : Bool} (setup : Setup) (c : Call) :
    Accounts cached (c.reply setup) fun reply a =>
      a.Balances cached (if c.needsPlan then 1 else 0) ((outcomes [reply]).countP hadPlan)
        ((outcomes [reply]).map tupleCount).sum := by
  cases c with
  | resolveScope r => exact accounts_resolveScope.map
  | command c =>
    refine Accounts.map ?_
    cases c with
    | prepare r => exact accounts_prepare.map
    | explain r => exact accounts_explain.map
    | execute r =>
      refine Accounts.map (accounts_execute.mono fun outcome a ha => ?_)
      have houtcome : outcomes [.answered (.executed outcome)] = [outcome] := rfl
      rw [houtcome, List.countP_singleton, List.map_singleton, List.sum_singleton]
      exact ha
    | refresh grants => exact accounts_refreshAcl.map

/-- By induction on the calls: what each of them adds is in balance, and so is what all of them add. -/
lemma accounts_replies {cached : Bool} (setup : Setup) (calls : List Call) :
    Accounts cached (replies setup calls) fun rs a =>
      a.Balances cached (calls.countP Call.needsPlan) ((outcomes rs).countP hadPlan)
        ((outcomes rs).map tupleCount).sum := by
  unfold replies
  induction calls with
  | nil => exact accounts_pure .nothing
  | cons c calls ih =>
    rw [List.mapM_cons]
    refine (accounts_reply setup c).bind fun reply a ha => ih.bind fun rs b hb => accounts_pure ?_
    have hrs : outcomes (reply :: rs) = outcomes [reply] ++ outcomes rs :=
      List.filterMap_append (l := [reply])
    rw [hrs, List.countP_append, List.map_append, List.sum_append, List.countP_cons,
      Nat.add_comm (calls.countP _)]
    exact ha.add (hb.add .nothing)

/-- There was a plan to be run exactly if the request has been compiled or its plan was in the
cache. -/
lemma hadPlan_execute (setup : Setup) (r : Request) (s : State) :
    hadPlan ((execute setup r).run s).1 ↔ ∃ plan, ((prepare setup r).run s).1 = .ok plan := by
  obtain ⟨compiled, s', hprepare⟩ : ∃ compiled s', (prepare setup r).run s = (compiled, s') :=
    ⟨_, _, rfl⟩
  unfold execute
  rw [run_bind_of_run hprepare, hprepare]
  cases compiled with
  | error e => exact ⟨nofun, nofun⟩
  | ok plan =>
    refine ⟨fun _ => ⟨plan, rfl⟩, fun _ => ?_⟩
    dsimp only
    cases setup.backend plan r.paging <;> rfl

/-- The counters of an engine account for every call since it was started. -/
theorem metrics_account_for_calls (setup : Setup) (acl : Acl) (capacity : Nat) (calls : List Call) :
    let run := (replies setup calls).run (State.withCache { acl } capacity)
    let metrics := run.2.metrics
    let needed := calls.countP Call.needsPlan
    let lines := fun event => Journal.lineCount event run.2.journal
    (if capacity = 0 then
        metrics.planCacheHits = 0 ∧ metrics.planCacheMisses = 0 ∧
          metrics.queriesPrepared + metrics.queriesRejected = .ofNat needed
      else
        metrics.planCacheHits + metrics.planCacheMisses = .ofNat needed ∧
          metrics.planCacheMisses = metrics.queriesPrepared + metrics.queriesRejected) ∧
      metrics.queriesExecuted + metrics.queriesFailed =
        .ofNat ((outcomes run.1).countP hadPlan) ∧
      (∀ r s, hadPlan ((execute setup r).run s).1 ↔
        ∃ plan, ((prepare setup r).run s).1 = .ok plan) ∧
      metrics.tuplesReturned = .ofNat ((outcomes run.1).map tupleCount).sum ∧
      .ofNat (lines .planCacheHit) = metrics.planCacheHits ∧
      .ofNat (lines .queryRejected) = metrics.queriesRejected ∧
      .ofNat (lines .queryFailed) = metrics.queriesFailed ∧
      .ofNat (lines .scopeReferenceDropped) = metrics.scopeReferencesDropped ∧
      .ofNat (lines .scopeReadDenied) = metrics.scopeReadDenials := by
  intro run metrics needed lines
  have hcached : (State.withCache { acl } capacity).cache.isSome = decide (0 < capacity) := by
    unfold State.withCache
    split <;> simp_all
  obtain ⟨a, hled, hlookups, hcompiled, hruns, htuples, hjournaled⟩ :=
    accounts_replies setup calls _ hcached
  have hmetrics : metrics = a.countedOn {} := hled.metrics
  have hlines : ∀ event, lines event = Journal.lineCount event a.entries := fun event =>
    congrArg (Journal.lineCount event) hled.journal
  have hsum : ∀ m n : Nat, UInt64.ofNat m + .ofNat n = .ofNat (m + n) := fun m n =>
    (UInt64.ofNat_add m n).symm
  simp only [hmetrics, hlines, hjournaled.hits, hjournaled.rejected, hjournaled.failed,
    hjournaled.dropped, hjournaled.denied, Activity.countedOn, UInt64.zero_add, hsum,
    and_true]
  refine ⟨?_, congrArg _ hruns, hadPlan_execute setup, congrArg _ htuples⟩
  rcases Nat.eq_zero_or_pos capacity with hcapacity | hcapacity
  · rw [if_neg (by simp [hcapacity])] at hlookups hcompiled
    obtain ⟨hhits, hmisses⟩ := Nat.add_eq_zero_iff.1 hlookups
    rw [if_pos hcapacity, hhits, hmisses, hcompiled]
    exact ⟨rfl, rfl, rfl⟩
  · rw [if_pos (decide_eq_true hcapacity)] at hlookups hcompiled
    rw [if_neg (Nat.ne_of_gt hcapacity), hlookups, hcompiled]
    exact ⟨rfl, rfl⟩

end Tabulation.Engine
