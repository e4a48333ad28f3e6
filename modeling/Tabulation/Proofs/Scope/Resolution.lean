import Mathlib.Data.Set.Card
import Tabulation.Engine.Session
import Tabulation.Proofs.Ordered
import Tabulation.Proofs.Scope.Reachability

/-! What a scope is resolved to: the leaves that its references lead to and that the caller may read,
in whatever order and however often the references are listed. -/
namespace Tabulation.Scope

/-- The identifier of a reference is listed under its type. -/
def IdsByType.Lists (m : IdsByType) (r : Reference) : Prop :=
  ∃ ids, m.get? r.entityType = some ids ∧ r.id ∈ ids.toList

/-- No type is listed without any identifier. -/
def IdsByType.Proper (m : IdsByType) : Prop := ∀ entity ids, m.get? entity = some ids → ids.toList ≠ []

/-- The questions that were asked, with their answers. -/
def Resolution.questions (r : Resolution) : List (Reference × Bool) :=
  r.visits.filterMap Visit.question?

section

variable {m n : IdsByType} {r q : Reference}

lemma lists_add : (m.add r).Lists q ↔ q = r ∨ m.Lists q := by
  unfold IdsByType.Lists IdsByType.add
  rw [OrderedMap.get?_alter]
  split_ifs with he
  · have hid : q = r ↔ q.id = r.id :=
      ⟨congrArg Reference.id, fun h => by cases q; cases r; simp_all⟩
    simp only [Option.some.injEq, exists_eq_left', OrderedSet.mem_insert, he, hid]
    cases m.get? r.entityType with
    | none => simp [EmptyCollection.emptyCollection, OrderedSet.empty]
    | some ids => simp
  · have hne : q ≠ r := fun e => he (congrArg Reference.entityType e)
    simp [hne]

lemma proper_add (h : m.Proper) : (m.add r).Proper := by
  intro entity ids hids
  unfold IdsByType.add at hids
  rw [OrderedMap.get?_alter] at hids
  split_ifs at hids
  · cases hids
    exact List.ne_nil_of_mem (OrderedSet.mem_insert.2 (.inl rfl))
  · exact h entity ids hids

/-- Maps without empty entries are known by what they list. -/
theorem ext_of_lists (hm : m.Proper) (hn : n.Proper) (h : ∀ r, m.Lists r ↔ n.Lists r) : m = n := by
  have hlisted : ∀ {m : IdsByType} {entity : EntityType} {ids : OrderedSet EntityId},
      m.get? entity = some ids → ∀ id, m.Lists ⟨entity, id⟩ ↔ id ∈ ids.toList := by
    intro m entity ids hids id
    simp [IdsByType.Lists, hids]
  have hdefined : ∀ {m n : IdsByType}, m.Proper → (∀ r, m.Lists r → n.Lists r) →
      ∀ {entity ids}, m.get? entity = some ids → ∃ ids', n.get? entity = some ids' := by
    intro m n hm h entity ids hids
    obtain ⟨id, hid⟩ := List.exists_mem_of_ne_nil _ (hm entity ids hids)
    obtain ⟨ids', hids', -⟩ := h _ ((hlisted hids id).2 hid)
    exact ⟨ids', hids'⟩
  apply OrderedMap.ext_of_get?
  intro entity
  cases hids : m.get? entity with
  | some ids =>
    obtain ⟨ids', hids'⟩ := hdefined hm (fun r => (h r).1) hids
    rw [hids']
    refine congrArg some (OrderedSet.ext_of_mem fun id => ?_)
    rw [← hlisted hids, ← hlisted hids', h]
  | none =>
    cases hids' : n.get? entity with
    | none => rfl
    | some ids' =>
      obtain ⟨ids, hids''⟩ := hdefined hn (fun r => (h r).2) hids'
      rw [hids] at hids''
      cases hids''

/-- What is entered of visits are the leaves that were granted. -/
theorem lists_grantedLeaves (visits : List Visit) :
    (∀ r, (grantedLeaves visits).Lists r ↔ .granted r ∈ visits) ∧ (grantedLeaves visits).Proper := by
  unfold grantedLeaves
  induction visits using List.reverseRecOn with
  | nil =>
    constructor
    · intro r
      simp [IdsByType.Lists, EmptyCollection.emptyCollection, OrderedMap.empty, OrderedMap.get?]
    · intro entity ids h
      simp [EmptyCollection.emptyCollection, OrderedMap.empty, OrderedMap.get?] at h
  | append_singleton visits v ih =>
    obtain ⟨hlists, hproper⟩ := ih
    rw [List.foldl_append, List.foldl_cons, List.foldl_nil]
    cases v with
    | granted leaf =>
      refine ⟨fun r => ?_, proper_add hproper⟩
      rw [lists_add, hlists]
      simp [or_comm]
    | dropped q => exact ⟨fun r => by simp [hlists], hproper⟩
    | denied leaf => exact ⟨fun r => by simp [hlists], hproper⟩

end

/-- Where the images of a list are distinct, as many of them have a property as its elements. -/
lemma encard_image {α β : Type} [DecidableEq β] {f : α → β} {l : List α} (h : (l.map f).Nodup)
    (p : α → Bool) : {b | ∃ a ∈ l, p a ∧ f a = b}.encard = l.countP p := by
  have hset : {b | ∃ a ∈ l, p a ∧ f a = b} = (((l.filter p).map f).toFinset : Set β) := by
    ext b
    simp [and_assoc]
  have hnodup : ((l.filter p).map f).Nodup := h.sublist ((List.filter_sublist).map f)
  rw [hset, Set.encard_coe_eq_coe_finsetCard, List.toFinset_card_of_nodup hnodup, List.length_map,
    List.countP_eq_length_filter]

section

variable {d : Directory} {oracle : Oracle} {caller : Identity} {references : List Reference}
  {r : Reference}

lemma mem_filterMap_question? {visits : List Visit} {answer : Bool} :
    (r, answer) ∈ visits.filterMap Visit.question? ↔
      (.granted r ∈ visits ∧ answer = true) ∨ (.denied r ∈ visits ∧ answer = false) := by
  rw [List.mem_filterMap]
  constructor
  · rintro ⟨v, hv, hq⟩
    cases v with
    | dropped q => cases hq
    | granted q =>
      cases hq
      exact .inl ⟨hv, rfl⟩
    | denied q =>
      cases hq
      exact .inr ⟨hv, rfl⟩
  · rintro (⟨hv, rfl⟩ | ⟨hv, rfl⟩)
    · exact ⟨_, hv, rfl⟩
    · exact ⟨_, hv, rfl⟩

lemma map_questions (visits : List Visit) : (visits.filterMap Visit.question?).map (·.1) =
    (visits.filter fun v => !v.isDropped).map Visit.reference := by
  induction visits with
  | nil => rfl
  | cons v visits ih =>
    cases v with
    | dropped r => exact ih
    | granted r => exact congrArg (r :: ·) ih
    | denied r => exact congrArg (r :: ·) ih

/-- No references have no visits, as if they were walked through. -/
lemma visits_resolve (d : Directory) (oracle : Oracle) (scope : Option (List Reference))
    (caller : Identity) :
    (resolve d oracle scope caller).visits = visit d oracle caller [] (scope.getD []) := by
  unfold resolve resolveAsking
  split
  · simp
  · simp
  · rfl

lemma scope_resolve (d : Directory) (oracle : Oracle) (scope : Option (List Reference))
    (caller : Identity) :
    (resolve d oracle scope caller).scope =
      if scope.getD [] = [] then .unrestricted
      else .restricted (grantedLeaves (visit d oracle caller [] (scope.getD []))) := by
  unfold resolve resolveAsking
  split
  · simp
  · simp
  · rename_i references hne
    have : references ≠ [] := fun h => hne (h ▸ rfl)
    simp [this, visit]

lemma nodup_questions (scope : Option (List Reference)) :
    ((resolve d oracle scope caller).questions.map (·.1)).Nodup := by
  have hvisits : ((visit d oracle caller [] (scope.getD [])).map Visit.reference).Nodup := nodup_visit
  rw [Resolution.questions, visits_resolve, map_questions]
  exact hvisits.sublist ((List.filter_sublist).map _)

lemma mem_questions_iff {scope : Option (List Reference)} {answer : Bool} :
    (r, answer) ∈ (resolve d oracle scope caller).questions ↔
      d.Reaches (scope.getD []) r ∧ d.lookup r = some .leaf ∧ answer = oracle caller r := by
  rw [Resolution.questions, visits_resolve, mem_filterMap_question?, mem_visit_iff, mem_visit_iff]
  simp only [Visit.Holds, Visit.reference]
  cases answer <;> grind

lemma questions_eq_nil {scope : Option (List Reference)} (h : scope.getD [] = []) :
    (resolve d oracle scope caller).questions = [] := by
  rw [Resolution.questions, visits_resolve, h]
  simp

/-- The oracle while all questions are written down, the last one last. -/
def Oracle.recording (oracle : Oracle) (caller : Identity) (r : Reference) : StateM (List Reference) Bool := do
  modify (· ++ [r])
  return oracle caller r

/-- Every leaf that is visited was asked for when it came up, and nothing else was. -/
lemma run_visitAsking_recording (seen pending log : List Reference) :
    (visitAsking d (oracle.recording caller) seen pending).run log =
      (visit d oracle caller seen pending,
        log ++ ((visit d oracle caller seen pending).filterMap Visit.question?).map (·.1)) := by
  induction seen, pending using visitAsking.induct d generalizing log with
  | case1 =>
    rw [visitAsking_nil, visit_nil, List.filterMap_nil, List.map_nil, List.append_nil]
    rfl
  | case2 seen r rest hr ih => rw [visitAsking_seen hr, visit_seen hr, ih]
  | case3 seen r rest hr children hchildren ih =>
    rw [visitAsking_container hr hchildren, visit_container hr hchildren, ih]
  | case4 seen r rest hr hleaf ih =>
    have hasked : (oracle.recording caller r).run log = pure (oracle caller r, log ++ [r]) := rfl
    rw [visitAsking_leaf hr hleaf, visit_leaf hr hleaf, StateT.run_bind, hasked, pure_bind, StateT.run_bind, ih]
    cases oracle caller r <;> simp [Visit.question?] <;> rfl
  | case5 seen r rest hr hnone ih =>
    rw [visitAsking_dropped hr hnone, visit_dropped hr hnone, StateT.run_bind, ih]
    rfl

lemma run_resolveAsking_recording (scope : Option (List Reference)) :
    (resolveAsking d (oracle.recording caller) scope).run [] =
      (resolve d oracle scope caller, (resolve d oracle scope caller).questions.map (·.1)) := by
  unfold resolve resolveAsking
  split
  · rfl
  · rfl
  · rw [StateT.run_bind, run_visitAsking_recording]
    rfl

/-- As many visits of a kind are paid as there are references that are reached and of that kind. -/
lemma encard_visits (ofKind : Reference → Visit) (isKind : Visit → Bool)
    (hkind : ∀ v, isKind v ↔ v = ofKind v.reference) (href : ∀ r, (ofKind r).reference = r) :
    {r | d.Reaches references r ∧ (ofKind r).Holds d oracle caller}.encard =
      (visit d oracle caller [] references).countP isKind := by
  rw [← encard_image nodup_visit]
  congr 1
  ext r
  constructor
  · rintro ⟨hr, hholds⟩
    refine ⟨ofKind r, mem_visit_iff.2 ⟨(href r).symm ▸ hr, hholds⟩, ?_, href r⟩
    rw [hkind, href]
  · rintro ⟨v, hv, hisKind, rfl⟩
    obtain ⟨hr, hholds⟩ := mem_visit_iff.1 hv
    exact ⟨hr, (hkind v).1 hisKind ▸ hholds⟩

/-- The order of references and their repetition do not matter to what is visited. -/
lemma visit_perm {references' : List Reference} (h : ∀ r, r ∈ references' ↔ r ∈ references) :
    (visit d oracle caller [] references').Perm (visit d oracle caller [] references) := by
  have hnodup : ∀ references, (visit d oracle caller [] references).Nodup :=
    fun _ => List.Nodup.of_map _ nodup_visit
  rw [List.perm_ext_iff_of_nodup (hnodup _) (hnodup _)]
  intro v
  rw [mem_visit_iff, mem_visit_iff, Directory.Reaches.congr h]

lemma grantedLeaves_congr {visits visits' : List Visit} (h : visits'.Perm visits) :
    grantedLeaves visits' = grantedLeaves visits := by
  obtain ⟨hlists, hproper⟩ := lists_grantedLeaves visits
  obtain ⟨hlists', hproper'⟩ := lists_grantedLeaves visits'
  refine ext_of_lists hproper' hproper fun r => ?_
  rw [hlists, hlists', h.mem_iff]

end

/-- Without references nothing is restricted, and nothing asked. Otherwise the scope lists the leaves
that the references lead to and that the caller may read. Permission is asked for every leaf that is
reached once, as an oracle sees that writes down its questions; dropped and denied are counted, once
each, the references that point at nothing and the leaves that may not be read. Neither the order of
the references nor their repetition matters, and walking through the containers ends, even where they
hold one another. -/
theorem resolved_leaves_readable (d : Directory) (oracle : Oracle) (caller : Identity)
    (scope : Option (List Reference)) :
    let resolution := resolve d oracle scope caller
    let references := scope.getD []
    let recording := (resolveAsking d (oracle.recording caller) scope).run []
    (references = [] → resolution.scope = .unrestricted ∧ resolution.questions = []) ∧
    (references ≠ [] → ∃ leaves, resolution.scope = .restricted leaves ∧ leaves.Proper ∧
      ∀ r, leaves.Lists r ↔
        d.Reaches references r ∧ d.lookup r = some .leaf ∧ oracle caller r = true) ∧
    ((resolution.questions.map (·.1)).Nodup ∧ ∀ r answer, (r, answer) ∈ resolution.questions ↔
      d.Reaches references r ∧ d.lookup r = some .leaf ∧ answer = oracle caller r) ∧
    (recording.1 = resolution ∧ (references = [] → recording.2 = []) ∧ recording.2.Nodup ∧
      ∀ r, r ∈ recording.2 ↔ d.Reaches references r ∧ d.lookup r = some .leaf) ∧
    {r | d.Reaches references r ∧ d.lookup r = none}.encard = resolution.droppedCount ∧
    {r | d.Reaches references r ∧ d.lookup r = some .leaf ∧ oracle caller r = false}.encard =
      resolution.deniedCount ∧
    visitWithin d oracle caller (unopenedSize [] d.containers + references.length) [] references =
      some resolution.visits ∧
    (∀ scope' : Option (List Reference), (∀ r, r ∈ scope'.getD [] ↔ r ∈ references) →
      let resolution' := resolve d oracle scope' caller
      resolution'.scope = resolution.scope ∧
        resolution'.droppedCount = resolution.droppedCount ∧
        resolution'.deniedCount = resolution.deniedCount) ∧
    ∀ (setup : Engine.Setup) (request : Engine.Request) (s : Engine.State),
      setup.directory = d → s.acl.canRead = oracle → request.scope = scope →
      request.caller = caller →
        let (resolved, s') := (Engine.resolveScope setup request).run s
        resolved = resolution.scope ∧
          s'.metrics = { s.metrics with
            scopeReferencesDropped :=
              s.metrics.scopeReferencesDropped + .ofNat resolution.droppedCount
            scopeReadDenials := s.metrics.scopeReadDenials + .ofNat resolution.deniedCount } := by
  intro resolution references recording
  have hrecording : recording = (resolution, resolution.questions.map (·.1)) := run_resolveAsking_recording scope
  have hvisits : resolution.visits = visit d oracle caller [] references :=
    visits_resolve d oracle scope caller
  have hscope := scope_resolve d oracle scope caller
  refine ⟨fun hnil => ⟨hscope.trans (if_pos hnil), questions_eq_nil hnil⟩, fun hne => ?_,
    ⟨nodup_questions scope, fun r answer => mem_questions_iff⟩, ?_, ?_, ?_, ?_, fun scope' h => ?_, ?_⟩
  · obtain ⟨hlists, hproper⟩ :=
      lists_grantedLeaves (visit d oracle caller [] references)
    refine ⟨_, hscope.trans (if_neg hne), hproper, fun r => ?_⟩
    rw [hlists, mem_visit_iff]
    rfl
  · rw [hrecording]
    refine ⟨rfl, fun hnil => by rw [questions_eq_nil hnil, List.map_nil], nodup_questions scope, fun r => ?_⟩
    rw [List.mem_map]
    constructor
    · rintro ⟨⟨q, answer⟩, hq, rfl⟩
      obtain ⟨hreaches, hleaf, -⟩ := mem_questions_iff.1 hq
      exact ⟨hreaches, hleaf⟩
    · intro hr
      exact ⟨_, mem_questions_iff.2 ⟨hr.1, hr.2, rfl⟩, rfl⟩
  · rw [Resolution.droppedCount, hvisits]
    refine encard_visits .dropped Visit.isDropped (fun v => ?_) fun _ => rfl
    cases v <;> simp [Visit.isDropped, Visit.reference]
  · rw [Resolution.deniedCount, hvisits]
    refine encard_visits .denied Visit.isDenied (fun v => ?_) fun _ => rfl
    cases v <;> simp [Visit.isDenied, Visit.reference]
  · rw [hvisits]
    exact visitWithin_eq_visit d oracle caller [] references le_rfl
  · have hperm : (visit d oracle caller [] (scope'.getD [])).Perm
        (visit d oracle caller [] references) := visit_perm h
    have hnil : scope'.getD [] = [] ↔ references = [] := by
      simp only [List.eq_nil_iff_forall_not_mem, h]
    have hvisits' := visits_resolve d oracle scope' caller
    refine ⟨?_, ?_, ?_⟩
    · rw [scope_resolve, hscope, grantedLeaves_congr hperm]
      simp only [hnil, references]
    · rw [Resolution.droppedCount, Resolution.droppedCount, hvisits, hvisits']
      exact hperm.countP_eq _
    · rw [Resolution.deniedCount, Resolution.deniedCount, hvisits, hvisits']
      exact hperm.countP_eq _
  · rintro setup request s rfl rfl rfl rfl
    exact ⟨rfl, rfl⟩

/-- Two folders that hold one another and share a ticket. -/
def Directory.sharedFolders : Directory where
  containers :=
    [(⟨"Folder", 1⟩, [⟨"Ticket", 1⟩, ⟨"Folder", 2⟩]),
      (⟨"Folder", 2⟩, [⟨"Folder", 1⟩, ⟨"Ticket", 1⟩, ⟨"Ticket", 2⟩, ⟨"Ticket", 9⟩])]
  isLeaf r := r = ⟨"Ticket", 1⟩ || r = ⟨"Ticket", 2⟩

/-- A folder that is listed twice, with a ticket in it that may not be read and one that is gone. -/
theorem resolved_leaves_readable_folders :
    let oracle : Oracle := fun _ r => r.id ≠ 2
    let resolution := resolve .sharedFolders oracle
      (some [⟨"Folder", 2⟩, ⟨"Ticket", 2⟩, ⟨"Folder", 2⟩]) {}
    (∃ leaves, resolution.scope = .restricted leaves ∧
      leaves.Lists ⟨"Ticket", 1⟩ ∧ ¬ leaves.Lists ⟨"Ticket", 2⟩) ∧
    resolution.questions = [(⟨"Ticket", 1⟩, true), (⟨"Ticket", 2⟩, false)] ∧
    resolution.droppedCount = 1 ∧ resolution.deniedCount = 1 := by
  intro oracle resolution
  obtain ⟨-, hscope, -, -, -, -, hvisits, -⟩ := resolved_leaves_readable .sharedFolders oracle {}
    (some [⟨"Folder", 2⟩, ⟨"Ticket", 2⟩, ⟨"Folder", 2⟩])
  have hlist : resolution.visits =
      [.granted ⟨"Ticket", 1⟩, .denied ⟨"Ticket", 2⟩, .dropped ⟨"Ticket", 9⟩] :=
    Option.some.inj (hvisits.symm.trans (by decide +kernel))
  refine ⟨?_, ?_, ?_, ?_⟩
  · obtain ⟨leaves, hleaves, -, hlists⟩ := hscope (by simp)
    have hfolder : Directory.sharedFolders.lookup ⟨"Folder", 2⟩ = some (.container
        [⟨"Folder", 1⟩, ⟨"Ticket", 1⟩, ⟨"Ticket", 2⟩, ⟨"Ticket", 9⟩]) := by decide +kernel
    refine ⟨leaves, hleaves, (hlists _).2 ⟨?_, by decide +kernel, by decide +kernel⟩, fun h => ?_⟩
    · exact .child (.listed (by simp)) hfolder (by simp)
    · exact absurd ((hlists _).1 h).2.2 (by decide +kernel)
  · rw [Resolution.questions, hlist]
    rfl
  · rw [Resolution.droppedCount, hlist]
    rfl
  · rw [Resolution.deniedCount, hlist]
    rfl

end Tabulation.Scope
