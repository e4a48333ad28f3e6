import Mathlib.Tactic.Lemma
import Tabulation.Scope.Resolver

/-! Walking through containers. Whatever containers hold one another, every reference that the listed
ones lead to comes up once, and what happens to it depends on it alone. -/
namespace Tabulation.Scope

/-- What references lead to: they themselves, and the children of all containers on the way. -/
inductive Directory.Reaches (d : Directory) (references : List Reference) : Reference → Prop
  | listed {r : Reference} (mem : r ∈ references) : d.Reaches references r
  | child {c r : Reference} {children : List Reference} (prior : d.Reaches references c)
      (container : d.lookup c = some (.container children)) (mem : r ∈ children) :
      d.Reaches references r

def Visit.reference : Visit → Reference
  | .dropped r | .granted r | .denied r => r

/-- What a visit tells of its reference is so. -/
def Visit.Holds (d : Directory) (oracle : Oracle) (caller : Identity) : Visit → Prop
  | .dropped r => d.lookup r = none
  | .granted leaf => d.lookup leaf = some .leaf ∧ oracle caller leaf = true
  | .denied leaf => d.lookup leaf = some .leaf ∧ oracle caller leaf = false

/-- The children of containers that have been opened are pending, if they have not come up yet. -/
def Directory.Closed (d : Directory) (seen pending : List Reference) : Prop :=
  ∀ c ∈ seen, ∀ children, d.lookup c = some (.container children) →
    ∀ r ∈ children, r ∈ seen ∨ r ∈ pending

section

variable {d : Directory} {oracle : Oracle} {caller : Identity} {seen pending rest : List Reference}
  {r : Reference} {v : Visit}

lemma Directory.Reaches.trans {references : List Reference} (h : d.Reaches pending r)
    (hp : ∀ c ∈ pending, d.Reaches references c) : d.Reaches references r := by
  induction h with
  | listed mem => exact hp _ mem
  | child _ container mem ih => exact .child ih container mem

lemma Directory.Reaches.congr {references : List Reference} (h : ∀ c, c ∈ references ↔ c ∈ pending) :
    d.Reaches references r ↔ d.Reaches pending r :=
  ⟨fun hr => hr.trans fun c hc => .listed ((h c).1 hc),
    fun hr => hr.trans fun c hc => .listed ((h c).2 hc)⟩

/-- Nothing is lost on the way: what was to be reached has come up or is still to be reached. -/
theorem Directory.Closed.mem_or_reaches (hclosed : d.Closed seen pending)
    {references : List Reference} (hsub : ∀ c ∈ references, c ∈ seen ∨ c ∈ pending)
    (h : d.Reaches references r) : r ∈ seen ∨ d.Reaches pending r := by
  induction h with
  | listed mem => exact (hsub _ mem).imp_right .listed
  | child _ container mem ih =>
    rcases ih with hc | hc
    · exact (hclosed _ hc _ container _ mem).imp_right .listed
    · exact .inr (.child hc container mem)

lemma Directory.Closed.pass (hclosed : d.Closed seen (r :: rest)) (hr : r ∈ seen) :
    d.Closed seen rest := by
  intro c hc children hchildren k hk
  rcases hclosed c hc children hchildren k hk with hk | hk
  · exact .inl hk
  · rcases List.mem_cons.1 hk with rfl | hk
    · exact .inl hr
    · exact .inr hk

lemma Directory.Closed.opened (hclosed : d.Closed seen (r :: rest)) (children : List Reference)
    (hr : ∀ cs, d.lookup r = some (.container cs) → cs = children) :
    d.Closed (r :: seen) (children ++ rest) := by
  intro c hc cs hcs k hk
  rcases List.mem_cons.1 hc with rfl | hc
  · exact .inr (List.mem_append_left _ (hr cs hcs ▸ hk))
  · rcases hclosed c hc cs hcs k hk with hk | hk
    · exact .inl (List.mem_cons_of_mem _ hk)
    · rcases List.mem_cons.1 hk with rfl | hk
      · exact .inl List.mem_cons_self
      · exact .inr (List.mem_append_right _ hk)

lemma not_reaches_nil : ¬ d.Reaches [] r := by
  intro h
  induction h with
  | listed mem => simp at mem
  | child _ _ _ ih => exact ih

lemma holds_of_leaf (hleaf : d.lookup r = some .leaf) :
    v.Holds d oracle caller ∧ v.reference = r ↔
      v = if oracle caller r then .granted r else .denied r := by
  cases v <;> by_cases ho : oracle caller r <;>
    simp only [Visit.Holds, Visit.reference, ho, if_true, Bool.false_eq_true, if_false] <;> grind

/-! The rounds of the loop -/

section

variable {m : Type → Type} [Monad m] {ask : Reference → m Bool}

lemma visitAsking_nil : visitAsking d ask seen [] = pure [] := by rw [visitAsking]

lemma visitAsking_seen (hr : r ∈ seen) : visitAsking d ask seen (r :: rest) = visitAsking d ask seen rest := by
  rw [visitAsking, dif_pos hr]

lemma visitAsking_container {children : List Reference} (hr : r ∉ seen)
    (hchildren : d.lookup r = some (.container children)) :
    visitAsking d ask seen (r :: rest) = visitAsking d ask (r :: seen) (children ++ rest) := by
  rw [visitAsking, dif_neg hr]
  split <;> simp_all

lemma visitAsking_leaf (hr : r ∉ seen) (hleaf : d.lookup r = some .leaf) :
    visitAsking d ask seen (r :: rest) = (do
      let granted ← ask r
      let visits ← visitAsking d ask (r :: seen) rest
      return (if granted then .granted r else .denied r) :: visits) := by
  rw [visitAsking, dif_neg hr]
  split <;> simp_all

lemma visitAsking_dropped (hr : r ∉ seen) (hnone : d.lookup r = none) :
    visitAsking d ask seen (r :: rest) = (do
      let visits ← visitAsking d ask (r :: seen) rest
      return .dropped r :: visits) := by
  rw [visitAsking, dif_neg hr]
  split <;> simp_all

end

@[simp] lemma visit_nil (seen : List Reference) : visit d oracle caller seen [] = [] :=
  congrArg Id.run visitAsking_nil

lemma visit_seen (hr : r ∈ seen) :
    visit d oracle caller seen (r :: rest) = visit d oracle caller seen rest :=
  congrArg Id.run (visitAsking_seen hr)

lemma visit_container {children : List Reference} (hr : r ∉ seen)
    (hchildren : d.lookup r = some (.container children)) :
    visit d oracle caller seen (r :: rest) = visit d oracle caller (r :: seen) (children ++ rest) :=
  congrArg Id.run (visitAsking_container hr hchildren)

lemma visit_leaf (hr : r ∉ seen) (hleaf : d.lookup r = some .leaf) :
    visit d oracle caller seen (r :: rest) =
      (if oracle caller r then .granted r else .denied r) :: visit d oracle caller (r :: seen) rest :=
  congrArg Id.run (visitAsking_leaf hr hleaf)

lemma visit_dropped (hr : r ∉ seen) (hnone : d.lookup r = none) :
    visit d oracle caller seen (r :: rest) = .dropped r :: visit d oracle caller (r :: seen) rest :=
  congrArg Id.run (visitAsking_dropped hr hnone)

/-- Visits are paid to what is reached and has not come up before. -/
theorem of_mem_visit (h : v ∈ visit d oracle caller seen pending) :
    v.reference ∉ seen ∧ d.Reaches pending v.reference ∧ v.Holds d oracle caller := by
  have hlater : ∀ (r : Reference) (rest : List Reference), ∀ c ∈ rest, d.Reaches (r :: rest) c :=
    fun r rest c hc => .listed (List.mem_cons_of_mem _ hc)
  induction seen, pending using visitAsking.induct d with
  | case1 => simp at h
  | case2 seen r rest hr ih =>
    rw [visit_seen hr] at h
    obtain ⟨hseen, hreaches, hv⟩ := ih h
    exact ⟨hseen, hreaches.trans (hlater r rest), hv⟩
  | case3 seen r rest hr children hchildren ih =>
    rw [visit_container hr hchildren] at h
    obtain ⟨hseen, hreaches, hv⟩ := ih h
    refine ⟨fun hmem => hseen (List.mem_cons_of_mem _ hmem), hreaches.trans fun c hc => ?_, hv⟩
    rcases List.mem_append.1 hc with hc | hc
    · exact .child (.listed List.mem_cons_self) hchildren hc
    · exact hlater r rest c hc
  | case4 seen r rest hr hleaf ih =>
    rw [visit_leaf hr hleaf] at h
    rcases List.mem_cons.1 h with h | h
    · obtain ⟨hv, href⟩ := (holds_of_leaf hleaf).2 h
      exact ⟨href ▸ hr, href ▸ .listed List.mem_cons_self, hv⟩
    · obtain ⟨hseen, hreaches, hv⟩ := ih h
      exact ⟨fun hmem => hseen (List.mem_cons_of_mem _ hmem), hreaches.trans (hlater r rest), hv⟩
  | case5 seen r rest hr hnone ih =>
    rw [visit_dropped hr hnone] at h
    rcases List.mem_cons.1 h with rfl | h
    · exact ⟨hr, .listed List.mem_cons_self, hnone⟩
    · obtain ⟨hseen, hreaches, hv⟩ := ih h
      exact ⟨fun hmem => hseen (List.mem_cons_of_mem _ hmem), hreaches.trans (hlater r rest), hv⟩

/-- And they are paid to all of it. -/
theorem mem_visit_of_reaches (hclosed : d.Closed seen pending) (hr : d.Reaches pending v.reference)
    (hseen : v.reference ∉ seen) (hv : v.Holds d oracle caller) :
    v ∈ visit d oracle caller seen pending := by
  -- once a reference is settled, another one that was to be reached is so from the others
  have hsettle : ∀ {seen : List Reference} {c : Reference} {rest : List Reference},
      d.Closed seen (c :: rest) → (∀ cs, d.lookup c ≠ some (.container cs)) →
        d.Reaches (c :: rest) v.reference → v.reference ∉ seen → v.reference ≠ c →
          d.Closed (c :: seen) rest ∧ d.Reaches rest v.reference := by
    intro seen c rest hclosed hc hr hseen hne
    have hnext : d.Closed (c :: seen) rest :=
      hclosed.opened [] fun cs hcs => absurd hcs (hc cs)
    refine ⟨hnext, (hnext.mem_or_reaches (fun k hk => ?_) hr).resolve_left (by simp [hne, hseen])⟩
    rcases List.mem_cons.1 hk with rfl | hk
    · exact .inl List.mem_cons_self
    · exact .inr hk
  induction seen, pending using visitAsking.induct d with
  | case1 => exact absurd hr not_reaches_nil
  | case2 seen c rest hc ih =>
    rw [visit_seen hc]
    have hnext := hclosed.pass hc
    refine ih hnext ((hnext.mem_or_reaches (fun k hk => ?_) hr).resolve_left hseen) hseen
    rcases List.mem_cons.1 hk with rfl | hk
    · exact .inl hc
    · exact .inr hk
  | case3 seen c rest hc children hchildren ih =>
    rw [visit_container hc hchildren]
    have hnext : d.Closed (c :: seen) (children ++ rest) :=
      hclosed.opened children fun cs hcs => by simpa [hchildren, eq_comm] using hcs
    have hne : v.reference ≠ c := by
      rintro rfl
      cases v <;> simp_all [Visit.Holds, Visit.reference]
    have hseen' : v.reference ∉ c :: seen := by simp [hne, hseen]
    refine ih hnext ((hnext.mem_or_reaches (fun k hk => ?_) hr).resolve_left hseen') hseen'
    rcases List.mem_cons.1 hk with rfl | hk
    · exact .inl List.mem_cons_self
    · exact .inr (List.mem_append_right _ hk)
  | case4 seen c rest hc hleaf ih =>
    rw [visit_leaf hc hleaf]
    by_cases hne : v.reference = c
    · rw [(holds_of_leaf hleaf).1 ⟨hv, hne⟩]
      exact List.mem_cons_self
    · obtain ⟨hnext, hr⟩ := hsettle hclosed (by simp [hleaf]) hr hseen hne
      exact List.mem_cons_of_mem _ (ih hnext hr (by simp [hne, hseen]))
  | case5 seen c rest hc hnone ih =>
    rw [visit_dropped hc hnone]
    by_cases hne : v.reference = c
    · subst hne
      cases v with
      | dropped r => exact List.mem_cons_self
      | granted r => simp_all [Visit.Holds, Visit.reference]
      | denied r => simp_all [Visit.Holds, Visit.reference]
    · obtain ⟨hnext, hr⟩ := hsettle hclosed (by simp [hnone]) hr hseen hne
      exact List.mem_cons_of_mem _ (ih hnext hr (by simp [hne, hseen]))

/-- No reference is visited twice. -/
theorem nodup_visit : ((visit d oracle caller seen pending).map Visit.reference).Nodup := by
  have hfresh : ∀ {seen : List Reference} {c : Reference} {rest : List Reference},
      c ∉ (visit d oracle caller (c :: seen) rest).map Visit.reference := by
    intro seen c rest hc
    obtain ⟨v, hv, rfl⟩ := List.mem_map.1 hc
    exact (of_mem_visit hv).1 List.mem_cons_self
  induction seen, pending using visitAsking.induct d with
  | case1 => simp
  | case2 seen c rest hc ih => rwa [visit_seen hc]
  | case3 seen c rest hc children hchildren ih => rwa [visit_container hc hchildren]
  | case4 seen c rest hc hleaf ih =>
    rw [visit_leaf hc hleaf, List.map_cons, ((holds_of_leaf hleaf).2 rfl).2]
    exact List.nodup_cons.2 ⟨hfresh, ih⟩
  | case5 seen c rest hc hnone ih =>
    rw [visit_dropped hc hnone]
    exact List.nodup_cons.2 ⟨hfresh, ih⟩

/-- From the start, what is visited is what the references lead to, apart from containers. -/
theorem mem_visit_iff {references : List Reference} : v ∈ visit d oracle caller [] references ↔
    d.Reaches references v.reference ∧ v.Holds d oracle caller := by
  refine ⟨fun h => (of_mem_visit h).2, fun h => ?_⟩
  exact mem_visit_of_reaches (fun c hc => by simp at hc) h.1 (by simp) h.2

end

/-- The visits of the loop, if it comes to its end within a number of rounds. -/
def visitWithin (d : Directory) (oracle : Oracle) (caller : Identity) :
    (rounds : Nat) → (seen pending : List Reference) → Option (List Visit)
  | _, _, [] => some []
  | 0, _, _ :: _ => none
  | n + 1, seen, r :: rest =>
    if r ∈ seen then visitWithin d oracle caller n seen rest
    else
      match d.lookup r with
      | some (.container children) => visitWithin d oracle caller n (r :: seen) (children ++ rest)
      | some .leaf =>
        (visitWithin d oracle caller n (r :: seen) rest).map
          ((if oracle caller r then .granted r else .denied r) :: ·)
      | none => (visitWithin d oracle caller n (r :: seen) rest).map (.dropped r :: ·)

/-- The loop ends after at most one round for every reference that is pending or held by a container
that has not been opened. -/
theorem visitWithin_eq_visit (d : Directory) (oracle : Oracle) (caller : Identity)
    (seen pending : List Reference) {rounds : Nat}
    (h : unopenedSize seen d.containers + pending.length ≤ rounds) :
    visitWithin d oracle caller rounds seen pending = some (visit d oracle caller seen pending) := by
  induction seen, pending using visitAsking.induct d generalizing rounds with
  | case1 => cases rounds <;> simp [visitWithin]
  | case2 seen r rest hr ih =>
    obtain ⟨n, rfl⟩ : ∃ n, rounds = n + 1 := ⟨rounds - 1, by simp at h; omega⟩
    rw [visitWithin, if_pos hr, visit_seen hr]
    exact ih (by simp at h; omega)
  | case3 seen r rest hr children hchildren ih =>
    obtain ⟨n, rfl⟩ : ∃ n, rounds = n + 1 := ⟨rounds - 1, by simp at h; omega⟩
    have hle := unopenedSize_cons_add_le hr (Directory.containers_lookup hchildren)
    simp only [visitWithin, if_neg hr, hchildren, visit_container hr hchildren]
    exact ih (by simp at h ⊢; omega)
  | case4 seen r rest hr hleaf ih =>
    obtain ⟨n, rfl⟩ : ∃ n, rounds = n + 1 := ⟨rounds - 1, by simp at h; omega⟩
    have hle := unopenedSize_cons_le seen r d.containers
    simp only [visitWithin, if_neg hr, hleaf, visit_leaf hr hleaf]
    rw [ih (by simp at h; omega)]
    rfl
  | case5 seen r rest hr hnone ih =>
    obtain ⟨n, rfl⟩ : ∃ n, rounds = n + 1 := ⟨rounds - 1, by simp at h; omega⟩
    have hle := unopenedSize_cons_le seen r d.containers
    simp only [visitWithin, if_neg hr, hnone, visit_dropped hr hnone]
    rw [ih (by simp at h; omega)]
    rfl

end Tabulation.Scope
