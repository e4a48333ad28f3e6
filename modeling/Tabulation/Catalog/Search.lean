import Tabulation.Catalog.Forest

/-! The path between two entity types. A search goes out from the one, nearer entity types first, and remembers the
step by which it came to each; these steps then lead back from the other. -/
namespace Tabulation.Catalog

/-- The step along the relation that leaves `entity`, one of its ends. -/
def Relation.stepFrom (r : Relation) (entity : EntityType) : Step :=
  if r.source = entity then r.forward else r.backward

/-- The steps that leave `entity`. -/
def Forest.stepsFrom (f : Forest) (entity : EntityType) : List Step :=
  (f.adjacency.indexes entity).filterMap fun i => f.relations[i]?.map (·.stepFrom entity)

namespace Search

variable {f : Forest} {start : EntityType}

/-- The step by which the search came to `entity`; the latest step is the first in the list. -/
def stepTo? (found : List Step) (entity : EntityType) : Option Step := found.find? (·.target = entity)

def seen (start : EntityType) (found : List Step) (entity : EntityType) : Bool :=
  entity = start || (stepTo? found entity).isSome

/-- Where the search has to go on, and the steps that it found. -/
structure State where
  queue : List EntityType
  found : List Step

def State.discover (start : EntityType) (state : State) (s : Step) : State :=
  if seen start state.found s.target then state else ⟨state.queue ++ [s.target], s :: state.found⟩

/-! Each round takes an entity type from the queue, and puts into it only such as were not seen before. -/

/-- The ends of relations to which the search did not come. -/
def unseen (f : Forest) (start : EntityType) (found : List Step) : Nat :=
  (f.relations.flatMap fun r => [r.source, r.target]).countP fun e => !seen start found e

theorem seen_cons (start : EntityType) (found : List Step) (s : Step) (e : EntityType) :
    seen start (s :: found) e = (e = s.target || seen start found e) := by
  by_cases h : s.target = e
  · simp [seen, stepTo?, h]
  · have h' : e ≠ s.target := fun he => h he.symm
    simp [seen, stepTo?, h, h']

theorem mem_of_mem_stepsFrom {entity : EntityType} {s : Step} (h : s ∈ f.stepsFrom entity) :
    ∃ r ∈ f.relations, s = r.stepFrom entity := by
  obtain ⟨i, -, hi⟩ := List.mem_filterMap.1 h
  obtain ⟨r, hr, rfl⟩ := Option.map_eq_some_iff.1 hi
  exact ⟨r, List.mem_of_getElem? hr, rfl⟩

theorem unseen_cons {found : List Step} {s : Step} {r : Relation} (hr : r ∈ f.relations)
    (hs : s.target = r.source ∨ s.target = r.target) (hnew : seen start found s.target = false) :
    unseen f start (s :: found) + 1 ≤ unseen f start found := by
  have hmem : s.target ∈ f.relations.flatMap fun r => [r.source, r.target] :=
    List.mem_flatMap.2 ⟨r, hr, by simpa using hs⟩
  have hcons : unseen f start (s :: found) = ((f.relations.flatMap fun r => [r.source, r.target]).filter
      fun e => !seen start found e).countP fun e => e ≠ s.target := by
    rw [unseen, List.countP_filter]
    exact List.countP_congr fun e _ => by simp [seen_cons]
  rw [hcons, unseen, List.countP_eq_length_filter (p := fun e => !seen start found e)]
  refine Nat.lt_of_le_of_ne List.countP_le_length fun hall => ?_
  have := List.countP_eq_length.1 hall s.target (List.mem_filter.2 ⟨hmem, by simp [hnew]⟩)
  simp at this

theorem discover_le {state : State} {s : Step} {entity : EntityType} (hs : s ∈ f.stepsFrom entity) :
    (state.discover start s).queue.length + unseen f start (state.discover start s).found ≤
      state.queue.length + unseen f start state.found := by
  unfold State.discover
  split
  · exact Nat.le_refl _
  · rename_i hnew
    obtain ⟨r, hr, rfl⟩ := mem_of_mem_stepsFrom hs
    have htarget : (r.stepFrom entity).target = r.source ∨ (r.stepFrom entity).target = r.target := by
      unfold Relation.stepFrom
      split
      · exact .inr rfl
      · exact .inl rfl
    have := unseen_cons hr htarget (Bool.eq_false_iff.2 hnew)
    simp only [List.length_append, List.length_singleton]
    omega

theorem foldl_discover_le (start : EntityType) (state : State) {steps : List Step} {entity : EntityType}
    (h : ∀ s ∈ steps, s ∈ f.stepsFrom entity) :
    (steps.foldl (State.discover start) state).queue.length +
        unseen f start (steps.foldl (State.discover start) state).found ≤
      state.queue.length + unseen f start state.found := by
  induction steps generalizing state with
  | nil => exact Nat.le_refl _
  | cons s steps ih =>
    exact Nat.le_trans (ih _ fun t ht => h t (List.mem_cons_of_mem _ ht)) (discover_le (h s List.mem_cons_self))

/-- The steps that a search from `start` finds until it comes to `target` or has nowhere to go on. -/
def explore (f : Forest) (start target : EntityType) (queue : List EntityType) (found : List Step) : List Step :=
  match queue with
  | [] => found
  | current :: queue =>
    if current = target then found
    else
      let next := (f.stepsFrom current).foldl (State.discover start) ⟨queue, found⟩
      explore f start target next.queue next.found
termination_by queue.length + unseen f start found
decreasing_by
  have hle := foldl_discover_le start ⟨queue, found⟩ fun s (hs : s ∈ f.stepsFrom current) => hs
  exact Nat.lt_of_le_of_lt hle (by simp only [List.length_cons]; omega)

/-! What was found leads back to the start, since each step leaves an entity type that was seen before it. -/

/-- Each step leads from what was seen before it to something new. -/
def Grown (start : EntityType) : List Step → Prop
  | [] => True
  | s :: found => seen start found s.source ∧ seen start found s.target = false ∧ Grown start found

theorem Grown.discover {state : State} {s : Step} (hs : seen start state.found s.source)
    (h : Grown start state.found) : Grown start (state.discover start s).found := by
  unfold State.discover
  split
  · exact h
  · rename_i hnew
    exact ⟨hs, Bool.eq_false_iff.2 hnew, h⟩

/-- Everything in the queue was seen. -/
def State.Seen (start : EntityType) (state : State) : Prop := ∀ e ∈ state.queue, seen start state.found e

theorem seen_discover {state : State} {e : EntityType} (s : Step) (h : seen start state.found e) :
    seen start (state.discover start s).found e := by
  unfold State.discover
  split
  · exact h
  · rw [seen_cons, h, Bool.or_true]

theorem State.Seen.discover {state : State} (s : Step) (h : state.Seen start) :
    (state.discover start s).Seen start := by
  intro e he
  by_cases hnew : seen start state.found s.target
  · rw [State.discover, if_pos hnew] at he
    exact seen_discover s (h e he)
  · rw [State.discover, if_neg hnew, List.mem_append, List.mem_singleton] at he
    rcases he with he | rfl
    · exact seen_discover s (h e he)
    · rw [State.discover, if_neg hnew, seen_cons]
      simp

theorem grown_foldl_discover (state : State) {steps : List Step} {current : EntityType}
    (hsource : ∀ s ∈ steps, s.source = current) (hcurrent : seen start state.found current)
    (hqueue : state.Seen start) (h : Grown start state.found) :
    (steps.foldl (State.discover start) state).Seen start ∧
      Grown start (steps.foldl (State.discover start) state).found := by
  induction steps generalizing state with
  | nil => exact ⟨hqueue, h⟩
  | cons s steps ih =>
    refine ih _ (fun t ht => hsource t (List.mem_cons_of_mem _ ht)) (seen_discover s hcurrent) (hqueue.discover s)
      (.discover ?_ h)
    rw [hsource s List.mem_cons_self]
    exact hcurrent

theorem source_of_mem_stepsFrom {entity : EntityType} {s : Step} (h : s ∈ f.stepsFrom entity) : s.source = entity := by
  obtain ⟨i, hi, hs⟩ := List.mem_filterMap.1 h
  rw [f.adjacent] at hi
  obtain ⟨r, hr, hends⟩ := Adjacency.exists_of_mem_indexes hi
  rw [hr, Option.map_some, Option.some.injEq] at hs
  rw [← hs, Relation.stepFrom]
  split
  · assumption
  · exact hends.resolve_left (by assumption)

/-- What a search finds leads back to its start. -/
theorem grown_explore (target : EntityType) {queue : List EntityType} {found : List Step}
    (hqueue : State.Seen start ⟨queue, found⟩)
    (h : Grown start found) : Grown start (explore f start target queue found) := by
  fun_induction explore f start target queue found with
  | case1 found => exact h
  | case2 found queue => exact h
  | case3 found current queue _ next ih =>
    obtain ⟨hcurrent, hrest⟩ := List.forall_mem_cons.1 hqueue
    have ⟨hseen, hgrown⟩ := grown_foldl_discover ⟨queue, found⟩
      (fun s hs => source_of_mem_stepsFrom (f := f) hs) hcurrent hrest h
    exact ih hseen hgrown

/-- How many steps were found until the search came to `entity`. -/
def age : (found : List Step) → EntityType → Nat
  | [], _ => 0
  | s :: found, entity => if s.target = entity then found.length + 1 else age found entity

theorem age_le (found : List Step) (entity : EntityType) : age found entity ≤ found.length := by
  induction found with
  | nil => exact Nat.le_refl _
  | cons s found ih =>
    unfold age
    split
    · exact Nat.le_refl _
    · exact Nat.le_succ_of_le ih

theorem seen_source_of_stepTo? {found : List Step} {entity : EntityType} {s : Step} (h : Grown start found)
    (hs : stepTo? found entity = some s) : seen start found s.source := by
  induction found with
  | nil => cases hs
  | cons t found ih =>
    rw [seen_cons]
    by_cases ht : t.target = entity
    · obtain rfl : t = s := by simpa [stepTo?, ht] using hs
      rw [h.1, Bool.or_true]
    · rw [ih h.2.2 (by simpa [stepTo?, ht] using hs), Bool.or_true]

/-- The step to an entity type leaves one to which the search came before. -/
theorem age_source_lt {found : List Step} {entity : EntityType} {s : Step} (h : Grown start found)
    (hs : stepTo? found entity = some s) : age found s.source < age found entity := by
  induction found with
  | nil => cases hs
  | cons t found ih =>
    have hne : ∀ e, seen start found e → t.target ≠ e := by
      rintro e he rfl
      rw [h.2.1] at he
      cases he
    by_cases ht : t.target = entity
    · obtain rfl : t = s := by simpa [stepTo?, ht] using hs
      simp only [age, if_pos ht, if_neg (hne _ h.1)]
      exact Nat.lt_succ_of_le (age_le _ _)
    · have hs' : stepTo? found entity = some s := by simpa [stepTo?, ht] using hs
      simp only [age, if_neg ht, if_neg (hne _ (seen_source_of_stepTo? h.2.2 hs'))]
      exact ih h.2.2 hs'

/-- The steps from the start to `cursor`, and on along `path`. -/
def wayBack (start : EntityType) (found : List Step) (grown : Grown start found) (cursor : EntityType)
    (path : List Step) : Option (List Step) :=
  if cursor = start then some path
  else
    match _ : stepTo? found cursor with
    | none => none
    | some s => wayBack start found grown s.source (s :: path)
termination_by age found cursor
decreasing_by exact age_source_lt grown (by assumption)

end Search

/-- The one path between two declared entity types of one tree. -/
def Forest.path? (f : Forest) (source target : EntityType) : Option (List Step) :=
  if f.contains source ∧ f.contains target then
    if source = target then some []
    else
      Search.wayBack source (Search.explore f source target [source] [])
        (Search.grown_explore target (by simp [Search.State.Seen, Search.seen]) trivial) target []
  else none

end Tabulation.Catalog
