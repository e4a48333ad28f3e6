import Tabulation.Plan.Cache
import Tabulation.Proofs.Ordered

/-! The cache of plans as a bounded queue. Its plans and the order of its keys are kept apart, and each
operation changes both: whatever has been done, they have the same keys, and these stand as in a queue that
keys enter at the end and leave at the front. -/
namespace Tabulation.Plan.Cache

/-- What can be done with a cache. -/
inductive Operation where
  | insert (key : String) (plan : Plan)
  | get (key : String)
  | clear

/-- The cache after an operation. -/
def Operation.on (c : Cache) : Operation → Cache
  | .insert key plan => c.insert key plan
  | .get _ => c
  | .clear => c.clear

/-- A bounded queue of keys after an operation. A key that waits already keeps its place. Any other one goes to
the end, and where this is one too many the oldest one goes. -/
def Operation.onQueue (capacity : Nat) (keys : List String) : Operation → List String
  | .insert key _ =>
    if key ∈ keys then keys
    else if keys.length < capacity then keys ++ [key]
    else (keys ++ [key]).tail
  | .get _ => keys
  | .clear => []

/-- The plan that was inserted last under a key. -/
def latest? (key : String) (operations : List Operation) : Option Plan :=
  operations.reverse.findSome? fun
    | .insert k plan => if k = key then some plan else none
    | _ => none

variable {capacity : Nat} {c : Cache} {key : String} {plan : Plan} {operations : List Operation}

lemma latest?_append_singleton (operation : Operation) :
    latest? key (operations ++ [operation]) =
      match operation with
      | .insert k plan => if k = key then some plan else latest? key operations
      | _ => latest? key operations := by
  simp only [latest?, List.reverse_append, List.reverse_singleton, List.singleton_append,
    List.findSome?_cons]
  cases operation with
  | insert k plan => by_cases hk : k = key <;> simp [hk]
  | get | clear => rfl

/-! What has to leave -/

lemma capacity_evict (plans : OrderedMap String Plan) (order : List String) :
    (evict capacity plans order).capacity = capacity := by
  fun_induction evict capacity plans order with
  | case1 | case3 => rfl
  | case2 _ _ _ _ ih => exact ih

lemma length_sub_capacity {oldest : String} {later : List String} (h : capacity < (oldest :: later).length) :
    (oldest :: later).length - capacity = later.length - capacity + 1 := by
  rw [List.length_cons] at h ⊢
  omega

lemma order_evict (plans : OrderedMap String Plan) (order : List String) :
    (evict capacity plans order).order = order.drop (order.length - capacity) := by
  fun_induction evict capacity plans order with
  | case1 => exact List.drop_nil.symm
  | case2 plans oldest later h ih =>
    rw [ih, length_sub_capacity h, List.drop_succ_cons]
  | case3 plans oldest later h =>
    rw [Nat.sub_eq_zero_of_le (Nat.le_of_not_lt h), List.drop_zero]

lemma get?_evict (plans : OrderedMap String Plan) (order : List String) :
    (evict capacity plans order).get? key =
      if key ∈ order.take (order.length - capacity) then none else plans.get? key := by
  fun_induction evict capacity plans order with
  | case1 =>
    rw [List.take_nil, if_neg List.not_mem_nil]
    rfl
  | case2 plans oldest later h ih =>
    rw [ih, length_sub_capacity h, List.take_succ_cons, OrderedMap.get?_erase]
    by_cases hk : key = oldest <;> simp [hk]
  | case3 plans oldest later h =>
    rw [Nat.sub_eq_zero_of_le (Nat.le_of_not_lt h), List.take_zero, if_neg List.not_mem_nil]
    rfl

/-- Whatever has to leave for a plan that is inserted, nothing else comes in. -/
theorem get?_insert_eq_some {k : String} {p : Plan} (h : (c.insert key plan).get? k = some p) :
    k = key ∧ p = plan ∨ c.get? k = some p := by
  unfold insert at h
  split_ifs at h
  · exact .inr h
  all_goals
    rw [get?_evict] at h
    split_ifs at h
    rw [OrderedMap.insert, OrderedMap.get?_alter] at h
    split_ifs at h with hk
    · exact .inl ⟨hk, (Option.some.inj h).symm⟩
    · exact .inr h

/-! Runs -/

/-- A cache holds the latest plans of the keys that wait in a queue. -/
structure Holds (capacity : Nat) (operations : List Operation) (keys : List String) (c : Cache) : Prop where
  capacity_eq : c.capacity = capacity
  order_eq : c.order = keys
  nodup : keys.Nodup
  bounded : keys.length ≤ capacity
  get?_eq : ∀ key, c.get? key = if key ∈ keys then latest? key operations else none
  inserted : ∀ key ∈ keys, (latest? key operations).isSome

variable {keys : List String}

lemma Holds.isSome_get? (h : Holds capacity operations keys c) : (c.get? key).isSome ↔ key ∈ keys := by
  rw [h.get?_eq]
  split_ifs with hk
  · simp [h.inserted key hk, hk]
  · simp [hk]

lemma holds_empty (capacity : Nat) : Holds capacity [] [] { capacity } where
  capacity_eq := rfl
  order_eq := rfl
  nodup := .nil
  bounded := Nat.zero_le _
  get?_eq _ := rfl
  inserted _ hk := absurd hk List.not_mem_nil

/-- The keys that wait once a key has come in, before any has to leave. -/
def entered (key : String) (keys : List String) : List String := if key ∈ keys then keys else keys ++ [key]

lemma mem_entered {k : String} : k ∈ entered key keys ↔ k = key ∨ k ∈ keys := by
  unfold entered
  split_ifs with hk
  · exact ⟨.inr, fun h => h.elim (fun h => h ▸ hk) id⟩
  · rw [List.mem_append, List.mem_singleton, or_comm]

lemma nodup_entered (h : keys.Nodup) (key : String) : (entered key keys).Nodup := by
  unfold entered
  split_ifs with hk
  · exact h
  · exact List.nodup_append.2 ⟨h, List.nodup_singleton key, fun k hmem k' hk' heq =>
      hk (List.mem_singleton.1 hk' ▸ heq ▸ hmem)⟩

/-- At most one key is too many. -/
lemma onQueue_insert (h : keys.length ≤ capacity) :
    Operation.onQueue capacity keys (.insert key plan) =
      (entered key keys).drop ((entered key keys).length - capacity) := by
  rw [Operation.onQueue, entered]
  by_cases hk : key ∈ keys
  · rw [if_pos hk, if_pos hk, Nat.sub_eq_zero_of_le h, List.drop_zero]
  · rw [if_neg hk, if_neg hk, List.length_append, List.length_singleton]
    by_cases hfull : keys.length < capacity
    · rw [if_pos hfull, Nat.sub_eq_zero_of_le hfull, List.drop_zero]
    · have hone : keys.length + 1 - capacity = 1 := by omega
      rw [if_neg hfull, hone, List.drop_one]

lemma Holds.insert_eq (h : Holds capacity operations keys c) (hpositive : capacity ≠ 0) (key : String)
    (plan : Plan) : c.insert key plan = evict capacity (c.plans.insert key plan) (entered key keys) := by
  have hnone : (c.plans.get? key).isNone ↔ key ∉ keys := by
    rw [← h.isSome_get?, Cache.get?]
    cases c.plans.get? key <;> simp
  simp only [Cache.insert, h.capacity_eq, h.order_eq, hpositive, hnone, if_false, entered, ite_not]

/-- An insertion lets the key wait at the end, unless it waits already, and whatever is too many at the front
leaves. -/
lemma Holds.insert (h : Holds capacity operations keys c) (key : String) (plan : Plan) :
    Holds capacity (operations ++ [.insert key plan])
      (Operation.onQueue capacity keys (.insert key plan)) (c.insert key plan) := by
  have hbounded := h.bounded
  by_cases hzero : capacity = 0
  · obtain rfl : keys = [] := List.length_eq_zero_iff.1 (by omega)
    have hsame : c.insert key plan = c := if_pos (h.capacity_eq.trans hzero)
    have hqueue : Operation.onQueue capacity [] (.insert key plan) = [] := by
      simp [Operation.onQueue, hzero]
    rw [hsame, hqueue]
    exact ⟨h.capacity_eq, h.order_eq, .nil, hbounded, h.get?_eq, fun _ hk => absurd hk List.not_mem_nil⟩
  · have hnodup := nodup_entered h.nodup key
    have hmem : ∀ k, k ∈ entered key keys ↔ k = key ∨ k ∈ keys := fun k => mem_entered
    rw [h.insert_eq hzero, onQueue_insert hbounded]
    generalize entered key keys = waiting at hnodup hmem
    -- a key that waits leaves or stays, and does not do both
    have hsplit : ∀ k, k ∈ waiting ↔
        k ∈ waiting.take (waiting.length - capacity) ∨ k ∈ waiting.drop (waiting.length - capacity) := by
      intro k
      rw [← List.mem_append, List.take_append_drop]
    have hdisjoint := List.disjoint_take_drop hnodup (Nat.le_refl (waiting.length - capacity))
    refine ⟨capacity_evict _ _, order_evict _ _, hnodup.drop, ?_, fun k => ?_, fun k hk => ?_⟩
    · rw [List.length_drop]
      omega
    · have hget : c.plans.get? k = if k ∈ keys then latest? k operations else none := h.get?_eq k
      rw [get?_evict, OrderedMap.insert, OrderedMap.get?_alter, latest?_append_singleton, hget]
      have := @hdisjoint k
      grind
    · rw [latest?_append_singleton]
      have := h.inserted k
      grind

lemma Holds.on (h : Holds capacity operations keys c) (operation : Operation) :
    Holds capacity (operations ++ [operation]) (operation.onQueue capacity keys) (operation.on c) := by
  cases operation with
  | insert key plan => exact h.insert key plan
  | get key =>
    refine ⟨h.capacity_eq, h.order_eq, h.nodup, h.bounded, fun k => ?_, fun k hk => ?_⟩
    · rw [latest?_append_singleton]
      exact h.get?_eq k
    · rw [latest?_append_singleton]
      exact h.inserted k hk
  | clear =>
    refine ⟨h.capacity_eq, rfl, .nil, Nat.zero_le _, fun k => ?_, fun k hk => absurd hk List.not_mem_nil⟩
    exact (if_neg List.not_mem_nil).symm

theorem holds_foldl (capacity : Nat) (operations : List Operation) :
    Holds capacity operations (operations.foldl (Operation.onQueue capacity) [])
      (operations.foldl Operation.on { capacity }) := by
  induction operations using List.reverseRecOn with
  | nil => exact holds_empty capacity
  | append_singleton operations operation ih =>
    simp only [List.foldl_append, List.foldl_cons, List.foldl_nil]
    exact ih.on operation

/-- Whatever has been done with a cache, it has plans for the keys in its order and for no others. There are no
more of them than the capacity, none stands there twice, and they are those that wait in a bounded queue. What
the cache gives for such a key is the plan that was inserted last under it, and it gives none for any other
key. -/
theorem bounded_queue (capacity : Nat) (operations : List Operation) :
    let c := operations.foldl Operation.on { capacity }
    let keys := operations.foldl (Operation.onQueue capacity) []
    c.plans.keys.Perm c.order ∧ c.order.Nodup ∧ c.order.length ≤ capacity ∧ c.order = keys ∧
      (∀ key ∈ keys, ∃ plan, latest? key operations = some plan ∧ c.get? key = some plan) ∧
      ∀ key, key ∉ keys → c.get? key = none := by
  intro c keys
  have h : Holds capacity operations keys c := holds_foldl capacity operations
  have hkeys : ∀ key, key ∈ c.plans.keys ↔ key ∈ c.order := fun key => by
    rw [OrderedMap.mem_keys_iff, h.order_eq]
    exact h.isSome_get?
  have horder : c.order.Nodup := h.order_eq ▸ h.nodup
  refine ⟨(List.perm_ext_iff_of_nodup c.plans.keys_nodup horder).2 hkeys, horder,
    h.order_eq ▸ h.bounded, h.order_eq, fun key hk => ?_, fun key hk => ?_⟩
  · obtain ⟨plan, hplan⟩ := Option.isSome_iff_exists.1 (h.inserted key hk)
    exact ⟨plan, hplan, (h.get?_eq key).trans ((if_pos hk).trans hplan)⟩
  · exact (h.get?_eq key).trans (if_neg hk)

end Tabulation.Plan.Cache
