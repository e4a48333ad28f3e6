/-! Finite maps kept as lists of entries with strictly ascending keys, so that equal maps are
equal values and every listing of a map has one order. -/
namespace Tabulation

/-- A finite map, listed by strictly ascending key. -/
structure OrderedMap (κ : Type) [Ord κ] (α : Type) where
  entries : List (κ × α)
  ascending : entries.Pairwise fun a b => compare a.1 b.1 = .lt
deriving DecidableEq

namespace OrderedMap

variable {κ α : Type} [Ord κ]

theorem ext {m n : OrderedMap κ α} (h : m.entries = n.entries) : m = n := by
  cases m
  cases n
  simp_all

def empty : OrderedMap κ α := ⟨[], .nil⟩

instance : EmptyCollection (OrderedMap κ α) := ⟨empty⟩
instance : Inhabited (OrderedMap κ α) := ⟨empty⟩

/-- Changes the value at `k`; a key without a value is entered in its place. -/
def alterIn (k : κ) (f : Option α → α) : List (κ × α) → List (κ × α)
  | [] => [(k, f none)]
  | e :: es =>
    match compare k e.1 with
    | .lt => (k, f none) :: e :: es
    | .eq => (e.1, f (some e.2)) :: es
    | .gt => e :: alterIn k f es

theorem key_of_mem_alterIn {k : κ} {f : Option α → α} {es : List (κ × α)} {z : κ × α}
    (h : z ∈ alterIn k f es) : z.1 = k ∨ ∃ e ∈ es, e.1 = z.1 := by
  induction es with
  | nil => simp_all [alterIn]
  | cons e es ih =>
    unfold alterIn at h
    split at h
    · rcases List.mem_cons.1 h with rfl | h
      · exact .inl rfl
      · exact .inr ⟨z, h, rfl⟩
    · rcases List.mem_cons.1 h with rfl | h
      · exact .inr ⟨e, by simp, rfl⟩
      · exact .inr ⟨z, by simp [h], rfl⟩
    · rcases List.mem_cons.1 h with rfl | h
      · exact .inr ⟨z, by simp, rfl⟩
      · rcases ih h with h | ⟨e', he', h⟩
        · exact .inl h
        · exact .inr ⟨e', by simp [he'], h⟩

theorem mem_alterIn {k : κ} {f : Option α → α} {es : List (κ × α)} {z : κ × α} (h : z ∈ alterIn k f es) :
    z ∈ es ∨ z = (k, f none) ∨ ∃ e ∈ es, compare k e.1 = .eq ∧ z = (e.1, f (some e.2)) := by
  induction es with
  | nil => exact .inr (.inl (by simpa [alterIn] using h))
  | cons e es ih =>
    unfold alterIn at h
    split at h
    · rcases List.mem_cons.1 h with rfl | h
      · exact .inr (.inl rfl)
      · exact .inl h
    · rename_i hk
      rcases List.mem_cons.1 h with rfl | h
      · exact .inr (.inr ⟨e, List.mem_cons_self, hk, rfl⟩)
      · exact .inl (List.mem_cons_of_mem _ h)
    · rcases List.mem_cons.1 h with rfl | h
      · exact .inl List.mem_cons_self
      · rcases ih h with h | h | ⟨e', he', h⟩
        · exact .inl (List.mem_cons_of_mem _ h)
        · exact .inr (.inl h)
        · exact .inr (.inr ⟨e', List.mem_cons_of_mem _ he', h⟩)

theorem alterIn_ascending [Std.TransOrd κ] (k : κ) (f : Option α → α) (es : List (κ × α))
    (h : es.Pairwise fun a b => compare a.1 b.1 = .lt) :
    (alterIn k f es).Pairwise fun a b => compare a.1 b.1 = .lt := by
  induction es with
  | nil => simp [alterIn]
  | cons e es ih =>
    obtain ⟨he, hes⟩ := List.pairwise_cons.1 h
    unfold alterIn
    split
    · rename_i hk
      refine List.pairwise_cons.2 ⟨fun z hz => ?_, h⟩
      rcases List.mem_cons.1 hz with rfl | hz
      · exact hk
      · exact Std.TransCmp.lt_trans hk (he z hz)
    · exact List.pairwise_cons.2 ⟨he, hes⟩
    · rename_i hk
      refine List.pairwise_cons.2 ⟨fun z hz => ?_, ih hes⟩
      rcases key_of_mem_alterIn hz with h | ⟨e', he', h⟩
      · rw [h]
        exact Std.OrientedCmp.gt_iff_lt.1 hk
      · rw [← h]
        exact he e' he'

def alter [Std.TransOrd κ] (m : OrderedMap κ α) (k : κ) (f : Option α → α) : OrderedMap κ α :=
  ⟨alterIn k f m.entries, alterIn_ascending k f m.entries m.ascending⟩

def insert [Std.TransOrd κ] (m : OrderedMap κ α) (k : κ) (a : α) : OrderedMap κ α :=
  m.alter k fun _ => a

/-- Takes out the value at `k`, if there is one. -/
def erase [BEq κ] (m : OrderedMap κ α) (k : κ) : OrderedMap κ α :=
  ⟨m.entries.filter fun e => e.1 != k, m.ascending.filter _⟩

/-- The map of the given entries; of several entries for one key the last one counts. -/
def ofList [Std.TransOrd κ] (es : List (κ × α)) : OrderedMap κ α :=
  es.foldl (fun m e => m.insert e.1 e.2) empty

def get? [BEq κ] (m : OrderedMap κ α) (k : κ) : Option α := m.entries.lookup k

def keys (m : OrderedMap κ α) : List κ := m.entries.map (·.1)

def values (m : OrderedMap κ α) : List α := m.entries.map (·.2)

def size (m : OrderedMap κ α) : Nat := m.entries.length

/-- Changes every value; the keys stay. -/
def mapValues {β : Type} (f : κ → α → β) (m : OrderedMap κ α) : OrderedMap κ β :=
  ⟨m.entries.map fun e => (e.1, f e.1 e.2), by
    simpa [List.pairwise_map] using m.ascending⟩

end OrderedMap

end Tabulation
