import Tabulation.Json.Record
import Tabulation.Proofs.Decimal.Integer
import Tabulation.Proofs.Json.Normal

/-! Reading what was written. The readers find the fields of a record by name, so it does not matter whether the
record is read in the sequence in which it was written or with its names in order. -/
namespace Tabulation.Json

namespace Value

lemma itemDocuments_eq (vs : List Value) : itemDocuments vs = vs.map document := by
  induction vs with
  | nil => rfl
  | cons v vs ih => rw [itemDocuments, ih, List.map_cons]

lemma memberDocuments_eq (ms : Members) : memberDocuments ms = ms.map fun m => (m.1, m.2.document) := by
  induction ms with
  | nil => rfl
  | cons m ms ih => rw [memberDocuments, ih, List.map_cons]

lemma document_array (vs : List Value) : (Value.array vs).document = .array (vs.map document) := by
  rw [document, itemDocuments_eq]

lemma document_object (ms : Members) :
    (Value.object ms).document = .object (ms.map fun m => (m.1, m.2.document)) := by
  rw [document, memberDocuments_eq]

end Value

/-- A way to arrange JSON values. The sequence of the members of an object is all that is up to it. -/
class Arrangement (f : Value → Value) : Prop where
  null : f .null = .null
  bool (b : Bool) : f (.bool b) = .bool b
  number (n : Number) : f (.number n) = .number n
  string (s : String) : f (.string s) = .string s
  array (vs : List Value) : f (.array vs) = .array (vs.map f)
  object (ms : Members) : (ms.map (·.1)).Nodup →
    ∃ ms', f (.object ms) = .object ms' ∧ ms'.Perm (ms.map fun m => (m.1, f m.2))
  normalized (v : Value) : (f v).normalized = v.normalized

instance : Arrangement id where
  null := rfl
  bool _ := rfl
  number _ := rfl
  string _ := rfl
  array vs := by rw [List.map_id, id]
  object ms _ := ⟨ms, rfl, by simp⟩
  normalized _ := rfl

instance : Arrangement Value.normalized where
  null := rfl
  bool _ := rfl
  number _ := rfl
  string _ := rfl
  array vs := by rw [Value.normalized, Value.normalizedItems_eq]
  object ms h := ⟨Value.normalizedMembers [] ms, rfl, Value.normalizedMembers_perm [] h⟩
  normalized := Value.normalized_normalized

section

variable {f : Value → Value} [Arrangement f]

/-- The field of that name in an object of the members, as the arrangement has it. -/
def Field.of (f : Value → Value) (ms : Members) (name : String) : Field :=
  match ms.lookup name with
  | some v => .given (f v).document
  | none => .missing

lemma filter_name_eq {ms : Members} (h : (ms.map (·.1)).Nodup) (name : String) :
    ms.filter (fun m => m.1 = name) = ((ms.lookup name).map fun v => (name, v)).toList := by
  induction ms with
  | nil => rfl
  | cons m ms ih =>
    obtain ⟨n, v⟩ := m
    obtain ⟨hn, hms⟩ := List.nodup_cons.1 h
    by_cases hname : n = name
    · subst hname
      have hrest : ms.filter (fun m => m.1 = n) = [] := by
        rw [List.filter_eq_nil_iff]
        intro m hm heq
        exact hn (List.mem_map.2 ⟨m, hm, of_decide_eq_true heq⟩)
      simp [hrest]
    · have hbeq : (name == n) = false := by simpa using Ne.symm hname
      rw [List.filter_cons_of_neg (by simpa using hname), ih hms, List.lookup_cons, hbeq]

/-- A record that gives no field twice has its fields at their names. -/
lemma fields?_object {ms : Members} (h : (ms.map (·.1)).Nodup) (names : List String) :
    (f (.object ms)).document.fields? names = some (names.map (Field.of f ms)) := by
  obtain ⟨ms', hms', hperm⟩ := Arrangement.object (f := f) ms h
  rw [hms', Value.document_object, Document.fields?]
  refine (congrArg (List.mapM · names) (funext fun name => ?_)).trans List.mapM_pure
  have hfilter : ((ms'.map fun m => (m.1, m.2.document)).filter fun m => m.1 = name).Perm
      ((ms.filter fun m => m.1 = name).map fun m => (m.1, (f m.2).document)) := by
    have hdocuments := (hperm.map fun m => (m.1, m.2.document)).filter fun m => m.1 = name
    rwa [List.map_map, List.filter_map (l := ms)] at hdocuments
  rw [filter_name_eq h] at hfilter
  cases hl : ms.lookup name with
  | none =>
    rw [hl] at hfilter
    rw [List.perm_nil.1 hfilter, Field.of, hl]
    rfl
  | some v =>
    rw [hl] at hfilter
    rw [List.perm_singleton.1 hfilter, Field.of, hl]
    rfl

lemma object_singleton (name : String) (v : Value) : f (.object [(name, v)]) = .object [(name, f v)] := by
  obtain ⟨ms', hms', hperm⟩ := Arrangement.object (f := f) [(name, v)] (by simp)
  rw [hms', List.perm_singleton.1 hperm]

variable {α κ : Type} {read : Reader α} {write : α → Value}

namespace Reader

@[simp] lemma any_document (v : Value) : any (f v).document = some v.normalized := by
  rw [any, Value.value?_document, Option.map_some, Arrangement.normalized]

@[simp] lemma string_document (s : String) : Reader.string (f (.string s)).document = some s := by
  rw [Arrangement.string (f := f)]
  rfl

@[simp] lemma bool_document (b : Bool) : Reader.bool (f (.bool b)).document = some b := by
  rw [Arrangement.bool (f := f)]
  rfl

lemma nat64_document {n : Nat} (h : n < UInt64.size) : nat64 (f (.ofNat n)).document = some n := by
  have hrange : (0 : Int) ≤ n ∧ (n : Int) < UInt64.size := by omega
  rw [Value.ofNat, Arrangement.number (f := f), nat64, ofValue, Value.value?_document, Option.bind_some, Value.nat64?,
    if_pos hrange, Int.toNat_natCast]

@[simp] lemma uint64_document (n : UInt64) : uint64 (f (.ofNat n.toNat)).document = some n := by
  rw [uint64, nat64_document n.toNat_lt, Option.map_some, UInt64.ofNat_toNat]

@[simp] lemma int64_document (n : Int64) : int64 (f (.ofInt64 n)).document = some n := by
  rw [Value.ofInt64, Value.ofInt, Arrangement.number (f := f), int64, ofValue, Value.value?_document, Option.bind_some,
    Value.int64?, Decimal.int64?_eq_some_iff.2 rfl]

lemma lookup_name {all : List α} {name : α → String} {a : α} (ha : a ∈ all) (h : (all.map name).Nodup) :
    (all.map fun b => (name b, b)).lookup (name a) = some a := by
  induction all with
  | nil => cases ha
  | cons b bs ih =>
    obtain ⟨hb, hbs⟩ := List.nodup_cons.1 h
    rcases List.mem_cons.1 ha with rfl | ha
    · simp
    · have hne : (name a == name b) = false :=
        beq_eq_false_iff_ne.2 fun he => hb (he ▸ List.mem_map_of_mem ha)
      rw [List.map_cons, List.lookup_cons, hne, ih ha hbs]

/-- The name of an alternative is read as the alternative. -/
lemma oneOf_document {all : List α} {name : α → String} {a : α} (ha : a ∈ all) (h : (all.map name).Nodup) :
    oneOf (all.map fun b => (name b, b)) (f (.string (name a))).document = some a := by
  rw [Arrangement.string (f := f), oneOf]
  exact lookup_name ha h

lemma mapM_eq_some_map {β : Type} {readOne : β → Option α} (result : β → α) {xs : List β}
    (h : ∀ x ∈ xs, readOne x = some (result x)) : xs.mapM readOne = some (xs.map result) := by
  induction xs with
  | nil => rfl
  | cons x xs ih =>
    obtain ⟨hx, hxs⟩ := List.forall_mem_cons.1 h
    rw [List.mapM_cons, hx, ih hxs]
    rfl

@[simp] lemma list_document {as : List α} (h : ∀ a ∈ as, read (f (write a)).document = some a) :
    list read (f (.array (as.map write))).document = some as := by
  rw [Arrangement.array (f := f), Value.document_array, list, List.map_map, List.map_map, List.mapM_map]
  exact (mapM_eq_some_map id h).trans (congrArg some as.map_id)

/-- Only values in normal form are read. -/
lemma normalized_of_any {d : Document} {v : Value} (h : any d = some v) : v.normalized = v := by
  obtain ⟨u, -, rfl⟩ := Option.map_eq_some_iff.1 h
  exact u.normalized_normalized

lemma exists_of_mem_mapM {β : Type} {readOne : β → Option α} {xs : List β} {as : List α}
    (h : xs.mapM readOne = some as) {a : α} (ha : a ∈ as) : ∃ x ∈ xs, readOne x = some a := by
  induction xs generalizing as with
  | nil =>
    cases h
    cases ha
  | cons x xs ih =>
    rw [List.mapM_cons] at h
    obtain ⟨b, hb, h⟩ := Option.bind_eq_some_iff.1 h
    obtain ⟨bs, hbs, h⟩ := Option.bind_eq_some_iff.1 h
    cases h
    rcases List.mem_cons.1 ha with rfl | ha
    · exact ⟨x, List.mem_cons_self, hb⟩
    · obtain ⟨y, hy, hya⟩ := ih hbs ha
      exact ⟨y, List.mem_cons_of_mem _ hy, hya⟩

lemma exists_of_mem_list {d : Document} {as : List α} (h : list read d = some as) {a : α} (ha : a ∈ as) :
    ∃ d, read d = some a := by
  unfold list at h
  split at h
  · obtain ⟨x, -, hx⟩ := exists_of_mem_mapM h ha
    exact ⟨x, hx⟩
  · cases h

/-- Values in normal form are read as they were. -/
lemma anyList_document {vs : List Value} (h : ∀ v ∈ vs, v.normalized = v) :
    list any (f (.array vs)).document = some vs := by
  have hlist : list any (f (.array (vs.map id))).document = some vs :=
    list_document fun v hv => by rw [id, any_document, h v hv]
  rwa [List.map_id] at hlist

@[simp] lemma set_document [Ord α] [Std.TransOrd α] {s : OrderedSet α}
    (h : ∀ a ∈ s.toList, read (f (write a)).document = some a) :
    set read (f (.array (s.toList.map write))).document = some s := by
  rw [set, list_document h, Option.map_some, OrderedSet.ofList_toList]

/-- What is read of one sequence is read of every other sequence, in that sequence. -/
lemma exists_mapM_of_perm {β : Type} {readOne : β → Option α} {xs ys : List β} (h : xs.Perm ys) {bs : List α}
    (hys : ys.mapM readOne = some bs) : ∃ as, xs.mapM readOne = some as ∧ as.Perm bs := by
  induction h generalizing bs with
  | nil => exact ⟨bs, hys, .refl _⟩
  | cons x _ ih =>
    rw [List.mapM_cons] at hys
    obtain ⟨b, hb, hys⟩ := Option.bind_eq_some_iff.1 hys
    obtain ⟨rest, hrest, hys⟩ := Option.bind_eq_some_iff.1 hys
    cases hys
    obtain ⟨as, has, hperm⟩ := ih hrest
    exact ⟨b :: as, by rw [List.mapM_cons, hb, has]; rfl, hperm.cons b⟩
  | swap x y zs =>
    rw [List.mapM_cons] at hys
    obtain ⟨b, hb, hys⟩ := Option.bind_eq_some_iff.1 hys
    obtain ⟨rest, hrest, hys⟩ := Option.bind_eq_some_iff.1 hys
    cases hys
    rw [List.mapM_cons] at hrest
    obtain ⟨c, hc, hrest⟩ := Option.bind_eq_some_iff.1 hrest
    obtain ⟨cs, hcs, hrest⟩ := Option.bind_eq_some_iff.1 hrest
    cases hrest
    exact ⟨c :: b :: cs, by rw [List.mapM_cons, List.mapM_cons, hc, hb, hcs]; rfl, .swap _ _ _⟩
  | trans _ _ ih ih' =>
    obtain ⟨as', has', hperm'⟩ := ih' hys
    obtain ⟨as, has, hperm⟩ := ih has'
    exact ⟨as, has, hperm.trans hperm'⟩

/-- The members of an object, read one by one, are what was written, in some sequence. -/
lemma exists_mapM_members {β : Type} {name : κ → String} (write : α → Value)
    (readMember : String × Document → Option β) (result : κ × α → β) {ms : List (κ × α)}
    (hnames : (ms.map fun m => name m.1).Nodup)
    (h : ∀ m ∈ ms, readMember (name m.1, (f (write m.2)).document) = some (result m)) :
    ∃ documents bs, (f (.object (ms.map fun m => (name m.1, write m.2)))).document = .object documents ∧
      documents.mapM readMember = some bs ∧ bs.Perm (ms.map result) := by
  obtain ⟨ms', hms', hperm⟩ := Arrangement.object (f := f) (ms.map fun m => (name m.1, write m.2))
    (by rwa [List.map_map])
  have hdocuments : (ms'.map fun m => (m.1, m.2.document)).Perm
      (ms.map fun m => (name m.1, (f (write m.2)).document)) := by
    have h := hperm.map fun m => (m.1, m.2.document)
    rwa [List.map_map, List.map_map] at h
  have hread : (ms.map fun m => (name m.1, (f (write m.2)).document)).mapM readMember =
      some (ms.map result) := by
    rw [List.mapM_map]
    exact mapM_eq_some_map result h
  obtain ⟨bs, hbs, hbsperm⟩ := exists_mapM_of_perm hdocuments hread
  exact ⟨_, bs, by rw [hms', Value.document_object], hbs, hbsperm⟩

/-- A map is read as it was, if its keys can be told from their names. -/
lemma map_document [Ord κ] [Std.TransOrd κ] [Std.LawfulEqOrd κ] [DecidableEq κ] {readKey : String → Option κ}
    {name : κ → String} {m : OrderedMap κ α} (hkey : ∀ k, readKey (name k) = some k)
    (h : ∀ e ∈ m.entries, read (f (write e.2)).document = some e.2) :
    map readKey read (f (.object (m.entries.map fun e => (name e.1, write e.2)))).document = some m := by
  have hinjective : Function.Injective name := fun k l hkl =>
    Option.some.inj ((hkey k).symm.trans (hkl ▸ hkey l))
  have hnames : (m.entries.map fun e => name e.1).Nodup := by
    have := m.keys_nodup.map hinjective
    rwa [List.map_map] at this
  obtain ⟨documents, es, hobject, hes, hperm⟩ := exists_mapM_members (f := f) write
    (fun m => do
      let key ← readKey m.1
      let a ← read m.2
      return (key, a)) id hnames fun e he => by simp [hkey, h e he]
  rw [List.map_id] at hperm
  rw [hobject, map, hes, Option.map_some, OrderedMap.ofList_eq_of_perm hperm ((hperm.map _).nodup_iff.2 m.keys_nodup),
    OrderedMap.ofList_entries]

lemma nullable_of_ne {d : Document} (h : d ≠ .null) : nullable read d = (read d).map some := by
  cases d with
  | null => exact absurd rfl h
  | _ => rfl

lemma string_ne_null (s : String) : (f (.string s)).document ≠ .null := by
  rw [Arrangement.string (f := f), Value.document]
  exact nofun

@[simp] lemma nullable_string (s : String) :
    nullable read (f (.string s)).document = (read (f (.string s)).document).map some :=
  nullable_of_ne (string_ne_null s)

end Reader

@[simp] lemma required_given (d : Document) : required read (.given d) = read d := rfl

@[simp] lemma optional_given (a : α) (d : Document) : optional a read (.given d) = read d := rfl

@[simp] lemma optional_missing (a : α) : optional a read .missing = some a := rfl

lemma exists_of_mem_optional {field : Field} {as : List α} (h : optional [] (Reader.list read) field = some as)
    {a : α} (ha : a ∈ as) : ∃ d, read d = some a := by
  cases field with
  | given d => exact Reader.exists_of_mem_list h ha
  | missing | cutOff =>
    cases h
    cases ha

@[simp] lemma orNull_missing : orNull read .missing = some none := rfl

/-- What is written as null where it is nothing is read as it was, if nothing else is written as null. -/
lemma orNull_document {o : Option α} (hnull : ∀ a, (f (write a)).document ≠ .null)
    (h : ∀ a ∈ o, read (f (write a)).document = some a) :
    orNull read (.given (f ((o.map write).getD .null)).document) = some o := by
  cases o with
  | none =>
    rw [Option.map_none, Option.getD_none, Arrangement.null (f := f)]
    rfl
  | some a =>
    rw [Option.map_some, Option.getD_some, orNull, Reader.nullable_of_ne (hnull a), h a rfl, Option.map_some]

end

/-- What is read of the value, as it stands and in its normal form, is `a`. -/
structure Restores {α : Type} (read : Reader α) (v : Value) (a : α) : Prop where
  asWritten : read.run v = some a
  inOrder : read.run v.normalized = some a

lemma Restores.of_arrangement {α : Type} {read : Reader α} {v : Value} {a : α}
    (h : ∀ (f : Value → Value) [Arrangement f], read (f v).document = some a) : Restores read v a :=
  ⟨h id, h Value.normalized⟩

end Tabulation.Json
