import Tabulation.Plan.Fingerprint
import Tabulation.Proofs.Json.Unique
import Tabulation.Proofs.Query.Documents

/-! Fingerprints of different inputs are different, unless the digest confuses them: what is digested tells the
model, the resolved scope and the sort criteria. -/
namespace Tabulation
open Json

namespace Json

lemma areFinite_iff {vs : List Value} : Value.areFinite vs ↔ ∀ v ∈ vs, v.isFinite := by
  induction vs with
  | nil => simp [Value.areFinite]
  | cons v vs ih => rw [Value.areFinite, Bool.and_eq_true, ih, List.forall_mem_cons]

lemma membersFinite_iff {ms : Members} : Value.membersFinite ms ↔ ∀ m ∈ ms, m.2.isFinite := by
  induction ms with
  | nil => simp [Value.membersFinite]
  | cons m ms ih => rw [Value.membersFinite, Bool.and_eq_true, ih, List.forall_mem_cons]

lemma isFinite_array_map {α : Type} {f : α → Value} {xs : List α} (h : ∀ x ∈ xs, (f x).isFinite) :
    (Value.array (xs.map f)).isFinite := by
  rw [Value.isFinite, areFinite_iff]
  exact List.forall_mem_map.2 h

/-- What is read as it was written is not written like anything else. -/
lemma injective_of_reader {α : Type} {reader : Reader α} {toJson : α → Value}
    (h : ∀ a, reader (toJson a).document = some a) : Function.Injective toJson := fun a b hab => by
  have hread := h a
  rw [hab, h b] at hread
  exact (Option.some.inj hread).symm

/-- What is not there is told from what is there, if null does not stand for any of it. -/
lemma getD_null_injective {α : Type} {toJson : α → Value} (h : Function.Injective toJson)
    (hnull : ∀ a, toJson a ≠ .null) : Function.Injective fun o : Option α => (o.map toJson).getD .null := by
  intro o o' heq
  cases o with
  | none =>
    cases o' with
    | none => rfl
    | some b => exact absurd heq.symm (hnull b)
  | some a =>
    cases o' with
    | none => exact absurd heq (hnull a)
    | some b => exact congrArg some (h heq)

end Json

namespace Digest

lemma sextet_injective {m n : Nat} (h : sextet m = sextet n) : m % 64 = n % 64 := by
  have hall : ∀ i j : Fin 64, sextet i = sextet j → i = j := by decide +kernel
  have hmod : ∀ n, sextet (n % 64) = sextet n := fun n => by
    unfold sextet
    rw [Nat.mod_mod]
  exact congrArg Fin.val (hall ⟨m % 64, Nat.mod_lt _ (by decide)⟩ ⟨n % 64, Nat.mod_lt _ (by decide)⟩
    ((hmod m).trans (h.trans (hmod n).symm)))

/-- Bytes can be told from their text. -/
theorem base64Url_injective : Function.Injective base64Url := by
  intro xs ys h
  have hbyte : ∀ {a b : UInt8}, a.toNat = b.toNat → a = b := UInt8.toNat_inj.1
  have hlt : ∀ a : UInt8, a.toNat < 256 := UInt8.toNat_lt
  -- the characters of both texts are the same parts of two numbers, which are the bytes put together
  induction xs using base64Url.induct generalizing ys with
  | case1 a b c rest ih =>
    match ys with
    | [] | [_] | [_, _] => simp [base64Url] at h
    | a' :: b' :: c' :: rest' =>
      simp only [base64Url, List.cons.injEq] at h
      obtain ⟨h₁, h₂, h₃, h₄, hrest⟩ := h
      have h₁ := sextet_injective h₁
      have h₂ := sextet_injective h₂
      have h₃ := sextet_injective h₃
      have h₄ := sextet_injective h₄
      have := hlt a; have := hlt b; have := hlt c
      have := hlt a'; have := hlt b'; have := hlt c'
      rw [ih hrest, hbyte (a := a) (b := a') (by omega), hbyte (a := b) (b := b') (by omega),
        hbyte (a := c) (b := c') (by omega)]
  | case2 a b =>
    match ys with
    | [] | [_] | _ :: _ :: _ :: _ => simp [base64Url] at h
    | [a', b'] =>
      simp only [base64Url, List.cons.injEq] at h
      obtain ⟨h₁, h₂, h₃, -⟩ := h
      have h₁ := sextet_injective h₁
      have h₂ := sextet_injective h₂
      have h₃ := sextet_injective h₃
      have := hlt a; have := hlt b; have := hlt a'; have := hlt b'
      rw [hbyte (a := a) (b := a') (by omega), hbyte (a := b) (b := b') (by omega)]
  | case3 a =>
    match ys with
    | [] | [_, _] | _ :: _ :: _ :: _ => simp [base64Url] at h
    | [a'] =>
      simp only [base64Url, List.cons.injEq] at h
      obtain ⟨h₁, h₂, -⟩ := h
      have h₁ := sextet_injective h₁
      have h₂ := sextet_injective h₂
      have := hlt a; have := hlt a'
      rw [hbyte (a := a) (b := a') (by omega)]
  | case4 =>
    match ys with
    | [] => rfl
    | [_] | [_, _] | _ :: _ :: _ :: _ => simp [base64Url] at h

lemma toList_eq_data (bytes : ByteArray) : bytes.toList = bytes.data.toList := by
  have hloop : ∀ (i : Nat) (r : List UInt8),
      ByteArray.toList.loop bytes i r = r.reverse ++ bytes.data.toList.drop i := by
    intro i r
    fun_induction ByteArray.toList.loop bytes i r with
    | case1 i r h ih =>
      have hi : i < bytes.data.toList.length := by
        rw [Array.length_toList]
        exact h
      have hget : bytes.get! i = bytes.data.toList[i] := by
        have hdata : bytes.get! i = bytes.data[i]! := rfl
        rw [hdata, getElem!_pos bytes.data i h, Array.getElem_toList]
      rw [ih, List.drop_eq_getElem_cons hi, List.reverse_cons, List.append_assoc, hget]
      rfl
    | case2 i r h =>
      rw [List.drop_eq_nil_of_le, List.append_nil]
      rw [Array.length_toList]
      exact Nat.le_of_not_lt h
  exact hloop 0 []

lemma text_eq_of_bytes {s t : String} (h : s.toUTF8.toList = t.toUTF8.toList) : s = t := by
  rw [toList_eq_data, toList_eq_data, Array.toList_inj] at h
  exact String.toByteArray_inj.1 (ByteArray.ext h)

/-- Two messages that the digest confuses. -/
def Collision (xs ys : List UInt8) : Prop := xs ≠ ys ∧ sha256 xs = sha256 ys

end Digest

namespace Query

lemma Operation.toJson_injective : Function.Injective Operation.toJson :=
  injective_of_reader (Operation.reader_document (f := id))

/-- Filters are compared part by part: a reader would put the values into normal form. -/
lemma Filter.toJson_injective : Function.Injective Filter.toJson := by
  intro ⟨label, operation, values⟩ ⟨label', operation', values'⟩ h
  simp only [toJson, Value.object.injEq, List.cons.injEq, Prod.mk.injEq, Value.string.injEq, Value.array.injEq,
    and_true, true_and] at h
  obtain ⟨hlabel, hoperation, hvalues⟩ := h
  rw [hlabel, Operation.toJson_injective hoperation, hvalues]

theorem Model.toJson_injective : Function.Injective Model.toJson := by
  intro ⟨strategy, joinStyle, root, involved, projections, aggregations, filters, orderings⟩
    ⟨strategy', joinStyle', root', involved', projections', aggregations', filters', orderings'⟩ h
  simp only [toJson, leadingMembers, trailingMembers, Value.object.injEq, List.cons_append, List.nil_append,
    List.cons.injEq, Prod.mk.injEq, Value.array.injEq, and_true, true_and] at h
  obtain ⟨hstrategy, hjoinStyle, hroot, hinvolved, hprojections, haggregations, hfilters, horderings⟩ := h
  have hroot : root = root' :=
    getD_null_injective (fun _ _ => Value.string.inj) (fun _ => Value.noConfusion) hroot
  have hstrategy : strategy = strategy' := injective_of_reader (Strategy.reader_document (f := id)) hstrategy
  have hjoinStyle : joinStyle = joinStyle' := injective_of_reader (JoinStyle.reader_document (f := id)) hjoinStyle
  have hinvolved : involved = involved' := injective_of_reader (Involved.reader_document (f := id)) hinvolved
  have hprojections : projections = projections' :=
    (injective_of_reader (Projection.reader_document (f := id))).list_map hprojections
  have haggregations : aggregations = aggregations' :=
    (injective_of_reader (Aggregation.reader_document (f := id))).list_map haggregations
  have horderings : orderings = orderings' :=
    (injective_of_reader (OrderingColumn.reader_document (f := id))).list_map horderings
  rw [hstrategy, hjoinStyle, hroot, hinvolved, hprojections, haggregations,
    Filter.toJson_injective.list_map hfilters, horderings]

/-- All numbers in the filter values can be written, as numbers that come from documents can. -/
def Model.Finite (m : Model) : Prop := ∀ x ∈ m.filters, ∀ v ∈ x.values, v.isFinite

instance (m : Model) : Decidable m.Finite :=
  inferInstanceAs (Decidable (∀ x ∈ m.filters, ∀ v ∈ x.values, v.isFinite))

lemma Involved.isFinite_toJson (i : Involved) : i.toJson.isFinite := by
  rw [toJson_eq, Value.isFinite, membersFinite_iff, List.forall_mem_map]
  exact fun e _ => isFinite_array_map fun entity _ => rfl

lemma Filter.isFinite_toJson {x : Filter} (h : ∀ v ∈ x.values, v.isFinite) : x.toJson.isFinite := by
  have hvalues : (Value.array x.values).isFinite := by rwa [Value.isFinite, areFinite_iff]
  have hoperation : x.operation.toJson.isFinite := by cases x.operation <;> rfl
  rw [toJson, Value.isFinite, membersFinite_iff]
  simp only [List.forall_mem_cons]
  exact ⟨rfl, hoperation, hvalues, List.forall_mem_nil _⟩

lemma Projection.isFinite_toJson (p : Projection) : p.toJson.isFinite := by
  obtain ⟨label, bucket⟩ := p
  cases bucket <;> rfl

lemma Model.isFinite_toJson {m : Model} (h : m.Finite) : m.toJson.isFinite := by
  have hroot : ((m.root.map Value.string).getD .null).isFinite := by cases m.root <;> rfl
  have hprojections : (Value.array (m.projections.map Projection.toJson)).isFinite :=
    isFinite_array_map fun p _ => p.isFinite_toJson
  have haggregations : (Value.array (m.aggregations.map Aggregation.toJson)).isFinite :=
    isFinite_array_map fun a _ => rfl
  have hfilters : (Value.array (m.filters.map Filter.toJson)).isFinite :=
    isFinite_array_map fun x hx => Filter.isFinite_toJson (h x hx)
  have horderings : (Value.array (m.orderings.map OrderingColumn.toJson)).isFinite :=
    isFinite_array_map fun o _ => rfl
  rw [toJson, Value.isFinite, membersFinite_iff]
  simp only [leadingMembers, trailingMembers, List.cons_append, List.nil_append, List.forall_mem_cons]
  exact ⟨rfl, rfl, hroot, m.involved.isFinite_toJson, hprojections, haggregations, hfilters, horderings,
    List.forall_mem_nil _⟩

end Query

namespace Scope.Resolved

lemma toJson_injective : Function.Injective toJson := injective_of_reader (reader_document (f := id))

lemma isFinite_toJson (s : Resolved) : s.toJson.isFinite := by
  cases s with
  | unrestricted => rfl
  | restricted leaves =>
    have hleaves : leaves.toJson.isFinite := by
      rw [IdsByType.toJson, Value.isFinite, membersFinite_iff, List.forall_mem_map]
      exact fun e _ => isFinite_array_map fun id _ => rfl
    rw [toJson, Value.isFinite, membersFinite_iff, List.forall_mem_singleton]
    exact hleaves

end Scope.Resolved

namespace Plan
open Sorting (Criteria)

variable {m m' : Query.Model} {scope scope' : Scope.Resolved} {sort sort' : Option Criteria}

lemma sort_injective : Function.Injective fun sort : Option Criteria => (sort.map Criteria.toJson).getD .null :=
  getD_null_injective (injective_of_reader (Criteria.reader_document (f := id))) fun _ => Value.noConfusion

lemma compilationInput_inj :
    compilationInput m scope sort = compilationInput m' scope' sort' ↔ m = m' ∧ scope = scope' ∧ sort = sort' := by
  simp only [compilationInput, Value.object.injEq, List.cons.injEq, Prod.mk.injEq, and_true, true_and]
  exact and_congr Query.Model.toJson_injective.eq_iff
    (and_congr Scope.Resolved.toJson_injective.eq_iff sort_injective.eq_iff)

lemma isFinite_compilationInput (h : m.Finite) (scope : Scope.Resolved) (sort : Option Criteria) :
    (compilationInput m scope sort).isFinite := by
  have hsort : ((sort.map Criteria.toJson).getD .null).isFinite := by
    cases sort with
    | none => rfl
    | some criteria => exact isFinite_array_map fun order _ => rfl
  rw [compilationInput, Value.isFinite, membersFinite_iff]
  simp only [List.forall_mem_cons]
  exact ⟨Query.Model.isFinite_toJson h, scope.isFinite_toJson, hsort, List.forall_mem_nil _⟩

lemma hashedBytes_inj (hm : m.Finite) (hm' : m'.Finite) :
    hashedBytes m scope sort = hashedBytes m' scope' sort' ↔ m = m' ∧ scope = scope' ∧ sort = sort' := by
  refine ⟨fun h => compilationInput_inj.1 ?_, fun ⟨hm, hscope, hsort⟩ => by rw [hm, hscope, hsort]⟩
  exact Json.compact_injective (isFinite_compilationInput hm _ _) (isFinite_compilationInput hm' _ _)
    (String.ofList_injective (Digest.text_eq_of_bytes h))

/-- Two cache keys are the same only if their inputs are, or if the digest confuses the bytes of these inputs. -/
theorem confused_only_by_collision (hm : m.Finite) (hm' : m'.Finite) :
    (hashedBytes m scope sort = hashedBytes m' scope' sort' ↔ m = m' ∧ scope = scope' ∧ sort = sort') ∧
    (fingerprint m scope sort = fingerprint m' scope' sort' ↔
      (m = m' ∧ scope = scope' ∧ sort = sort') ∨
        Digest.Collision (hashedBytes m scope sort) (hashedBytes m' scope' sort')) := by
  refine ⟨hashedBytes_inj hm hm', ?_⟩
  have hdigest : fingerprint m scope sort = fingerprint m' scope' sort' ↔
      Digest.sha256 (hashedBytes m scope sort) = Digest.sha256 (hashedBytes m' scope' sort') :=
    ⟨fun h => Digest.base64Url_injective (String.ofList_injective h), fun h => by rw [fingerprint, fingerprint, h]⟩
  rw [hdigest, ← hashedBytes_inj hm hm', Digest.Collision]
  by_cases hbytes : hashedBytes m scope sort = hashedBytes m' scope' sort'
  · exact ⟨fun _ => .inl hbytes, fun _ => by rw [hbytes]⟩
  · exact ⟨fun h => .inr ⟨hbytes, h⟩, fun h => (h.resolve_left hbytes).2⟩

/-- Two states against one whose name looks like both, once it stands between quotes. -/
theorem confused_only_by_collision_quoted :
    let two : Query.Model := { filters := [⟨"TICKET_STATE", .oneOf, [.string "open", .string "closed"]⟩] }
    let one : Query.Model := { filters := [⟨"TICKET_STATE", .oneOf, [.string "open\",\"closed"]⟩] }
    two.Finite ∧ one.Finite ∧ two ≠ one ∧
      hashedBytes two .unrestricted none ≠ hashedBytes one .unrestricted none ∧
      (fingerprint two .unrestricted none = fingerprint one .unrestricted none ↔
        Digest.Collision (hashedBytes two .unrestricted none) (hashedBytes one .unrestricted none)) := by
  intro two one
  have htwo : two.Finite := by decide
  have hone : one.Finite := by decide
  have hne : two ≠ one := by decide
  obtain ⟨hbytes, hprint⟩ := @confused_only_by_collision two one .unrestricted .unrestricted none none htwo hone
  refine ⟨htwo, hone, hne, fun h => hne (hbytes.1 h).1, hprint.trans ?_⟩
  exact or_iff_right fun h => hne h.1

end Plan

end Tabulation
