import Tabulation.Proofs.Json.Reading
import Tabulation.Query.Definition
import Tabulation.Query.Paging
import Tabulation.Scope.Basic
import Tabulation.Sorting.Expression

/-! Queries, and what comes with them, are read as they were written. -/
namespace Tabulation
open Json

variable {f : Value → Value} [Arrangement f]

namespace Sorting

@[simp] lemma Direction.reader_document (d : Direction) :
    Direction.reader (f (.string d.name)).document = some d :=
  Reader.oneOf_document (by cases d <;> decide) (by decide)

@[simp] lemma NullHandling.reader_document (n : NullHandling) :
    NullHandling.reader (f (.string n.name)).document = some n := by
  rw [Arrangement.string (f := f)]
  cases n <;> rfl

@[simp] lemma NullPlacement.reader_document (p : NullPlacement) :
    NullPlacement.reader (f (.string p.name)).document = some p :=
  Reader.oneOf_document (by cases p <;> decide) (by decide)

@[simp] lemma SortOrder.reader_document (o : SortOrder) : SortOrder.reader (f o.toJson).document = some o := by
  rw [SortOrder.reader, SortOrder.toJson, fields?_object (by simp)]
  simp [Field.of, List.lookup_cons]

@[simp] lemma Criteria.reader_document (c : Criteria) : Criteria.reader (f c.toJson).document = some c :=
  Reader.list_document fun o _ => o.reader_document

@[simp] lemma OrderExpr.reader_document (e : OrderExpr) : OrderExpr.reader (f e.toJson).document = some e := by
  rw [OrderExpr.reader, OrderExpr.toJson, fields?_object (by simp)]
  simp [Field.of, List.lookup_cons]

@[simp] lemma TypedOrdering.reader_document (o : TypedOrdering) :
    TypedOrdering.reader (f o.toJson).document = some o := by
  cases o with
  | unsorted =>
    rw [TypedOrdering.toJson, Arrangement.string (f := f)]
    rfl
  | ordered exprs =>
    have hexprs : Reader.list OrderExpr.reader (f (.array (exprs.map OrderExpr.toJson))).document = some exprs :=
      Reader.list_document fun e _ => e.reader_document
    rw [TypedOrdering.toJson, object_singleton (f := f)]
    show (Reader.list OrderExpr.reader _).map _ = _
    rw [hexprs, Option.map_some]

end Sorting

namespace Query

@[simp] lemma EntityRole.reader_document (r : EntityRole) :
    EntityRole.reader (f (.string r.name)).document = some r :=
  Reader.oneOf_document (by cases r <;> decide) (by decide)

@[simp] lemma Strategy.reader_document (s : Strategy) : Strategy.reader (f (.string s.name)).document = some s :=
  Reader.oneOf_document (by cases s <;> decide) (by decide)

@[simp] lemma JoinStyle.reader_document (s : JoinStyle) :
    JoinStyle.reader (f (.string s.name)).document = some s :=
  Reader.oneOf_document (by cases s <;> decide) (by decide)

@[simp] lemma Bucket.reader_document (b : Bucket) : Bucket.reader (f (.string b.name)).document = some b :=
  Reader.oneOf_document (by cases b <;> decide) (by decide)

@[simp] lemma AggregateFn.reader_document (a : AggregateFn) :
    AggregateFn.reader (f (.string a.name)).document = some a :=
  Reader.oneOf_document (by cases a <;> decide) (by decide)

@[simp] lemma Operation.reader_document (op : Operation) :
    Operation.reader (f op.toJson).document = some op := by
  cases op with
  | special name =>
    rw [Operation.toJson, object_singleton (f := f), Arrangement.string (f := f)]
    rfl
  | _ =>
    rw [Operation.toJson, Arrangement.string (f := f)]
    rfl

@[simp] lemma Projection.reader_document (p : Projection) :
    Projection.reader (f p.toJson).document = some p := by
  obtain ⟨label, bucket⟩ := p
  cases bucket with
  | none =>
    rw [Projection.reader, Projection.toJson, fields?_object (by simp)]
    simp [Field.of, List.lookup_cons]
  | some b =>
    rw [Projection.reader, Projection.toJson, fields?_object (by simp)]
    simp [Field.of, List.lookup_cons]

@[simp] lemma Aggregation.reader_document (a : Aggregation) :
    Aggregation.reader (f a.toJson).document = some a := by
  rw [Aggregation.reader, Aggregation.toJson, fields?_object (by simp)]
  simp [Field.of, List.lookup_cons]

/-- The filter's values are in normal form, as all values are that are read from documents. -/
def Filter.Normal (x : Filter) : Prop := ∀ v ∈ x.values, v.normalized = v

instance (x : Filter) : Decidable x.Normal := inferInstanceAs (Decidable (∀ v ∈ x.values, v.normalized = v))

lemma Filter.normal_of_reader {d : Document} {x : Filter} (h : Filter.reader d = some x) : x.Normal := by
  unfold Filter.reader at h
  split at h
  · simp only [Option.bind_eq_bind, Option.bind_eq_some_iff] at h
    obtain ⟨label, -, operation, -, values, hvalues, h⟩ := h
    cases h
    intro v hv
    obtain ⟨d, hd⟩ := exists_of_mem_optional hvalues hv
    exact Reader.normalized_of_any hd
  · cases h

lemma Filter.reader_document {x : Filter} (h : x.Normal) : Filter.reader (f x.toJson).document = some x := by
  rw [Filter.reader, Filter.toJson, fields?_object (by simp)]
  simp [Field.of, List.lookup_cons, Reader.anyList_document h]

@[simp] lemma OrderingColumn.reader_document (o : OrderingColumn) :
    OrderingColumn.reader (f o.toJson).document = some o := by
  rw [OrderingColumn.reader, OrderingColumn.toJson, fields?_object (by simp)]
  simp [Field.of, List.lookup_cons]

/-- Roles can be entered in any sequence. -/
lemma Involved.set_comm (i : Involved) {r r' : EntityRole} (h : r ≠ r') (s s' : OrderedSet EntityType) :
    (i.set r s).set r' s' = (i.set r' s').set r s := by
  cases r <;> cases r' <;> first | rfl | exact absurd rfl h

/-- The roles that are present, with their entity types. -/
def Involved.entries (i : Involved) : List (EntityRole × OrderedSet EntityType) :=
  EntityRole.all.filterMap fun role => (i.get? role).map fun entities => (role, entities)

lemma Involved.toJson_eq (i : Involved) : i.toJson =
    .object (i.entries.map fun e => (e.1.name, .array (e.2.toList.map .string))) := by
  rw [Involved.toJson, Involved.entries, List.map_filterMap]
  simp only [Option.map_map]
  rfl

lemma Involved.foldl_entries (i : Involved) : i.entries.foldl (fun i e => i.set e.1 e.2) {} = i := by
  obtain ⟨axis, measure, filter⟩ := i
  cases axis <;> cases measure <;> cases filter <;> rfl

lemma Involved.roles_nodup (i : Involved) : (i.entries.map (·.1)).Nodup := by
  obtain ⟨axis, measure, filter⟩ := i
  cases axis <;> cases measure <;> cases filter <;> simp [entries, EntityRole.all, get?]

/-- Reads the entity types of one role. -/
def Involved.readMember (m : String × Document) : Option (EntityRole × OrderedSet EntityType) := do
  let role ← EntityRole.reader (.string m.1)
  let entities ← Reader.set .string m.2
  return (role, entities)

lemma Involved.reader_object {documents : List (String × Document)} {es : List (EntityRole × OrderedSet EntityType)}
    (h : documents.mapM readMember = some es) :
    Involved.reader (.object documents) = some (es.foldl (fun i e => i.set e.1 e.2) {}) := by
  have hfold : ∀ i : Involved, (documents.foldlM (fun i m => do
      let role ← EntityRole.reader (.string m.1)
      let entities ← Reader.set .string m.2
      return i.set role entities) i) = some (es.foldl (fun i e => i.set e.1 e.2) i) := by
    induction documents generalizing es with
    | nil =>
      cases h
      exact fun i => rfl
    | cons m documents ih =>
      rw [List.mapM_cons] at h
      obtain ⟨e, he, h⟩ := Option.bind_eq_some_iff.1 h
      obtain ⟨rest, hrest, h⟩ := Option.bind_eq_some_iff.1 h
      obtain ⟨role, hrole, he⟩ := Option.bind_eq_some_iff.1 he
      obtain ⟨entities, hentities, he⟩ := Option.bind_eq_some_iff.1 he
      cases h
      cases he
      intro i
      simp only [List.foldlM_cons, hrole, hentities, Option.bind_eq_bind, Option.bind_some]
      exact ih hrest _
  exact hfold {}

@[simp] lemma Involved.reader_document (i : Involved) : Involved.reader (f i.toJson).document = some i := by
  have hinjective : Function.Injective EntityRole.name := fun r r' h => by
    cases r <;> cases r' <;> first | rfl | exact absurd h (by decide)
  have hnames : (i.entries.map fun e => e.1.name).Nodup := by
    have := i.roles_nodup.map hinjective
    rwa [List.map_map] at this
  have hmember : ∀ e ∈ i.entries,
      readMember (e.1.name, (f (.array (e.2.toList.map .string))).document) = some e := fun e _ => by
    have hrole : EntityRole.reader (.string e.1.name) = some e.1 := EntityRole.reader_document (f := id) e.1
    simp [readMember, hrole]
  obtain ⟨documents, es, hobject, hes, hperm⟩ := Reader.exists_mapM_members (f := f)
    (fun entities : OrderedSet EntityType => .array (entities.toList.map .string)) readMember id hnames hmember
  rw [List.map_id] at hperm
  rw [toJson_eq, hobject, reader_object hes]
  refine congrArg some (Eq.trans ?_ i.foldl_entries)
  refine hperm.foldl_eq' (fun e he e' he' _ => ?_) ({} : Involved)
  by_cases hrole : e.1 = e'.1
  · rw [List.inj_on_of_nodup_map i.roles_nodup (hperm.subset he) (hperm.subset he') hrole]
  · exact set_comm _ hrole _ _

/-- All filters of the query have values in normal form. -/
def Model.Normal (m : Model) : Prop := ∀ x ∈ m.filters, x.Normal

instance (m : Model) : Decidable m.Normal := inferInstanceAs (Decidable (∀ x ∈ m.filters, x.Normal))

theorem Model.reader_document {m : Model} (h : m.Normal) : Model.reader (f m.toJson).document = some m := by
  have hfilters : Reader.list Filter.reader (f (.array (m.filters.map Filter.toJson))).document = some m.filters :=
    Reader.list_document fun x hx => Filter.reader_document (h x hx)
  have hroot : orNull Reader.string (.given (f ((m.root.map Value.string).getD .null)).document) = some m.root :=
    orNull_document Reader.string_ne_null fun root _ => Reader.string_document root
  rw [Model.reader, Model.toJson, leadingMembers, trailingMembers, fields?_object (by simp)]
  simp [Field.of, List.lookup_cons, hfilters, hroot]

theorem Definition.reader_document {d : Definition} (h : d.Normal) :
    Definition.reader (f d.toJson).document = some d := by
  obtain ⟨⟨strategy, joinStyle, root, involved, projections, aggregations, filters, orderings⟩, id⟩ := d
  have hfilters : Reader.list Filter.reader (f (.array (filters.map Filter.toJson))).document = some filters :=
    Reader.list_document fun x hx => Filter.reader_document (h x hx)
  -- The identifier and the root may each be there or not.
  cases root <;> cases id
  all_goals
    rw [Definition.reader, Definition.toJson, Model.leadingMembers, Model.trailingMembers, fields?_object (by simp)]
    simp [Field.of, List.lookup_cons, hfilters]

/-- Every query that is read from a document has its filter values in normal form. -/
theorem Definition.normal_of_reader {document : Document} {d : Definition}
    (h : Definition.reader document = some d) : d.Normal := by
  unfold Definition.reader at h
  split at h
  · simp only [Option.bind_eq_bind, Option.bind_eq_some_iff] at h
    obtain ⟨_, -, _, -, _, -, _, -, _, -, _, -, _, -, filters, hfilters, _, -, h⟩ := h
    cases h
    intro x hx
    obtain ⟨d, hd⟩ := exists_of_mem_optional hfilters hx
    exact Filter.normal_of_reader hd
  · cases h

theorem Paging.reader_document (p : Paging) : Paging.reader (f p.toJson).document = some p := by
  rw [Paging.reader, Paging.toJson, fields?_object (by simp)]
  simp [Field.of, List.lookup_cons]

end Query

namespace Scope

theorem Resolved.reader_document (s : Resolved) : Resolved.reader (f s.toJson).document = some s := by
  cases s with
  | unrestricted =>
    rw [Resolved.toJson, Arrangement.string (f := f)]
    rfl
  | restricted leaves =>
    have hleaves : IdsByType.reader (f leaves.toJson).document = some leaves :=
      Reader.map_document (fun _ => rfl) fun e _ => Reader.set_document fun id _ => Reader.int64_document id
    rw [Resolved.toJson, object_singleton (f := f)]
    show (IdsByType.reader _).map _ = _
    rw [hleaves, Option.map_some]

end Scope

end Tabulation
