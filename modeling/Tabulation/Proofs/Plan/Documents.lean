import Tabulation.Plan.Document
import Tabulation.Proofs.Catalog.Documents
import Tabulation.Proofs.Evaluation.Partners
import Tabulation.Proofs.Plan.Filters
import Tabulation.Proofs.Plan.WellFormed
import Tabulation.Proofs.Query.Documents
import Tabulation.Storage.Store

/-! Plans are read as they were written, and run then as they ran before. -/
namespace Tabulation.Plan
open Json
open Catalog (FanOutKey)
open Outcome

variable {f : Value → Value} [Arrangement f]

@[simp] lemma JoinKind.reader_document (k : JoinKind) : JoinKind.reader (f (.string k.name)).document = some k :=
  Reader.oneOf_document (by cases k <;> decide) (by decide)

@[simp] lemma OutputKind.reader_document (k : OutputKind) :
    OutputKind.reader (f (.string k.name)).document = some k :=
  Reader.oneOf_document (by cases k <;> decide) (by decide)

@[simp] lemma Join.reader_document (j : Join) : Join.reader (f j.toJson).document = some j := by
  rw [Join.reader, Join.toJson, fields?_object (by simp)]
  simp [Field.of, List.lookup_cons]

@[simp] lemma ColumnRef.reader_document (c : ColumnRef) : ColumnRef.reader (f c.toJson).document = some c := by
  rw [ColumnRef.reader, ColumnRef.toJson, fields?_object (by simp)]
  simp [Field.of, List.lookup_cons]

@[simp] lemma Output.reader_document (o : Output) : Output.reader (f o.toJson).document = some o := by
  rw [Output.reader, Output.toJson, fields?_object (by simp)]
  simp [Field.of, List.lookup_cons]

@[simp] lemma ScopeBranch.reader_document (b : ScopeBranch) :
    ScopeBranch.reader (f b.toJson).document = some b := by
  have hids : Reader.set .int64 (f (Scope.idsToJson b.ids)).document = some b.ids :=
    Reader.set_document fun id _ => Reader.int64_document id
  rw [ScopeBranch.reader, ScopeBranch.toJson, fields?_object (by simp)]
  simp [Field.of, List.lookup_cons, hids]

@[simp] lemma branchesReader_document (branches : List ScopeBranch) :
    branchesReader (f (branchesToJson branches)).document = some branches := by
  rw [branchesReader, branchesToJson, fields?_object (by simp)]
  simp [Field.of]

lemma branchesToJson_ne_null (branches : List ScopeBranch) :
    (f (branchesToJson branches)).document ≠ .null := by
  rw [branchesToJson, object_singleton (f := f), Value.document_object]
  exact nofun

/-- The predicate's values are in normal form. -/
def Predicate.Normal (q : Predicate) : Prop := ∀ v ∈ q.values, v.normalized = v

lemma Predicate.reader_document {q : Predicate} (h : q.Normal) :
    Predicate.reader (f q.toJson).document = some q := by
  rw [Predicate.reader, Predicate.toJson, fields?_object (by simp)]
  simp [Field.of, List.lookup_cons, Reader.anyList_document h]

lemma Predicate.list_document {qs : List Predicate} (h : ∀ q ∈ qs, q.Normal) :
    Reader.list Predicate.reader (f (.array (qs.map toJson))).document = some qs :=
  Reader.list_document fun q hq => Predicate.reader_document (h q hq)

lemma SemiJoin.reader_document {s : SemiJoin} (h : ∀ q ∈ s.predicates, q.Normal) :
    SemiJoin.reader (f s.toJson).document = some s := by
  rw [SemiJoin.reader, SemiJoin.toJson, fields?_object (by simp)]
  simp [Field.of, List.lookup_cons, Predicate.list_document h]

lemma GroupKey.reader_document {k : GroupKey} (h : k.outputIndex < UInt64.size) :
    GroupKey.reader (f k.toJson).document = some k := by
  have hbucket : orNull Query.Bucket.reader
      (.given (f ((k.bucket.map fun b => Value.string b.name).getD .null)).document) = some k.bucket :=
    orNull_document (fun b => Reader.string_ne_null b.name) fun b _ => b.reader_document
  rw [GroupKey.reader, GroupKey.toJson, fields?_object (by simp)]
  simp [Field.of, List.lookup_cons, Reader.nat64_document h, hbucket]

lemma Aggregate.reader_document {a : Aggregate} (h : a.outputIndex < UInt64.size) :
    Aggregate.reader (f a.toJson).document = some a := by
  rw [Aggregate.reader, Aggregate.toJson, fields?_object (by simp)]
  simp [Field.of, List.lookup_cons, Reader.nat64_document h]

lemma Aggregate.list_document {as : List Aggregate} (h : ∀ a ∈ as, a.outputIndex < UInt64.size) :
    Reader.list Aggregate.reader (f (.array (as.map toJson))).document = some as :=
  Reader.list_document fun a ha => Aggregate.reader_document (h a ha)

lemma SubExpression.reader_document {s : SubExpression} (hq : ∀ q ∈ s.predicates, q.Normal)
    (ha : ∀ a ∈ s.aggregates, a.outputIndex < UInt64.size) :
    SubExpression.reader (f s.toJson).document = some s := by
  rw [SubExpression.reader, SubExpression.toJson, fields?_object (by simp)]
  simp [Field.of, List.lookup_cons, Predicate.list_document hq, Aggregate.list_document ha]

/-- What a plan has to be for a document to hold it: values are in normal form, and 64 bits hold the places of
result columns. -/
structure Writable (p : Plan) : Prop where
  predicate : ∀ q ∈ p.predicates, q.Normal
  semiJoin : ∀ s ∈ p.semiJoins, ∀ q ∈ s.predicates, q.Normal
  subExpression : ∀ s ∈ p.subExpressions, ∀ q ∈ s.predicates, q.Normal
  filled : ∀ i ∈ p.filled, i < UInt64.size
  ordered : ∀ i ∈ p.orderColumns, i < UInt64.size

theorem reader_document {p : Plan} (h : p.Writable) : Plan.reader (f p.toJson).document = some p := by
  have hscope : orNull branchesReader (.given (f ((p.scope.map branchesToJson).getD .null)).document) =
      some p.scope :=
    orNull_document branchesToJson_ne_null fun branches _ => branchesReader_document branches
  obtain ⟨hkeys, hlocals, hsubs⟩ : (∀ k ∈ p.groupKeys, k.outputIndex < UInt64.size) ∧
      (∀ a ∈ p.localAggregates, a.outputIndex < UInt64.size) ∧
      ∀ s ∈ p.subExpressions, ∀ a ∈ s.aggregates, a.outputIndex < UInt64.size := by
    have hfilled := h.filled
    simp only [filled, List.forall_mem_append, List.forall_mem_map] at hfilled
    refine ⟨hfilled.1, hfilled.2.1, fun s hs a ha => hfilled.2.2 _ ?_⟩
    exact List.mem_flatMap.2 ⟨s, hs, List.mem_map_of_mem ha⟩
  have hsemi : Reader.list SemiJoin.reader (f (.array (p.semiJoins.map SemiJoin.toJson))).document =
      some p.semiJoins := Reader.list_document fun s hs => SemiJoin.reader_document (h.semiJoin s hs)
  have hgroup : Reader.list GroupKey.reader (f (.array (p.groupKeys.map GroupKey.toJson))).document =
      some p.groupKeys := Reader.list_document fun k hk => GroupKey.reader_document (hkeys k hk)
  have hsub : Reader.list SubExpression.reader (f (.array (p.subExpressions.map SubExpression.toJson))).document =
      some p.subExpressions := Reader.list_document fun s hs =>
        SubExpression.reader_document (h.subExpression s hs) (hsubs s hs)
  have hordered : Reader.list .nat64 (f (.array (p.orderColumns.map .ofNat))).document = some p.orderColumns :=
    Reader.list_document fun i hi => Reader.nat64_document (h.ordered i hi)
  rw [Plan.reader, Plan.toJson, fields?_object (by simp)]
  simp [Field.of, List.lookup_cons, hscope, hsemi, hgroup, hsub, hordered, Predicate.list_document h.predicate,
    Aggregate.list_document hlocals]

/-! Compiled plans can be written: their predicates come from the filters of the query. -/

/-- The predicates are in normal form. -/
def AllNormal (qs : List Predicate) : Prop := ∀ q ∈ qs, q.Normal

lemma allNormal_foldl_restrictBy {fanned : List FannedFilters} (hfanned : ∀ g ∈ fanned, AllNormal g.predicates)
    {r : Restricted} (hr : AllNormal r.2) : AllNormal (fanned.foldl restrictBy r).2 := by
  refine List.foldlRecOn fanned restrictBy (motive := fun r => AllNormal r.2) hr fun r hr g hg => ?_
  unfold restrictBy
  split
  · exact List.forall_mem_append.2 ⟨hr, hfanned g hg⟩
  · exact hr

lemma allNormal_foldl_addFlat {fanned : List FannedFilters} (hfanned : ∀ g ∈ fanned, AllNormal g.predicates)
    (style : Query.JoinStyle) (parts : List (FanOutKey × Partition)) {r : Restricted} (hr : AllNormal r.2) :
    AllNormal (parts.foldl (fun r part => addFlat style fanned r part.2) r).2 :=
  List.foldlRecOn parts (fun r part => addFlat style fanned r part.2) (motive := fun r => AllNormal r.2) hr
    fun r hr part _ => by
      unfold addFlat
      exact allNormal_foldl_restrictBy hfanned hr

variable {catalog : Catalog} {m : Query.Model} {scope : Scope.Resolved} {sort : Sorting.Criteria} {p : Plan}

theorem writable_of_compile (h : compile catalog m scope sort = .ok p) (hm : m.Normal)
    (hsize : p.outputs.length ≤ UInt64.size) : p.Writable := by
  have hfilled := filled_perm h
  obtain ⟨c, l, os, hcheck, hl, hos, rfl⟩ := layout_of_compile h
  have hof := of_check hcheck
  have hfilter : ∀ x ∈ l.filters, (Predicate.ofFilter x).Normal := fun x hx =>
    hm x.use ((hl.mem_filters hof).1 ⟨x, hx, rfl, rfl⟩).1
  have hfanned : ∀ g ∈ l.fanned, AllNormal g.predicates := fun g hg q hq => by
    obtain ⟨x, hx, -, rfl⟩ := (mem_groupFilters hg).2.2 q hq
    exact hfilter x (List.mem_filter.1 hx).1
  have hdirect : AllNormal l.main.2 := fun q hq => by
    obtain ⟨x, hx, rfl⟩ := List.mem_map.1 hq
    exact hfilter x (List.mem_filter.1 hx).1
  exact {
    predicate := by
      simp only [Layout.plan]
      split_ifs
      · exact allNormal_foldl_addFlat hfanned _ _ hdirect
      · exact hdirect
    semiJoin := by
      rintro s hs
      obtain ⟨g, hg, rfl⟩ := List.mem_map.1 hs
      exact hfanned g hg
    subExpression := by
      simp only [Layout.plan]
      split_ifs
      · simp
      · rintro s hs
        obtain ⟨part, -, rfl⟩ := List.mem_map.1 hs
        exact allNormal_foldl_restrictBy hfanned (by simp [AllNormal])
    filled := fun i hi => Nat.lt_of_lt_of_le (List.mem_range.1 (hfilled.subset hi)) hsize
    ordered := fun i hi => by
      obtain ⟨o, ho, rfl⟩ := List.mem_map.1 hi
      exact Nat.lt_of_lt_of_le (lt_of_orders hos hof.ordering_lt o ho) hsize }

/-- What is saved is restored: plans that come out of compiling, queries as they are stored and as they are
recorded, resolved scopes and page requests. A restored plan runs as the plan did that was saved.

Filter values are in normal form, in which every name of an object occurs once and names ascend, since nothing
else is read from a document. The places of result columns are numbers of 64 bits, as all lengths are. -/
theorem restored_from_documents (h : compile catalog m scope sort = .ok p) (hm : m.Normal)
    (hsize : p.outputs.length ≤ UInt64.size) :
    Restores Plan.reader p.toJson p ∧
    (∀ q, Plan.reader.run p.toJson = some q → ∀ (store : Storage.Store) (paging : Option Query.Paging),
      store.run q paging = store.run p paging) ∧
    (∀ d : Query.Definition, d.Normal → Restores Query.Definition.reader d.toJson d) ∧
    (∀ m : Query.Model, m.Normal → Restores Query.Model.reader m.toJson m) ∧
    (∀ s : Scope.Resolved, Restores Scope.Resolved.reader s.toJson s) ∧
    ∀ paging : Query.Paging, Restores Query.Paging.reader paging.toJson paging := by
  have hp := writable_of_compile h hm hsize
  have hplan : Restores Plan.reader p.toJson p := .of_arrangement fun f _ => reader_document hp
  refine ⟨hplan, fun q hq store paging => ?_, fun d hd => .of_arrangement fun f _ => ?_,
    fun m hm => .of_arrangement fun f _ => ?_, fun s => .of_arrangement fun f _ => ?_,
    fun paging => .of_arrangement fun f _ => ?_⟩
  · rw [Option.some.inj (hq.symm.trans hplan.asWritten)]
  · exact Query.Definition.reader_document hd
  · exact Query.Model.reader_document hm
  · exact Scope.Resolved.reader_document s
  · exact Query.Paging.reader_document paging

/-- A query of the help desk with an operation of its own, an object among its filter values and a wish for nulls
that is not known. -/
theorem restored_from_documents_helpDesk :
    let m : Query.Model := { Query.Model.perTeam "Team" ["TICKET_ID", "NOTE_ID"]
        [⟨"NOTE_KIND", .special "MATCHES", [.object [("flags", .null), ("like", .string "p")], .number (.integer 2)]⟩]
      with orderings := [⟨"TEAM_NAME", .descending, .unknown⟩] }
    ∃ catalog p, Catalog.build Catalog.helpDesk = .ok catalog ∧ compile catalog m .unrestricted [] = .ok p ∧
      m.Normal ∧ p.outputs.length = 3 ∧ Restores Plan.reader p.toJson p ∧
      Restores Query.Definition.reader (Query.Definition.toJson ⟨m, some "open notes"⟩) ⟨m, some "open notes"⟩ := by
  intro m
  have hm : m.Normal := by decide +kernel
  obtain ⟨catalog, hbuild, h⟩ : ∃ catalog, Catalog.build Catalog.helpDesk = .ok catalog ∧
      (compile catalog m .unrestricted []).toOption.any fun p => p.outputs.length = 3 :=
    Outcome.exists_of_any (by decide +kernel)
  obtain ⟨p, hp, h⟩ := Outcome.exists_of_any h
  have hlength := of_decide_eq_true h
  obtain ⟨hplan, -, hdefinition, -⟩ := restored_from_documents hp hm (by rw [hlength]; decide)
  exact ⟨catalog, p, hbuild, hp, hm, hlength, hplan, hdefinition ⟨m, some "open notes"⟩ hm⟩

end Tabulation.Plan
