import Tabulation.Catalog.Document
import Tabulation.Proofs.Json.Reading

/-! The parts of a catalog are read as they were written. -/
namespace Tabulation.Catalog
open Json

variable {f : Value → Value} [Arrangement f]

@[simp] lemma DataKind.reader_document (k : DataKind) : DataKind.reader (f (.string k.name)).document = some k :=
  Reader.oneOf_document (by cases k <;> decide) (by decide)

@[simp] lemma ColumnRole.reader_document (r : ColumnRole) :
    ColumnRole.reader (f (.string r.name)).document = some r :=
  Reader.oneOf_document (by cases r <;> decide) (by decide)

@[simp] lemma Cardinality.reader_document (c : Cardinality) :
    Cardinality.reader (f (.string c.name)).document = some c :=
  Reader.oneOf_document (by cases c <;> decide) (by decide)

@[simp] lemma Entity.reader_document (e : Entity) : Entity.reader (f e.toJson).document = some e := by
  rw [Entity.reader, Entity.toJson, fields?_object (by simp)]
  simp [Field.of, List.lookup_cons]

@[simp] lemma Relation.reader_document (r : Relation) : Relation.reader (f r.toJson).document = some r := by
  rw [Relation.reader, Relation.toJson, fields?_object (by simp)]
  simp [Field.of, List.lookup_cons]

@[simp] lemma Column.reader_document (c : Column) : Column.reader (f c.toJson).document = some c := by
  rw [Column.reader, Column.toJson, fields?_object (by simp)]
  simp [Field.of, List.lookup_cons]

@[simp] lemma Step.reader_document (s : Step) : Step.reader (f s.toJson).document = some s := by
  rw [Step.reader, Step.toJson, fields?_object (by simp)]
  simp [Field.of, List.lookup_cons]

@[simp] lemma Hop.reader_document (h : Hop) : Hop.reader (f h.toJson).document = some h := by
  rw [Hop.toJson, Arrangement.array (f := f), Value.document_array, List.map_map]
  simp [Arrangement.string (f := f), Value.document, Hop.reader]

@[simp] lemma FanOutKey.reader_document (key : FanOutKey) :
    FanOutKey.reader (f key.toJson).document = some key := by
  rw [FanOutKey.reader, FanOutKey.toJson, Reader.list_document (by simp)]
  rfl

/-- What a catalog declares is read as it was written. -/
theorem Declarations.reader_document (d : Declarations) :
    Declarations.reader (f d.toJson).document = some d := by
  rw [Declarations.reader, Declarations.toJson, fields?_object (by simp)]
  simp [Field.of, List.lookup_cons]

end Tabulation.Catalog
