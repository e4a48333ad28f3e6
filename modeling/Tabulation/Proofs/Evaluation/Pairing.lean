import Tabulation.Proofs.Comparison.JoinKeys
import Tabulation.Proofs.Evaluation.Partners

/-! Joins against predicates: the rows that a join pairs with a row, and the rows that an equality predicate on
the value of that row accepts. -/
namespace Tabulation.Evaluation
open Comparison (equal equal_comm Overlooked Confused Differ)
open Json (Value)
open Plan (ColumnRef Join Predicate)

variable {tables : Tables} {joins : List Join} {join : Join} {parent row : Row} {a b : Value}

/-- A row of the table that a join leads to from a parent row with a value in the field of the join. -/
structure Offers (tables : Tables) (joins : List Join) (join : Join) (parent row : Row) (a : Value) : Prop where
  join_mem : join ∈ joins
  row_mem : row ∈ tables.rows join.step.target
  source : parent.get? join.step.sourceField = some a

lemma isSome_joinKey? (ha : a ≠ .null) : (Comparison.joinKey? a).isSome := by
  cases a with
  | null => exact absurd rfl ha
  | bool _ | number _ | string _ | array _ | object _ => rfl

lemma Offers.mem_partners_iff (h : Offers tables joins join parent row a) (ha : a ≠ .null) :
    row ∈ (JoinIndex.ofJoins tables joins).partners join parent ↔
      (row.get? join.step.targetField).bind Comparison.joinKey? = Comparison.joinKey? a := by
  obtain ⟨key, hkey⟩ := Option.isSome_iff_exists.1 (isSome_joinKey? ha)
  have hsource : joinKey? parent join.step.sourceField = some key := by
    rw [joinKey?, h.source, Option.bind_some, hkey]
  rw [partners_ofJoins h.join_mem, Tables.matching, hsource, hkey]
  exact List.mem_filter.trans ((and_iff_right h.row_mem).trans decide_eq_true_iff)

lemma not_overlooked_null (a : Value) : ¬ Overlooked a .null := by cases a <;> exact id

lemma not_confused_null (a : Value) : ¬ Confused a .null := by cases a <;> exact id

/-- A field that has no value is neither joined nor accepted. -/
lemma holds_equals_iff (column : ColumnRef) (a : Value) (field : Option Value) :
    (Condition.mk column (compares .equals [a])).holds field ↔ ∃ b ∈ field, b ≠ .null ∧ equal a b := by
  match field with
  | none => exact ⟨nofun, nofun⟩
  | some .null => simp [Condition.holds]
  | some (.bool _) | some (.number _) | some (.string _) | some (.array _) | some (.object _) =>
    simp [Condition.holds, compares, equal_comm a]

/-- Joins and equality predicates agree except for values that are overlooked or confused. -/
theorem pairs_differ_from_equals (ha : a.isFinite) (ha' : a ≠ .null) :
    (∀ b : Value, b.isFinite → b ≠ .null →
      (equal a b ∧ Comparison.joinKey? a ≠ Comparison.joinKey? b ↔ Overlooked a b) ∧
        (Comparison.joinKey? a = Comparison.joinKey? b ∧ ¬ equal a b ↔ Confused a b)) ∧
    ∀ (tables : Tables) (joins : List Join) (join : Join) (parent row : Row) (specials : Specials)
      (column : ColumnRef) (c : Condition), Offers tables joins join parent row a →
      (∀ b ∈ row.get? join.step.targetField, b.isFinite) →
      Condition.prepare specials ⟨column, .equals, [a]⟩ = .ok c →
      (c.holds (row.get? join.step.targetField) ∧ row ∉ (JoinIndex.ofJoins tables joins).partners join parent ↔
        ∃ b ∈ row.get? join.step.targetField, Overlooked a b) ∧
      (row ∈ (JoinIndex.ofJoins tables joins).partners join parent ∧ ¬ c.holds (row.get? join.step.targetField) ↔
        ∃ b ∈ row.get? join.step.targetField, Confused a b) := by
  have hvalues (b : Value) (hb : b.isFinite) (hb' : b ≠ .null) := Differ.of_values ha hb ha' hb'
  refine ⟨fun b hb hb' => ⟨(hvalues b hb hb').overlooked, (hvalues b hb hb').confused⟩, ?_⟩
  intro tables joins join parent row specials column c hoffers hfinite hprepare
  obtain rfl : ⟨column, compares .equals [a]⟩ = c := Except.ok.inj hprepare
  have hkey := isSome_joinKey? ha'
  rw [hoffers.mem_partners_iff ha', holds_equals_iff]
  cases hfield : row.get? join.step.targetField with
  | none =>
    have hnone : ¬ none = Comparison.joinKey? a := fun h => by
      rw [← h] at hkey
      cases hkey
    exact ⟨⟨nofun, nofun⟩, ⟨fun h => absurd h.1 hnone, nofun⟩⟩
  | some b =>
    have hexists (P : Value → Prop) : (∃ c ∈ some b, P c) ↔ P b := by simp
    rw [hexists, hexists, hexists, Option.bind_some]
    by_cases hb' : b = .null
    · subst hb'
      have hnone : ¬ Comparison.joinKey? .null = Comparison.joinKey? a := fun h => by
        rw [← h] at hkey
        cases hkey
      exact ⟨iff_of_false (fun h => h.1.1 rfl) (not_overlooked_null a),
        iff_of_false (fun h => hnone h.1) (not_confused_null a)⟩
    · have hdiffer := hvalues b (hfinite b hfield) hb'
      rw [and_iff_right hb', @eq_comm _ (Comparison.joinKey? b)]
      exact ⟨hdiffer.overlooked, hdiffer.confused⟩

/-- A ticket whose team is written as 7.0 is not joined with team 7. -/
theorem pairs_differ_from_equals_ticket :
    let step : Catalog.Step := ⟨"Team", "id", "Ticket", "team", true⟩
    let join : Join := ⟨.left, "team", "ticket", step⟩
    let column : ColumnRef := ⟨"ticket", "Ticket", "team", "TEAM", .text⟩
    let ticket : Row := [("id", .string "1"), ("team", .string "7.0")]
    let tables : Tables := .ofList [("Ticket", [ticket])]
    (Condition.mk column (compares .equals [.ofInt 7])).holds (ticket.get? "team") ∧
      ticket ∉ (JoinIndex.ofJoins tables [join]).partners join [("id", .ofInt 7)] := by
  intro step join column ticket tables
  have hoffers : Offers tables [join] join [("id", .ofInt 7)] ticket (.ofInt 7) :=
    ⟨List.mem_singleton_self join, by decide +kernel, rfl⟩
  have hfinite : ∀ b ∈ ticket.get? "team", b.isFinite := fun b hb => by
    cases hb
    rfl
  have hrows := (pairs_differ_from_equals (a := .ofInt 7) rfl nofun).2 tables [join] join _ ticket Specials.builtin
    column _ hoffers hfinite rfl
  have hnames : (Decimal.ofText "7.0").any (· == Float.ofInt 7) := by decide +kernel
  have hkey : "7.0" ≠ Comparison.numberKey (.integer 7) := by decide +kernel
  exact hrows.1.2 ⟨.string "7.0", rfl, hnames, hkey⟩

/-- Equal values need not have the same key, and values with the same key need not be equal. -/
theorem keys_miss_equal_text :
    ¬ ∀ a b : Value, a.isFinite → b.isFinite → a ≠ .null → b ≠ .null →
      (Comparison.joinKey? a = Comparison.joinKey? b ↔ equal a b) := by
  intro h
  have hkeys : Comparison.joinKey? (.ofInt 7) ≠ Comparison.joinKey? (.string "7.0") := by decide +kernel
  exact hkeys ((h (.ofInt 7) (.string "7.0") rfl rfl nofun nofun).2 (by decide +kernel))

end Tabulation.Evaluation
