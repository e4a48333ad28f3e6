import Tabulation.Proofs.Decimal.Integer
import Tabulation.Scope.Argument

/-! The texts that name a reference, described without reading them: a type, which may have colons in it, a colon, and
an integer of 64 bits. Reading takes these texts and no others, tells why it refuses a text, and undoes the writing of
a reference. -/
namespace Tabulation.Scope
open Decimal (Denotes denotes_integerChars isInt64_iff isInt64_toInt readInt64 readInt64_eq_some_iff toInt_ofInt)

/-! The last occurrence of a character -/

section

variable {c : Char} {s before after : List Char}

lemma splitAtLast_eq_none_iff : splitAtLast c s = none ↔ c ∉ s := by
  induction s with
  | nil => simp [splitAtLast]
  | cons d s ih =>
    rw [splitAtLast, List.mem_cons, not_or, ← ih]
    cases splitAtLast c s with
    | none => simp [eq_comm]
    | some parts => simp

lemma splitAtLast_append (h : c ∉ after) : splitAtLast c (before ++ c :: after) = some (before, after) := by
  induction before with
  | nil => rw [List.nil_append, splitAtLast, splitAtLast_eq_none_iff.2 h, if_pos rfl]
  | cons d before ih => rw [List.cons_append, splitAtLast, ih]

lemma eq_append_of_splitAtLast (h : splitAtLast c s = some (before, after)) :
    s = before ++ c :: after ∧ c ∉ after := by
  induction s generalizing before with
  | nil => cases h
  | cons d s ih =>
    rw [splitAtLast] at h
    split at h
    case h_1 b a hrest =>
      cases h
      obtain ⟨rfl, hafter⟩ := ih hrest
      exact ⟨rfl, hafter⟩
    case h_2 hrest =>
      split_ifs at h with hd
      cases h
      exact ⟨hd ▸ rfl, splitAtLast_eq_none_iff.1 hrest⟩

end

variable {text entityType id : String} {r : Reference}

/-- A text is one text, its last colon, and another text. -/
structure SplitsAtLastColon (text before after : String) : Prop where
  eq_append : text = before ++ ":" ++ after
  not_mem : ':' ∉ after.toList

lemma splitAtLast_toList_iff :
    splitAtLast ':' text.toList = some (entityType.toList, id.toList) ↔ SplitsAtLastColon text entityType id := by
  have happend : (entityType ++ ":" ++ id).toList = entityType.toList ++ ':' :: id.toList := by simp
  constructor
  · intro h
    obtain ⟨htext, hid⟩ := eq_append_of_splitAtLast h
    exact ⟨String.toList_injective (htext.trans happend.symm), hid⟩
  · rintro ⟨rfl, hid⟩
    rw [happend, splitAtLast_append hid]

lemma exists_splitsAtLastColon_iff :
    (∃ entityType id, SplitsAtLastColon text entityType id) ↔ ':' ∈ text.toList := by
  constructor
  · rintro ⟨entityType, id, rfl, -⟩
    simp
  · intro h
    obtain ⟨⟨before, after⟩, hsplit⟩ := Option.ne_none_iff_exists'.1 fun hnone => splitAtLast_eq_none_iff.1 hnone h
    refine ⟨String.ofList before, String.ofList after, splitAtLast_toList_iff.1 ?_⟩
    rw [String.toList_ofList, String.toList_ofList, hsplit]

/-! Reading -/

/-- What becomes of a text: it is refused for the first thing that it lacks, with an error that quotes all of it, or it
is a reference. -/
inductive Reads (text : String) : Except ArgumentError Reference → Prop
  | noColon (not_mem : ':' ∉ text.toList) : Reads text (.error (.noColon text))
  | noType {id : String} (splits : SplitsAtLastColon text "" id) : Reads text (.error (.noType text))
  | noNumber {entityType id : String} (splits : SplitsAtLastColon text entityType id) (ne_empty : entityType ≠ "")
      (not_denotes : ∀ k : EntityId, ¬ Denotes id.toList k.toInt) : Reads text (.error (.noNumber text))
  | reference {entityType id : String} {k : EntityId} (splits : SplitsAtLastColon text entityType id)
      (ne_empty : entityType ≠ "") (denotes : Denotes id.toList k.toInt) : Reads text (.ok ⟨entityType, k⟩)

lemma ofText_of_not_mem (h : ':' ∉ text.toList) : Reference.ofText text = .error (.noColon text) := by
  rw [Reference.ofText, splitAtLast_eq_none_iff.2 h]

/-- The type is looked at before the number. -/
lemma SplitsAtLastColon.ofText (h : SplitsAtLastColon text entityType id) : Reference.ofText text =
    if entityType = "" then .error (.noType text)
    else
      match readInt64 id.toList with
      | some k => .ok ⟨entityType, k⟩
      | none => .error (.noNumber text) := by
  rw [Reference.ofText, splitAtLast_toList_iff.2 h]
  cases htype : entityType.toList with
  | nil => rw [if_pos (String.toList_eq_nil_iff.1 htype)]
  | cons c s =>
    have hne : entityType ≠ "" := by
      rintro rfl
      cases htype
    have hname : String.ofList (c :: s) = entityType := by rw [← htype, String.ofList_toList]
    rw [if_neg hne]
    dsimp only
    cases readInt64 id.toList with
    | none => rfl
    | some k => simp only [hname]

lemma reads_ofText (text : String) : Reads text (Reference.ofText text) := by
  by_cases hcolon : ':' ∈ text.toList
  · obtain ⟨entityType, id, hsplit⟩ := exists_splitsAtLastColon_iff.2 hcolon
    rw [hsplit.ofText]
    split_ifs with htype
    · exact .noType (htype ▸ hsplit)
    · cases hread : readInt64 id.toList with
      | some k => exact .reference hsplit htype (readInt64_eq_some_iff.1 hread)
      | none =>
        refine .noNumber hsplit htype fun k hk => ?_
        rw [readInt64_eq_some_iff.2 hk] at hread
        cases hread
  · rw [ofText_of_not_mem hcolon]
    exact .noColon hcolon

lemma Reads.ofText {outcome : Except ArgumentError Reference} (h : Reads text outcome) :
    Reference.ofText text = outcome := by
  cases h with
  | noColon hcolon => exact ofText_of_not_mem hcolon
  | noType hsplit => rw [hsplit.ofText, if_pos rfl]
  | @noNumber _ id hsplit htype hid =>
    have hread : readInt64 id.toList = none :=
      Option.eq_none_iff_forall_ne_some.2 fun k hk => hid k (readInt64_eq_some_iff.1 hk)
    rw [hsplit.ofText, if_neg htype, hread]
  | reference hsplit htype hid => rw [hsplit.ofText, if_neg htype, readInt64_eq_some_iff.2 hid]

/-- Reading follows these rules, and they leave nothing open. -/
theorem ofText_eq_iff {outcome : Except ArgumentError Reference} :
    Reference.ofText text = outcome ↔ Reads text outcome :=
  ⟨fun h => h ▸ reads_ofText text, Reads.ofText⟩

/-! Writing -/

/-- A reference as an argument, with the shortest form of its identifier. -/
def Reference.argument (r : Reference) : String :=
  r.entityType ++ ":" ++ String.ofList (Json.integerChars r.id.toInt)

lemma splitsAtLastColon_argument (r : Reference) :
    SplitsAtLastColon r.argument r.entityType (String.ofList (Json.integerChars r.id.toInt)) := by
  refine ⟨rfl, ?_⟩
  rw [String.toList_ofList]
  intro hcolon
  rcases (denotes_integerChars r.id.toInt).mem hcolon with h | h | h <;> exact absurd h (by decide)

/-- What is written is read back, unless the type is missing. -/
lemma ofText_argument_eq_ok_iff : Reference.ofText r.argument = .ok r ↔ r.entityType ≠ "" := by
  rw [(splitsAtLastColon_argument r).ofText, String.toList_ofList,
    readInt64_eq_some_iff.2 (denotes_integerChars r.id.toInt)]
  split_ifs with htype <;> simp [htype]

/-- A text is read as a reference exactly if it has a colon, a type before the last one, and after it, with or without
a sign, the digits of a number that 64 bits hold. The reference has this type and this number. So every reference is
read back from its type, which may have colons in it, a colon and its number. -/
theorem ofText_takes_type_and_number :
    (∀ text, (∃ r, Reference.ofText text = .ok r) ↔
      ∃ entityType id n, SplitsAtLastColon text entityType id ∧ entityType ≠ "" ∧ Denotes id.toList n ∧
        -2 ^ 63 ≤ n ∧ n < 2 ^ 63) ∧
    (∀ text entityType id n, SplitsAtLastColon text entityType id → entityType ≠ "" → Denotes id.toList n →
      -2 ^ 63 ≤ n → n < 2 ^ 63 → ∃ k : EntityId, k.toInt = n ∧ Reference.ofText text = .ok ⟨entityType, k⟩) ∧
    ∀ (entityType : EntityType) (id : EntityId), entityType ≠ "" →
      Reference.ofText (⟨entityType, id⟩ : Reference).argument = .ok ⟨entityType, id⟩ := by
  have hread (text entityType id : String) (n : Int) (hsplit : SplitsAtLastColon text entityType id)
      (htype : entityType ≠ "") (hid : Denotes id.toList n) (hleast : -2 ^ 63 ≤ n) (hmost : n < 2 ^ 63) :
      ∃ k : EntityId, k.toInt = n ∧ Reference.ofText text = .ok ⟨entityType, k⟩ := by
    have hk : (Int64.ofInt n).toInt = n := toInt_ofInt (isInt64_iff.2 ⟨hleast, hmost⟩)
    exact ⟨.ofInt n, hk, (Reads.reference hsplit htype (hk.symm ▸ hid)).ofText⟩
  refine ⟨fun text => ⟨?_, ?_⟩, hread, fun _ _ htype => ofText_argument_eq_ok_iff.2 htype⟩
  · rintro ⟨r, hr⟩
    cases ofText_eq_iff.1 hr with
    | @reference entityType id k hsplit htype hid =>
      obtain ⟨hleast, hmost⟩ := isInt64_iff.1 (isInt64_toInt k)
      exact ⟨entityType, id, k.toInt, hsplit, htype, hid, hleast, hmost⟩
  · rintro ⟨entityType, id, n, hsplit, htype, hid, hleast, hmost⟩
    obtain ⟨k, -, hk⟩ := hread text entityType id n hsplit htype hid hleast hmost
    exact ⟨_, hk⟩

/-- A type with colons in it, and a number with zeros before it; the least number of 64 bits, written and read back. -/
theorem ofText_takes_type_and_number_folder :
    SplitsAtLastColon "Folder:Team:-007" "Folder:Team" "-007" ∧ Denotes "-007".toList (-7) ∧
      Reference.ofText "Folder:Team:-007" = .ok ⟨"Folder:Team", -7⟩ ∧
      Reference.ofText "Folder::-9223372036854775808" = .ok ⟨"Folder:", Int64.minValue⟩ := by
  obtain ⟨-, htake, hwrite⟩ := ofText_takes_type_and_number
  have hsplit : SplitsAtLastColon "Folder:Team:-007" "Folder:Team" "-007" := ⟨by decide, by decide⟩
  have hdigits : ∀ c ∈ ['0', '0', '7'], c.isDigit := List.all_eq_true.1 rfl
  have hid : Denotes "-007".toList (-7) := .minus (List.cons_ne_nil _ _) hdigits
  obtain ⟨k, hk, hread⟩ := htake _ _ _ _ hsplit (by decide) hid (by omega) (by omega)
  obtain rfl : k = -7 := Int64.toInt_inj.1 hk
  exact ⟨hsplit, hid, hread, hwrite "Folder:" Int64.minValue (by decide)⟩

end Tabulation.Scope
