import Tabulation.Journal.Entry
import Tabulation.Proofs.Json.Unique
import Tabulation.Proofs.Ordered

/-! Reading a journal back. Whatever the title, the names and the values of an entry hold, its text is one line,
and a JSON reader finds in the line the members that were written, each string as it was. -/
namespace Tabulation.Journal
open Json (Document ReadsBack hexDigit readString readDocument readMembers skipBlanks stringOf)

section

variable {c : Char} {depth fuel : Nat} {rest : List Char}

lemma readsBack_escapeChar : ReadsBack escapeChar := by
  intro c rest
  unfold escapeChar
  split_ifs with hquote hback hn hr ht hcontrol
  · rw [hquote]
    rfl
  · rw [hback]
    rfl
  · rw [hn]
    rfl
  · rw [hr]
    rfl
  · rw [ht]
    rfl
  · have hunit := Json.unit16_hexDigit (n := c.toNat) (by omega)
    simp only [List.cons_append, List.nil_append, readString, hunit]
  · exact Json.readString_cons hquote hback (fun h => hcontrol (.inl h)) rest

lemma lineFeed_not_mem_escapeChar (c : Char) : '\n' ∉ escapeChar c := by
  have hhex (n : Nat) : '\n' ≠ hexDigit n := by simp [hexDigit]
  by_cases hc : c = '\n'
  · simp [escapeChar, hc]
  · unfold escapeChar
    split_ifs <;> simp [hhex, Ne.symm hc]

lemma joinSurrogates_toNat (cs : List Char) : Json.joinSurrogates (cs.map Char.toNat) = some cs := by
  induction cs with
  | nil => rfl
  | cons c cs ih =>
    have hvalid : c.toNat < 0xD800 ∨ 0xE000 ≤ c.toNat := by
      rcases c.valid with h | h
      · exact .inl h
      · exact .inr h.1
    rw [List.map_cons, Json.joinSurrogates.eq_def]
    simp only [if_pos hvalid, ih, Option.map_some, Char.ofNat_toNat]

lemma stringOf_toNat (s : String) : stringOf (s.toList.map Char.toNat) = some s := by
  rw [stringOf, joinSurrogates_toNat, Option.map_some, String.ofList_toList]

lemma readString_quoted (s : String) (rest : List Char) :
    readString (quoted s ++ rest).tail = some (s.toList.map Char.toNat, rest) := by
  rw [quoted, List.cons_append, List.tail_cons, List.append_assoc]
  exact readsBack_escapeChar.readString s.toList rest

/-- A string is a document of its own. -/
lemma readDocument_quoted (depth fuel : Nat) (s : String) (rest : List Char) :
    readDocument depth (fuel + 1) (quoted s ++ rest) = some (.string s, rest) := by
  have hread := readString_quoted s rest
  rw [quoted, List.cons_append, List.tail_cons] at hread
  have hskip : skipBlanks (quoted s ++ rest) = quoted s ++ rest := rfl
  rw [readDocument, hskip, quoted, List.cons_append]
  simp only [hread, Option.map_some, stringOf_toNat, Json.orValueless]

/-- The code points of the name, and the value as a document. -/
def memberDocument (m : String × String) : List Nat × Document := (m.1.toList.map Char.toNat, .string m.2)

/-- A member is read, then what follows it decides. -/
lemma readMembers_memberChars (depth fuel : Nat) (m : String × String) (next : List Char) :
    readMembers depth (fuel + 2) (memberChars m ++ next) =
      match skipBlanks next with
      | '}' :: rest => some ([memberDocument m], rest)
      | ',' :: s => (readMembers depth (fuel + 1) s).map fun (ms, rest) => (memberDocument m :: ms, rest)
      | _ => none := by
  have hread := readString_quoted m.1 (':' :: (quoted m.2 ++ next))
  rw [quoted, List.cons_append, List.tail_cons] at hread
  have hskip : skipBlanks (memberChars m ++ next) = memberChars m ++ next := rfl
  have hcolon (s : List Char) : skipBlanks (':' :: s) = ':' :: s := rfl
  rw [readMembers, hskip, memberChars, quoted, List.append_assoc, List.cons_append, List.cons_append]
  simp only [hread, hcolon, readDocument_quoted]
  rfl

/-- The members of a line, up to the closing brace. Every one of them uses up one unit of the fuel. -/
lemma readMembers_joined (depth : Nat) {fuel : Nat} {m : String × String} {ms : List (String × String)}
    (hfuel : ms.length + 1 < fuel) (rest : List Char) :
    readMembers depth fuel (Json.joined ((m :: ms).map memberChars) ++ '}' :: rest) =
      some ((m :: ms).map memberDocument, rest) := by
  obtain ⟨fuel, rfl⟩ : ∃ n, fuel = n + 2 := ⟨fuel - 2, by omega⟩
  induction ms generalizing m fuel with
  | nil =>
    have hsingle : Json.joined ([m].map memberChars) = memberChars m := by simp [Json.joined]
    rw [hsingle, readMembers_memberChars]
    rfl
  | cons m' ms ih =>
    obtain ⟨fuel, rfl⟩ : ∃ n, fuel = n + 1 := ⟨fuel - 1, by rw [List.length_cons] at hfuel; omega⟩
    rw [List.map_cons, List.map_cons, Json.joined_cons_cons, List.append_assoc, readMembers_memberChars]
    have hcomma (s : List Char) : skipBlanks (',' :: s) = ',' :: s := rfl
    rw [List.cons_append, hcomma]
    simp only [← List.map_cons, ih (m := m') fuel (by rw [List.length_cons] at hfuel; omega), Option.map_some]

lemma namedMembers?_memberDocument (ms : List (String × String)) :
    Json.namedMembers? (ms.map memberDocument) = some (ms.map fun m => (m.1, .string m.2)) := by
  have hname : (fun m : String × String => (stringOf (memberDocument m).1).map (·, (memberDocument m).2)) =
      fun m => some (m.1, .string m.2) := by
    funext m
    rw [memberDocument, stringOf_toNat, Option.map_some]
  rw [Json.namedMembers?, List.mapM_map, Function.comp_def, hname]
  exact List.mapM_pure

lemma length_le_joined (ms : List (String × String)) : ms.length ≤ (Json.joined (ms.map memberChars)).length := by
  induction ms with
  | nil => simp
  | cons m ms ih =>
    cases ms with
    | nil => simp [Json.joined, memberChars, quoted]
    | cons m' ms =>
      rw [List.map_cons, List.map_cons, Json.joined_cons_cons, ← List.map_cons]
      simp only [List.length_cons, List.length_append] at ih ⊢
      omega

/-- Members in braces are an object, which needs one level of depth. -/
lemma readDocument_members (fuel : Nat) (m : String × String) (ms : List (String × String))
    (hfuel : ms.length + 1 < fuel) :
    readDocument Json.maxDepth (fuel + 1) ('{' :: (Json.joined ((m :: ms).map memberChars) ++ ['}'])) =
      some (.object ((m :: ms).map fun m => (m.1, .string m.2)), []) := by
  obtain ⟨t, ht⟩ : ∃ t, Json.joined ((m :: ms).map memberChars) ++ ['}'] = '"' :: t := by
    cases ms with
    | nil => exact ⟨_, by simp [Json.joined, memberChars, quoted]; rfl⟩
    | cons m' ms => exact ⟨_, by rw [List.map_cons, List.map_cons, Json.joined_cons_cons]; rfl⟩
  have hskip (s : List Char) : skipBlanks ('{' :: s) = '{' :: s := rfl
  have hskip' : skipBlanks ('"' :: t) = '"' :: t := rfl
  have hread := readMembers_joined (Json.maxDepth - 1) hfuel (m := m) []
  rw [ht] at hread ⊢
  rw [readDocument, hskip]
  simp only [hskip']
  refine (congrArg (Option.map _) hread).trans ?_
  rw [Option.map_some, if_neg (by decide), namedMembers?_memberDocument, Json.orValueless]

variable {severity : Severity} {title : String} {fields fields' sorted sorted' : List (String × String)}

/-- A line is one JSON object with its members. -/
theorem parse_line (severity : Severity) (title : String) (fields : List (String × String)) :
    Json.parse (line severity title fields) =
      some (.object ((lineMembers severity title fields).map fun m => (m.1, .string m.2))) := by
  obtain ⟨m, ms, hmembers⟩ : ∃ m ms, lineMembers severity title fields = m :: ms := ⟨_, _, rfl⟩
  have hline : (line severity title fields).toList = '{' :: (Json.joined ((m :: ms).map memberChars) ++ ['}']) := by
    rw [line, String.toList_ofList, hmembers]
    rfl
  have hlength : ms.length + 1 ≤ (Json.joined ((m :: ms).map memberChars)).length :=
    length_le_joined (m :: ms)
  rw [Json.parse, hline, hmembers]
  simp only [List.length_cons, List.length_append, List.length_nil]
  rw [readDocument_members _ m ms (by omega)]
  rfl

lemma lineFeed_not_mem_joined (ms : List (String × String)) : '\n' ∉ Json.joined (ms.map memberChars) := by
  have hquoted (s : String) : '\n' ∉ quoted s := by simp [quoted, lineFeed_not_mem_escapeChar]
  have hmember (m : String × String) : '\n' ∉ memberChars m := by simp [memberChars, hquoted]
  induction ms with
  | nil => simp [Json.joined]
  | cons m ms ih =>
    cases ms with
    | nil => simpa [Json.joined] using hmember m
    | cons m' ms =>
      rw [List.map_cons, List.map_cons, Json.joined_cons_cons, ← List.map_cons, List.mem_append, List.mem_cons]
      simp only [hmember, ih, or_false, false_or]
      decide

lemma lineFeed_not_mem_line : '\n' ∉ (line severity title fields).toList := by
  have hbody := lineFeed_not_mem_joined (lineMembers severity title fields)
  rw [Json.joined] at hbody
  simp [line, hbody]

/-- Named values in the order of their names. Values of one name keep their sequence. -/
structure SortedByName (fields sorted : List (String × String)) : Prop where
  pairwise : sorted.Pairwise fun f g => (compare f.1 g.1).isLE
  filter (name : String) : sorted.filter (·.1 = name) = fields.filter (·.1 = name)

/-- There is one way to sort. -/
lemma SortedByName.eq_of_same (h : SortedByName fields sorted) (h' : SortedByName fields sorted') :
    sorted = sorted' := by
  have hsame : ∀ name, sorted.filter (·.1 = name) = sorted'.filter (·.1 = name) := fun name =>
    (h.filter name).trans (h'.filter name).symm
  have hpairwise := h.pairwise
  have hpairwise' := h'.pairwise
  clear h h'
  induction sorted generalizing sorted' with
  | nil =>
    cases sorted' with
    | nil => rfl
    | cons g sorted' => simpa using hsame g.1
  | cons f sorted ih =>
    cases sorted' with
    | nil => simpa using hsame f.1
    | cons g sorted' =>
      obtain ⟨hf, hrest⟩ := List.pairwise_cons.1 hpairwise
      obtain ⟨hg, hrest'⟩ := List.pairwise_cons.1 hpairwise'
      have hmem : ∀ x, x ∈ f :: sorted ↔ x ∈ g :: sorted' := fun x => by
        simpa using congrArg (x ∈ ·) (hsame x.1)
      -- neither list can begin later than the other
      have hle : (compare f.1 g.1).isLE := by
        rcases List.mem_cons.1 ((hmem g).2 List.mem_cons_self) with rfl | hmem
        · simp [Std.ReflCmp.compare_self]
        · exact hf g hmem
      have hge : (compare g.1 f.1).isLE := by
        rcases List.mem_cons.1 ((hmem f).1 List.mem_cons_self) with rfl | hmem
        · simp [Std.ReflCmp.compare_self]
        · exact hg f hmem
      have hname : f.1 = g.1 := Std.compare_eq_iff_eq.1 (Std.OrientedCmp.isLE_antisymm hle hge)
      obtain ⟨rfl, -⟩ : f = g ∧ _ := by simpa [List.filter_cons, hname] using hsame g.1
      refine congrArg (f :: ·) (ih (fun name => ?_) hrest hrest')
      have := hsame name
      rw [List.filter_cons, List.filter_cons] at this
      split_ifs at this
      · exact (List.cons.inj this).2
      · exact this

lemma sortedByName_mergeSort (fields : List (String × String)) :
    SortedByName fields (fields.mergeSort fun a b => (compare a.1 b.1).isLE) where
  pairwise := pairwise_mergeSort (compareOn Prod.fst) fields
  filter name := by
    have hsame := filter_mergeSort (compareOn Prod.fst) fields (name, "")
    simpa only [compareOn, Std.compare_eq_iff_eq, eq_comm (a := name)] using hsame

/-- Fields of different names are sorted in one way, in whatever sequence they are given. -/
lemma SortedByName.of_perm (h : SortedByName fields sorted) (hperm : fields'.Perm fields)
    (hnames : (fields.map (·.1)).Nodup) : SortedByName fields' sorted where
  pairwise := h.pairwise
  filter name := by
    have hone : (fields.filter (·.1 = name)).length ≤ 1 := by
      rw [← List.countP_eq_length_filter]
      have := List.nodup_iff_count_le_one.1 hnames name
      rwa [List.count_eq_countP, List.countP_map] at this
    have hfilter := hperm.filter (·.1 = name)
    rw [h.filter name]
    -- at most one of them has this name
    generalize fields.filter (·.1 = name) = found at hone hfilter
    match found with
    | [] => exact hfilter.eq_nil.symm
    | [f] => exact hfilter.eq_singleton.symm
    | _ :: _ :: _ => simp at hone

/-- What a field stands for: a text for itself, the others for what the line is stamped with. -/
inductive Shows (stamp : Stamp) : FieldValue → String → Prop
  | text (value : String) : Shows stamp (.text value) value
  | executionId : Shows stamp .executionId stamp.executionId
  | elapsed : Shows stamp .elapsed stamp.elapsed

lemma values_eq_of_shows {stamp : Stamp} {entry : Entry}
    (h : List.Forall₂ (fun f g => f.1 = g.1 ∧ Shows stamp f.2 g.2) entry.fields fields) :
    entry.values stamp = fields := by
  have hone : ∀ (f : Field) (g : String × String), f.1 = g.1 ∧ Shows stamp f.2 g.2 → (f.1, f.2.resolve stamp) = g := by
    rintro ⟨name, value⟩ ⟨name', shown⟩ ⟨hname, hshows⟩
    obtain rfl : name = name' := hname
    cases hshows <;> rfl
  exact List.forall₂_eq_eq_eq ▸ List.forall₂_map_left_iff.2 (h.imp hone)

/-- The text of an entry is one line, whatever strings it is made of: its only line feed is at the end. The rest of
it is a JSON object that is read as the title, the severity and the fields, sorted by name, with every string as it
was given. The sequence of fields with different names does not matter. A journal gets this text for every entry
whose fields show these strings. -/
theorem text_is_one_object (severity : Severity) (title : String) (fields : List (String × String)) :
    ∃ line sorted, text severity title fields = line ++ "\n" ∧ '\n' ∉ line.toList ∧
      SortedByName fields sorted ∧
      Json.parse line = some (.object (("event", .string title) ::
        ("severity", .string severity.display) :: sorted.map fun f => (f.1, .string f.2))) ∧
      ((fields.map (·.1)).Nodup → ∀ fields', fields'.Perm fields →
        text severity title fields' = text severity title fields) ∧
      ∀ (stamp : Stamp) (entry : Entry), entry.severity = severity → entry.title = title →
        List.Forall₂ (fun f g => f.1 = g.1 ∧ Shows stamp f.2 g.2) entry.fields fields →
        entry.text stamp = text severity title fields := by
  refine ⟨line severity title fields, _, rfl, lineFeed_not_mem_line, sortedByName_mergeSort fields,
    parse_line severity title fields, fun hnames fields' hperm => ?_, ?_⟩
  · have hsorted := ((sortedByName_mergeSort fields).of_perm hperm hnames).eq_of_same (sortedByName_mergeSort fields')
    simp only [text, line, lineMembers, hsorted]
  · rintro stamp entry rfl rfl hshows
    rw [Entry.text, values_eq_of_shows hshows]

/-- A label that looks like the end of its line and the beginning of another one stays a label. -/
theorem text_is_one_object_label :
    let label := "\"\x7d\n\x7b\"event\":\""
    let fields := [("label", label), ("code", "\\u0085")]
    (fields.map (·.1)).Nodup ∧ ∃ line, text .warn "QUERY_REJECTED" fields = line ++ "\n" ∧ '\n' ∉ line.toList ∧
      Json.parse line = some (.object [("event", .string "QUERY_REJECTED"), ("severity", .string "WARN"),
        ("code", .string "\\u0085"), ("label", .string label)]) ∧
      text .warn "QUERY_REJECTED" fields.reverse = text .warn "QUERY_REJECTED" fields ∧
      (⟨.warn, "QUERY_REJECTED", [("label", .text label), ("code", .text "\\u0085")]⟩ : Entry).text ⟨"", ""⟩ =
        text .warn "QUERY_REJECTED" fields := by
  intro label fields
  have hnames : (fields.map (·.1)).Nodup := by decide +kernel
  obtain ⟨line, sorted, htext, hline, hsorted, hparse, hperm, hentry⟩ :=
    text_is_one_object .warn "QUERY_REJECTED" fields
  have hbyName : SortedByName fields [("code", "\\u0085"), ("label", label)] := by
    refine SortedByName.of_perm ⟨by decide +kernel, fun _ => rfl⟩ (List.Perm.swap ..) (by decide +kernel)
  obtain rfl := hsorted.eq_of_same hbyName
  exact ⟨hnames, line, htext, hline, hparse, hperm hnames _ (List.reverse_perm _),
    hentry _ _ rfl rfl (.cons ⟨rfl, .text _⟩ (.cons ⟨rfl, .text _⟩ .nil))⟩

end

end Tabulation.Journal
