import Mathlib.Logic.Function.Basic
import Mathlib.Tactic.Lemma
import Tabulation.Evaluation.ResultSet
import Tabulation.Plan.Compiler
import Tabulation.Proofs.Catalog.Path
import Tabulation.Proofs.Ordered

/-! The order of results: what it compares, and what sorting by it does. -/
namespace Tabulation
namespace Comparison
open Json (Number Value)

/-- The integer that a number is exactly. -/
def integer? : Number → Option Int
  | .integer n => some n
  | .real _ => none

/-- Numbers sort by their doubles, then by their integers; a number that is only a double comes before
those. -/
lemma sortNumbers_eq :
    sortNumbers = compareLex (compareOn fun n => floatRank n.toFloat) (compareOn integer?) := by
  funext m n
  cases m <;> cases n <;> rfl

instance : Std.TransCmp sortNumbers := sortNumbers_eq ▸ inferInstance

def truth : Value → Bool
  | .bool b => b
  | _ => false

/-- The number that a value is, and one number for all other values. -/
def numberOf : Value → Number
  | .number n => n
  | _ => .integer 0

/-- The text by which a value sorts within its type. -/
def sortText : Value → String
  | .string s => s
  | .array items => (Value.array items).text
  | .object members => (Value.object members).text
  | _ => ""

/-- Values sort by type, then by truth, by number and by text: within one type only one of these tells
values apart. -/
lemma sortValues_eq : sortValues =
    compareLex (compareOn typeRank) (compareLex (compareOn truth)
      (compareLex (fun a b => sortNumbers (numberOf a) (numberOf b)) (compareOn sortText))) := by
  have hzero : sortNumbers (.integer 0) (.integer 0) = .eq := Std.ReflCmp.compare_self
  funext a b
  cases a <;> cases b <;> first
    | rfl
    | simp [sortValues, compareLex, compareOn, typeRank, truth, numberOf, sortText, hzero]

instance : Std.TransCmp sortValues :=
  have : Std.TransCmp fun a b => sortNumbers (numberOf a) (numberOf b) :=
    { eq_swap := Std.OrientedCmp.eq_swap, isLE_trans := Std.TransCmp.isLE_trans }
  sortValues_eq ▸ inferInstance

end Comparison

namespace Evaluation
open Json (Value)
open Sorting (Direction NullPlacement)

/-- The order of values in a direction. -/
def directed : Direction → Value → Value → Ordering
  | .ascending, a, b => Comparison.sortValues a b
  | .descending, a, b => (Comparison.sortValues a b).swap

instance (direction : Direction) : Std.TransCmp (directed direction) := by
  cases direction with
  | ascending => exact inferInstanceAs (Std.TransCmp Comparison.sortValues)
  | descending =>
    have h : directed .descending = fun a b => Comparison.sortValues b a :=
      funext₂ fun _ _ => Std.OrientedCmp.eq_swap.symm
    exact h ▸ Std.TransCmp.opposite

/-- The order of cells; a cell that is null or missing is none. -/
def compareCells (direction : Direction) (nulls : NullPlacement) : Option Value → Option Value → Ordering
  | none, none => .eq
  | none, some _ => nulls.nullVersusValue direction
  | some _, none => (nulls.nullVersusValue direction).swap
  | some a, some b => directed direction a b

lemma nullVersusValue_eq_or (nulls : NullPlacement) (direction : Direction) :
    nulls.nullVersusValue direction = .lt ∨ nulls.nullVersusValue direction = .gt := by
  cases nulls <;> cases direction <;> decide

instance (direction : Direction) (nulls : NullPlacement) : Std.TransCmp (compareCells direction nulls) where
  eq_swap {a b} := by
    cases a <;> cases b <;> simp only [compareCells, Ordering.swap_swap]
    · rfl
    · exact Std.OrientedCmp.eq_swap
  isLE_trans {a b c} := by
    cases a <;> cases b <;> cases c
    case some.some.some a b c =>
      exact fun hab hbc => (Std.TransCmp.isLE_trans hab hbc : (directed direction a c).isLE)
    -- A null is on one side of all values, so that none stands between two of them.
    all_goals
      rcases nullVersusValue_eq_or nulls direction with h | h <;> simp [compareCells, h]

namespace SortKey

lemma compare_eq (key : SortKey) (s t : Tuple) :
    key.compare s t = compareCells key.direction key.nulls (key.cell? s) (key.cell? t) := by
  unfold SortKey.compare
  cases key.cell? s <;> cases key.cell? t <;> cases key.direction <;> rfl

instance (key : SortKey) : Std.TransCmp key.compare where
  eq_swap {s t} := by
    rw [compare_eq, compare_eq]
    exact Std.OrientedCmp.eq_swap
  isLE_trans {s t u} := by
    simp only [compare_eq]
    exact Std.TransCmp.isLE_trans

lemma compareAll_cons (key : SortKey) (keys : List SortKey) :
    compareAll (key :: keys) = compareLex key.compare (compareAll keys) := rfl

instance (keys : List SortKey) : Std.TransCmp (compareAll keys) := by
  induction keys with
  | nil => exact { eq_swap := rfl, isLE_trans := fun _ _ => rfl }
  | cons key keys ih => exact compareAll_cons key keys ▸ inferInstance

/-- No key tells the tuples apart. -/
def Tied (keys : List SortKey) (s t : Tuple) : Prop := ∀ key ∈ keys, key.compare s t = .eq

instance (keys : List SortKey) (s t : Tuple) : Decidable (Tied keys s t) :=
  inferInstanceAs (Decidable (∀ key ∈ keys, key.compare s t = .eq))

/-- The first key that tells the tuples apart, if there is one, has the first tuple before the second. -/
def InOrder (keys : List SortKey) (s t : Tuple) : Prop :=
  ∀ before key after, keys = before ++ key :: after → Tied before s t → key.compare s t ≠ .gt

lemma compareAll_eq_eq {keys : List SortKey} {s t : Tuple} : compareAll keys s t = .eq ↔ Tied keys s t := by
  induction keys with
  | nil => simp [compareAll, Tied]
  | cons key keys ih =>
    rw [compareAll_cons, compareLex, Ordering.then_eq_eq, ih]
    simp [Tied]

lemma inOrder_cons {key : SortKey} {keys : List SortKey} {s t : Tuple} : InOrder (key :: keys) s t ↔
    key.compare s t ≠ .gt ∧ (key.compare s t = .eq → InOrder keys s t) := by
  constructor
  · intro h
    refine ⟨h [] key keys rfl (by simp [Tied]), fun heq before k after hkeys htied => ?_⟩
    refine h (key :: before) k after (by rw [hkeys, List.cons_append]) fun k' hk' => ?_
    rcases List.mem_cons.1 hk' with rfl | hk'
    · exact heq
    · exact htied k' hk'
  · rintro ⟨hne, h⟩ before k after hkeys htied
    cases before with
    | nil =>
      obtain ⟨rfl, rfl⟩ := List.cons.inj hkeys
      exact hne
    | cons _ before =>
      obtain ⟨rfl, htail⟩ := List.cons.inj hkeys
      exact h (htied key List.mem_cons_self) before k after htail fun k' hk' =>
        htied k' (List.mem_cons_of_mem _ hk')

lemma isLE_compareAll {keys : List SortKey} {s t : Tuple} : (compareAll keys s t).isLE ↔ InOrder keys s t := by
  induction keys with
  | nil => simp [compareAll, InOrder]
  | cons key keys ih =>
    rw [inOrder_cons, compareAll_cons, compareLex, ← ih, Ordering.isLE_then_iff_and]
    cases key.compare s t <;> simp

/-! Sorting -/

lemma sort_perm (keys : List SortKey) (tuples : List Tuple) : (sort keys tuples).Perm tuples :=
  List.mergeSort_perm _ _

lemma sort_pairwise (keys : List SortKey) (tuples : List Tuple) :
    (sort keys tuples).Pairwise (InOrder keys) :=
  (pairwise_mergeSort (compareAll keys) tuples).imp isLE_compareAll.1

lemma filter_tied_sort (keys : List SortKey) (tuples : List Tuple) (t : Tuple) :
    (sort keys tuples).filter (Tied keys t ·) = tuples.filter (Tied keys t ·) := by
  simp only [← compareAll_eq_eq]
  exact filter_mergeSort (compareAll keys) tuples t

/-- A comparison that puts everything in its place: nothing stands before itself, an exchange of the two turns
the answer around, and what is not after something is not after anything that this is not after. -/
structure Consistent {α : Type} (cmp : α → α → Ordering) : Prop where
  self : ∀ a, cmp a a = .eq
  swap : ∀ a b, cmp b a = (cmp a b).swap
  trans : ∀ a b c, cmp a b ≠ .gt → cmp b c ≠ .gt → cmp a c ≠ .gt

lemma Consistent.of_transCmp {α : Type} (cmp : α → α → Ordering) [Std.TransCmp cmp] : Consistent cmp where
  self _ := Std.ReflCmp.compare_self
  swap _ _ := Std.OrientedCmp.eq_swap
  trans _ _ _ hab hbc := Ordering.isLE_iff_ne_gt.1 <|
    Std.TransCmp.isLE_trans (Ordering.isLE_iff_ne_gt.2 hab) (Ordering.isLE_iff_ne_gt.2 hbc)

end SortKey

/-! The order that the expressions of a plan ask for, each for its column. -/

/-- The cell in a column, if it has a value other than null. -/
def valueAt? (t : Tuple) (column : Nat) : Option Value := (t[column]?).filter (· ≠ .null)

/-- Cells without a value go first, or last, or count as the smallest ones. -/
def NullsFirst (direction : Direction) (nulls : NullPlacement) : Prop :=
  nulls = .first ∨ nulls = .smallest ∧ direction = .ascending

/-- The one cell comes before the other in a direction and with a placement of nulls. -/
inductive Before (direction : Direction) (nulls : NullPlacement) : Option Value → Option Value → Prop
  | ascending {a b : Value} (h : direction = .ascending) (smaller : Comparison.sortValues a b = .lt) :
      Before direction nulls (some a) (some b)
  | descending {a b : Value} (h : direction = .descending) (larger : Comparison.sortValues b a = .lt) :
      Before direction nulls (some a) (some b)
  | nullFirst {b : Value} (h : NullsFirst direction nulls) : Before direction nulls none (some b)
  | nullLast {a : Value} (h : ¬ NullsFirst direction nulls) : Before direction nulls (some a) none

/-- The expression at a position has the first tuple before the second one. -/
def BeforeAt (p : Plan) (i : Nat) (s t : Tuple) : Prop :=
  ∃ e column, p.ordering.exprs[i]? = some e ∧ p.orderColumns[i]? = some column ∧
    Before e.direction e.nulls (valueAt? s column) (valueAt? t column)

/-- The first expression that tells the tuples apart has the first one before the second one. -/
def Precedes (p : Plan) (s t : Tuple) : Prop :=
  ∃ i, BeforeAt p i s t ∧ ∀ j < i, ¬ BeforeAt p j s t ∧ ¬ BeforeAt p j t s

/-- No expression tells the tuples apart. -/
def Level (p : Plan) (s t : Tuple) : Prop := ∀ i, ¬ BeforeAt p i s t ∧ ¬ BeforeAt p i t s

lemma nullVersusValue_eq_lt_iff {direction : Direction} {nulls : NullPlacement} :
    nulls.nullVersusValue direction = .lt ↔ NullsFirst direction nulls := by
  cases nulls <;> cases direction <;> simp [NullPlacement.nullVersusValue, NullsFirst]

lemma directed_eq_lt_iff {direction : Direction} {a b : Value} : directed direction a b = .lt ↔
    direction = .ascending ∧ Comparison.sortValues a b = .lt ∨
      direction = .descending ∧ Comparison.sortValues b a = .lt := by
  cases direction with
  | ascending => simp [directed]
  | descending =>
    rw [directed, ← Std.OrientedCmp.eq_swap]
    simp

/-- Cells are compared as their direction and placement of nulls say. -/
lemma compareCells_eq_lt_iff {direction : Direction} {nulls : NullPlacement} {a b : Option Value} :
    compareCells direction nulls a b = .lt ↔ Before direction nulls a b := by
  constructor
  · intro h
    cases a with
    | none =>
      cases b with
      | none => cases h
      | some b => exact .nullFirst (nullVersusValue_eq_lt_iff.1 h)
    | some a =>
      cases b with
      | none =>
        refine .nullLast fun hfirst => ?_
        rw [compareCells, nullVersusValue_eq_lt_iff.2 hfirst] at h
        cases h
      | some b =>
        rcases directed_eq_lt_iff.1 h with ⟨hd, hab⟩ | ⟨hd, hba⟩
        · exact .ascending hd hab
        · exact .descending hd hba
  · intro h
    cases h with
    | ascending hd hab => exact directed_eq_lt_iff.2 (.inl ⟨hd, hab⟩)
    | descending hd hba => exact directed_eq_lt_iff.2 (.inr ⟨hd, hba⟩)
    | nullFirst hfirst => exact nullVersusValue_eq_lt_iff.2 hfirst
    | nullLast hlast =>
      have hgt := (nullVersusValue_eq_or nulls direction).resolve_left (hlast ∘ nullVersusValue_eq_lt_iff.1)
      rw [compareCells, hgt]
      rfl

namespace SortKey

lemma cell?_eq_valueAt? (key : SortKey) (t : Tuple) : key.cell? t = valueAt? t key.index := by
  unfold SortKey.cell? valueAt?
  cases h : t[key.index]? with
  | none => rfl
  | some v => cases v <;> simp [Option.filter]

lemma compare_eq_lt_iff (key : SortKey) (s t : Tuple) : key.compare s t = .lt ↔
    Before key.direction key.nulls (valueAt? s key.index) (valueAt? t key.index) := by
  rw [compare_eq, compareCells_eq_lt_iff, cell?_eq_valueAt?, cell?_eq_valueAt?]

lemma compare_eq_eq_iff (key : SortKey) (s t : Tuple) :
    key.compare s t = .eq ↔ key.compare s t ≠ .lt ∧ key.compare t s ≠ .lt := by
  have hswap : key.compare t s = (key.compare s t).swap := Std.OrientedCmp.eq_swap
  rw [hswap]
  cases key.compare s t <;> simp

/-- Under several keys the first one that tells tuples apart decides. -/
lemma compareAll_eq_lt_iff {keys : List SortKey} {s t : Tuple} : compareAll keys s t = .lt ↔
    ∃ (i : Nat) (key : SortKey), keys[i]? = some key ∧ key.compare s t = .lt ∧
      ∀ j < i, ∀ key' : SortKey, keys[j]? = some key' → key'.compare s t = .eq := by
  induction keys with
  | nil => simp [compareAll]
  | cons key keys ih =>
    rw [compareAll_cons, compareLex, Ordering.then_eq_lt, ih]
    constructor
    · rintro (hlt | ⟨heq, i, k, hk, hlt, hbefore⟩)
      · exact ⟨0, key, rfl, hlt, by simp⟩
      · refine ⟨i + 1, k, hk, hlt, fun j hj k' hk' => ?_⟩
        cases j with
        | zero =>
          obtain rfl : key = k' := by simpa using hk'
          exact heq
        | succ j => exact hbefore j (by omega) k' hk'
    · rintro ⟨i, k, hk, hlt, hbefore⟩
      cases i with
      | zero =>
        obtain rfl : key = k := by simpa using hk
        exact .inl hlt
      | succ i =>
        exact .inr ⟨hbefore 0 (by omega) key rfl, i, k, hk, hlt,
          fun j hj k' hk' => hbefore (j + 1) (by omega) k' hk'⟩

end SortKey

variable {p : Plan} {s t : Tuple}

lemma getElem?_sortKeys (p : Plan) (i : Nat) : p.sortKeys[i]? =
    (p.ordering.exprs[i]?.bind fun e => p.orderColumns[i]?.map fun column => ⟨column, e.direction, e.nulls⟩) := by
  rw [Plan.sortKeys, List.getElem?_map, List.zip, List.getElem?_zipWith]
  cases p.ordering.exprs[i]? <;> cases p.orderColumns[i]? <;> rfl

lemma beforeAt_iff {i : Nat} :
    BeforeAt p i s t ↔ ∃ key, p.sortKeys[i]? = some key ∧ key.compare s t = .lt := by
  simp only [BeforeAt, getElem?_sortKeys, Option.bind_eq_some_iff, Option.map_eq_some_iff]
  constructor
  · rintro ⟨e, column, he, hcolumn, h⟩
    exact ⟨_, ⟨e, he, column, hcolumn, rfl⟩, (SortKey.compare_eq_lt_iff ..).2 h⟩
  · rintro ⟨_, ⟨e, he, column, hcolumn, rfl⟩, h⟩
    exact ⟨e, column, he, hcolumn, (SortKey.compare_eq_lt_iff ..).1 h⟩

lemma forall_compare_eq_iff {i : Nat} : (∀ key, p.sortKeys[i]? = some key → key.compare s t = .eq) ↔
    ¬ BeforeAt p i s t ∧ ¬ BeforeAt p i t s := by
  simp only [beforeAt_iff, not_exists, not_and, SortKey.compare_eq_eq_iff, forall_and, ← ne_eq]

lemma compareAll_sortKeys_eq_lt_iff : SortKey.compareAll p.sortKeys s t = .lt ↔ Precedes p s t := by
  simp only [SortKey.compareAll_eq_lt_iff, forall_compare_eq_iff, Precedes]
  refine exists_congr fun i => ?_
  rw [beforeAt_iff (i := i)]
  simp only [exists_and_right, ← and_assoc]

lemma compareAll_sortKeys_eq_eq_iff : SortKey.compareAll p.sortKeys s t = .eq ↔ Level p s t := by
  rw [SortKey.compareAll_eq_eq]
  simp only [Level, ← forall_compare_eq_iff, SortKey.Tied, List.mem_iff_getElem?]
  exact ⟨fun h i key hkey => h key ⟨i, hkey⟩, fun h key ⟨i, hkey⟩ => h i key hkey⟩

instance (p : Plan) (s t : Tuple) : Decidable (Level p s t) :=
  decidable_of_iff _ compareAll_sortKeys_eq_eq_iff

/-- Sorting rearranges the tuples so that none comes after another one that it precedes: the first ordering
expression of the plan that tells the two apart has them in this sequence, by the cells in its column, in its
direction and with its placement of nulls. Tuples that no expression tells apart keep their sequence. What decides
is consistent: the comparison of values of any types, the comparison of tuples of any lengths under any key, where
a cell that is null or missing has its place before or after all values, and under any number of keys. -/
theorem SortKey.sort_orders_stably (p : Plan) (tuples : List Tuple) :
    (sort p.sortKeys tuples).Perm tuples ∧
    (sort p.sortKeys tuples).Pairwise (fun s t => ¬ Precedes p t s) ∧
    (∀ t, (sort p.sortKeys tuples).filter (Level p t ·) = tuples.filter (Level p t ·)) ∧
    (∀ s t, (compareAll p.sortKeys s t = .lt ↔ Precedes p s t) ∧ (compareAll p.sortKeys s t = .eq ↔ Level p s t)) ∧
    Consistent Comparison.sortValues ∧
    (∀ key : SortKey, Consistent key.compare ∧ ∀ s t, key.compare s t = .lt ↔
      Before key.direction key.nulls (valueAt? s key.index) (valueAt? t key.index)) ∧
    ∀ keys : List SortKey, Consistent (compareAll keys) := by
  refine ⟨sort_perm _ _, ?_, fun t => ?_, fun s t => ⟨compareAll_sortKeys_eq_lt_iff, compareAll_sortKeys_eq_eq_iff⟩,
    .of_transCmp _, fun key => ⟨.of_transCmp _, compare_eq_lt_iff key⟩, fun _ => .of_transCmp _⟩
  · refine (sort_pairwise p.sortKeys tuples).imp fun {s t} hle hafter => ?_
    have hlt := compareAll_sortKeys_eq_lt_iff.2 hafter
    have hswap : compareAll p.sortKeys t s = (compareAll p.sortKeys s t).swap := Std.OrientedCmp.eq_swap
    rw [hswap, Ordering.swap_eq_lt] at hlt
    have := isLE_compareAll.2 hle
    simp [hlt] at this
  · have hfilter := filter_tied_sort p.sortKeys tuples t
    simpa only [← compareAll_eq_eq, compareAll_sortKeys_eq_eq_iff] using hfilter

/-- Teams with the states of their tickets, by state from the last one on, without a state at the end, and then by
team. -/
def statesOfTeams : Query.Model where
  involved := (Query.Involved.add {} .axis "Team").add .axis "Ticket"
  projections := [⟨"TEAM_NAME", none⟩, ⟨"TICKET_STATE", none⟩]
  orderings := [⟨"TICKET_STATE", .descending, .nullsLast⟩, ⟨"TEAM_NAME", .ascending, .native⟩]

/-- What is open comes before what is closed and this before what has no state; a tuple without a second cell is on
a level with one whose second cell is null, and stays after it. -/
theorem SortKey.sort_orders_stably_statesOfTeams : ∃ catalog p, Catalog.build Catalog.helpDesk = .ok catalog ∧
    Plan.compile catalog statesOfTeams .unrestricted [] = .ok p ∧
    let tuples : List Tuple := [[.string "red", .string "closed"], [.string "blue", .null],
      [.string "red", .string "open"], [.string "blue"], [.string "blue", .string "open"]]
    (sort p.sortKeys tuples).Perm tuples ∧ (sort p.sortKeys tuples).Pairwise (fun s t => ¬ Precedes p t s) ∧
    Precedes p [.string "blue", .string "open"] [.string "red", .string "open"] ∧
    Precedes p [.string "red", .string "open"] [.string "red", .string "closed"] ∧
    Precedes p [.string "red", .string "closed"] [.string "blue", .null] ∧
    (sort p.sortKeys tuples).filter (Level p [.string "blue", .null] ·) =
      [[.string "blue", .null], [.string "blue"]] := by
  obtain ⟨catalog, hbuild, hcompile⟩ : ∃ catalog, Catalog.build Catalog.helpDesk = .ok catalog ∧
      (Plan.compile catalog statesOfTeams .unrestricted []).toOption.any fun p =>
        p.sortKeys = [⟨1, .descending, .last⟩, ⟨0, .ascending, .smallest⟩] :=
    Outcome.exists_of_any (by decide +kernel)
  obtain ⟨p, hp, hkeys⟩ := Outcome.exists_of_any hcompile
  have hkeys := of_decide_eq_true hkeys
  refine ⟨catalog, p, hbuild, hp, ?_⟩
  intro tuples
  obtain ⟨hperm, hsorted, hlevel, hplace, -⟩ := sort_orders_stably p tuples
  refine ⟨hperm, hsorted, (hplace ..).1.1 ?_, (hplace ..).1.1 ?_, (hplace ..).1.1 ?_, (hlevel _).trans ?_⟩
  · rw [hkeys]
    decide
  · rw [hkeys]
    decide
  · rw [hkeys]
    decide
  · simp only [← (hplace ..).2, hkeys]
    decide

end Evaluation
end Tabulation
