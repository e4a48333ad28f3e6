import Mathlib.Algebra.Order.BigOperators.Group.List
import Mathlib.Algebra.Order.Ring.Nat
import Mathlib.Data.List.Basic
import Mathlib.Tactic.Lemma
import Mathlib.Tactic.SplitIfs
import Tabulation.Proofs.Pattern.Translation

/-! How large the automaton of a wildcard pattern can be: its memory is bounded for each part, so a pattern that
is not very long is never refused. -/
namespace Tabulation.Pattern

namespace SharedStates

/-- The memory of states and of their branches. -/
def memory (states : SharedStates) : Nat := (states.toList.map fun s => 32 + 8 * s.1.length).sum

lemma fold_eq (states : SharedStates) (n : Nat) :
    states.fold (fun n branches _ => n + 32 + 8 * branches.length) n = n + states.memory := by
  rw [Std.HashMap.fold_eq_foldl_toList, memory]
  induction states.toList generalizing n with
  | nil => rfl
  | cons s l ih =>
    rw [List.foldl_cons, ih, List.map_cons, List.sum_cons]
    omega

lemma memory_insert {states : SharedStates} {branches : List (ByteRange × Nat)} (h : states[branches]? = none)
    (state : Nat) : memory (states.insert branches state) = states.memory + (32 + 8 * branches.length) := by
  have hold : states.toList.filter (fun s => ¬ branches == s.1) = states.toList := by
    refine List.filter_eq_self.2 fun s hs => ?_
    rw [decide_eq_true_eq, beq_iff_eq]
    rintro rfl
    rw [Std.HashMap.mem_toList_iff_getElem?_eq_some.1 hs] at h
    cases h
  have hperm := (Std.HashMap.toList_insert_perm (m := states) (k := branches) (v := state)).map fun s =>
    32 + 8 * s.1.length
  rw [memory, hperm.sum_eq, hold, List.map_cons, List.sum_cons, memory, Nat.add_comm]

/-- Adds the branch of one group, and enters the states that it leads to. -/
def enterGroup (depth : Nat) (entered : List (ByteRange × Nat) × SharedStates)
    (group : ByteRange × List (List ByteRange)) : List (ByteRange × Nat) × SharedStates :=
  if group.2 = [[]] then ((group.1, 0) :: entered.1, entered.2)
  else
    ((group.1, (enterState depth group.2 entered.2).1) :: entered.1, (enterState depth group.2 entered.2).2)

lemma enterState_succ (depth : Nat) (sequences : List (List ByteRange)) (states : SharedStates) :
    enterState (depth + 1) sequences states =
      let entered := (groupByFirst sequences).foldl (enterGroup depth) ([], states)
      match entered.2[entered.1]? with
      | some state => (state, entered.2)
      | none => (entered.2.size + 1, entered.2.insert entered.1 (entered.2.size + 1)) := rfl

/-- A bound for the memory of the states from which sequences are read, as if none of them were shared. -/
def bound : (depth : Nat) → List (List ByteRange) → Nat
  | 0, _ => 0
  | depth + 1, sequences => 32 + ((groupByFirst sequences).map fun group => 8 + bound depth group.2).sum

lemma memory_foldl_enterGroup_le {depth : Nat}
    (h : ∀ sequences states,
      memory (enterState depth sequences states).2 ≤ memory states + bound depth sequences)
    (groups : List (ByteRange × List (List ByteRange))) (entered : List (ByteRange × Nat) × SharedStates) :
    memory (groups.foldl (enterGroup depth) entered).2 + 8 * (groups.foldl (enterGroup depth) entered).1.length ≤
      memory entered.2 + 8 * entered.1.length + (groups.map fun group => 8 + bound depth group.2).sum := by
  induction groups generalizing entered with
  | nil => exact Nat.le_refl _
  | cons group groups ih =>
    have hone : memory (enterGroup depth entered group).2 ≤ memory entered.2 + bound depth group.2 ∧
        (enterGroup depth entered group).1.length = entered.1.length + 1 := by
      unfold enterGroup
      split_ifs
      · exact ⟨Nat.le_add_right _ _, rfl⟩
      · exact ⟨h _ _, rfl⟩
    have hrest := ih (enterGroup depth entered group)
    rw [List.foldl_cons, List.map_cons, List.sum_cons]
    omega

lemma memory_enterState_le (depth : Nat) (sequences : List (List ByteRange)) (states : SharedStates) :
    memory (enterState depth sequences states).2 ≤ memory states + bound depth sequences := by
  induction depth generalizing sequences states with
  | zero => exact Nat.le_refl _
  | succ depth ih =>
    have hgroups := memory_foldl_enterGroup_le ih (groupByFirst sequences) ([], states)
    simp only [List.length_nil] at hgroups
    rw [enterState_succ, bound]
    dsimp only
    split
    · dsimp only
      omega
    · rename_i hnew
      rw [memory_insert hnew]
      omega

end SharedStates

lemma CharSet.memory_forwards_le (s : CharSet) : CharSet.memory.several .forwards s ≤
    64 + 8 * s.ranges.length + SharedStates.bound 4 (s.ranges.flatMap spellings) := by
  unfold CharSet.memory.several
  split_ifs
  · exact Nat.le_add_right _ _
  · have hstates := SharedStates.memory_enterState_le 4 (s.ranges.flatMap spellings) ∅
    have hempty : SharedStates.memory ∅ = 0 := by simp [SharedStates.memory]
    dsimp only
    rw [SharedStates.fold_eq]
    omega

namespace Regex

lemma memory_sequence_le (d : Direction) (rs : List Regex) :
    (sequence rs).memory d ≤ 32 + (rs.map (memory d)).sum := by
  induction rs with
  | nil => exact Nat.le_refl _
  | cons r rs ih =>
    rw [List.map_cons, List.sum_cons]
    unfold sequence
    split
    · omega
    · omega
    · rw [memory]
      omega

end Regex

namespace Wildcard

/-- No part of a pattern takes more than 1248 bytes. -/
lemma memory_part_le (d : Direction) (c : Char) : (part c).regex.memory d ≤ 1248 := by
  have hany : inLine.memory d ≤ 1136 := by
    have hranges : inLine.ranges = [(0, 9), (11, 0x10FFFF)] := by decide
    cases d with
    | forwards =>
      refine (CharSet.memory_forwards_le _).trans ?_
      rw [hranges]
      decide
    | backwards => decide
  unfold part
  split
  · have hrun : (Part.times ⟨.one inLine, 0, []⟩ 0 none).regex = .repeated 0 none (.one inLine) := rfl
    rw [hrun]
    simp only [Regex.memory]
    split_ifs <;> omega
  · exact hany.trans (by omega)
  · have hbytes : CharSet.byteCount c.toNat ≤ 4 := by
      unfold CharSet.byteCount
      split_ifs <;> omega
    have hmemory : (Regex.one (.range c c)).memory d = 32 * CharSet.byteCount c.toNat := by
      simp [Regex.memory, CharSet.memory, CharSet.range]
    dsimp only
    omega

/-- A pattern of at most eight thousand characters is not too large. -/
theorem fits_whole_of_length_le {pattern : List Char} (h : pattern.length ≤ 8000) : (whole pattern).fits := by
  have hparts : ∀ d, ((pattern.map part).map fun p => p.regex.memory d).sum ≤ pattern.length * 1248 := fun d => by
    have hsum := List.sum_le_card_nsmul ((pattern.map part).map fun p => p.regex.memory d) 1248 (by
      rw [List.map_map, List.forall_mem_map]
      exact fun c _ => memory_part_le d c)
    simpa using hsum
  have hmemory : ∀ d, (whole pattern).automatonMemory d ≤ Regex.maxMemory := by
    intro d
    have hwhole := Regex.memory_sequence_le d ((parts pattern).map (·.regex))
    have hanchor : ∀ a, (anchor a).regex.memory d = 32 := fun _ => rfl
    simp only [parts, List.map_cons, List.map_append, List.map_nil, List.sum_cons, List.sum_append, List.sum_nil,
      List.map_map, Function.comp_def, hanchor] at hwhole
    have hd := hparts d
    rw [List.map_map, Function.comp_def] at hd
    unfold Regex.automatonMemory Regex.maxMemory whole parts
    simp only [List.map_cons, List.map_append, List.map_nil, List.map_map, Function.comp_def]
    split_ifs <;> omega
  rw [Regex.fits, decide_eq_true_eq]
  exact ⟨hmemory .forwards, hmemory .backwards⟩

end Wildcard
end Tabulation.Pattern
