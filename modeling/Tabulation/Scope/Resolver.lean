import Tabulation.Scope.Permission

/-! Resolving a scope: the leaves that can be reached from it through containers and that the
caller may read. -/
namespace Tabulation.Scope

/-- The entities that exist: containers with their direct children, and leaves. -/
structure Directory where
  containers : List (Reference × List Reference)
  isLeaf : Reference → Bool

/-- What a reference points at. -/
inductive Entry where
  | leaf
  | container (children : List Reference)
deriving DecidableEq, Repr

/-- A container is found before a leaf of the same type and identifier. -/
def Directory.lookup (d : Directory) (r : Reference) : Option Entry :=
  match d.containers.lookup r with
  | some children => some (.container children)
  | none => if d.isLeaf r then some .leaf else none

theorem Directory.containers_lookup {d : Directory} {r : Reference} {children : List Reference}
    (h : d.lookup r = some (.container children)) : d.containers.lookup r = some children := by
  unfold lookup at h
  split at h
  · simp_all
  · split at h <;> simp at h

/-- What happened to a reference that is neither a container nor seen before. -/
inductive Visit where
  /-- It points at nothing and is dropped. -/
  | dropped (reference : Reference)
  /-- The caller may read it. -/
  | granted (leaf : Reference)
  /-- The caller may not read it. -/
  | denied (leaf : Reference)
deriving DecidableEq, Repr

/-- The leaf that permission was asked for, with the answer. -/
def Visit.question? : Visit → Option (Reference × Bool)
  | .dropped _ => none
  | .granted leaf => some (leaf, true)
  | .denied leaf => some (leaf, false)

def Visit.isDropped : Visit → Bool
  | .dropped _ => true
  | _ => false

def Visit.isDenied : Visit → Bool
  | .denied _ => true
  | _ => false

/-- How many references are held by the containers that have not been opened. -/
def unopenedSize (seen : List Reference) : (containers : List (Reference × List Reference)) → Nat
  | [] => 0
  | (r, children) :: cs => (if r ∈ seen then 0 else children.length) + unopenedSize seen cs

theorem unopenedSize_cons_le (seen : List Reference) (r : Reference)
    (containers : List (Reference × List Reference)) :
    unopenedSize (r :: seen) containers ≤ unopenedSize seen containers := by
  induction containers with
  | nil => exact Nat.le_refl 0
  | cons c cs ih =>
    simp only [unopenedSize, List.mem_cons]
    by_cases hc : c.1 ∈ seen
    · simpa [hc] using ih
    · simp only [hc, or_false, if_false]
      split <;> omega

theorem unopenedSize_cons_add_le {seen : List Reference} {r : Reference}
    {containers : List (Reference × List Reference)} {children : List Reference}
    (hr : r ∉ seen) (h : containers.lookup r = some children) :
    unopenedSize (r :: seen) containers + children.length ≤ unopenedSize seen containers := by
  induction containers with
  | nil => simp at h
  | cons c cs ih =>
    rw [List.lookup_cons] at h
    by_cases hrc : r = c.1
    · subst hrc
      simp only [beq_self_eq_true, Option.some.injEq] at h
      have := unopenedSize_cons_le seen c.1 cs
      simp only [unopenedSize, List.mem_cons, true_or, if_true, hr, if_false, h]
      omega
    · have hb : (r == c.1) = false := by simpa using hrc
      rw [hb] at h
      have := ih h
      have hne : c.1 ≠ r := fun e => hrc e.symm
      simp only [unopenedSize, List.mem_cons, hne, false_or]
      omega

section

variable {m : Type → Type} [Monad m]

/-- Visits what is pending, first things first, and asks whether each leaf may be read; the children of a
container come before what is pending already. What has been seen is passed over, so that containers may hold
one another: each is opened once at most, and every round uses up a pending reference or opens a container. -/
def visitAsking (d : Directory) (ask : Reference → m Bool) (seen : List Reference) :
    (pending : List Reference) → m (List Visit)
  | [] => pure []
  | r :: rest =>
    if _hr : r ∈ seen then visitAsking d ask seen rest
    else
      match _h : d.lookup r with
      | some (.container children) => visitAsking d ask (r :: seen) (children ++ rest)
      | some .leaf => do
        let granted ← ask r
        let visits ← visitAsking d ask (r :: seen) rest
        return (if granted then .granted r else .denied r) :: visits
      | none => do
        let visits ← visitAsking d ask (r :: seen) rest
        return .dropped r :: visits
termination_by pending => unopenedSize seen d.containers + pending.length
decreasing_by
  · simp
  · have := unopenedSize_cons_add_le _hr (Directory.containers_lookup _h)
    simp only [List.length_append, List.length_cons]
    omega
  all_goals
    have := unopenedSize_cons_le seen r d.containers
    simp only [List.length_cons]
    omega

end

/-- What is visited if an oracle is asked. -/
def visit (d : Directory) (oracle : Oracle) (caller : Identity) (seen pending : List Reference) : List Visit :=
  Id.run (visitAsking d (fun r => pure (oracle caller r)) seen pending)

/-- A resolved scope with what was visited on the way. -/
structure Resolution where
  scope : Resolved
  visits : List Visit

namespace Resolution

def droppedCount (r : Resolution) : Nat := r.visits.countP Visit.isDropped

def deniedCount (r : Resolution) : Nat := r.visits.countP Visit.isDenied

end Resolution

/-- The leaves that were granted. -/
def grantedLeaves (visits : List Visit) : IdsByType :=
  visits.foldl (fun leaves v =>
    match v with
    | .granted leaf => leaves.add leaf
    | _ => leaves) ∅

/-- Resolves the references of a scope. No references mean no restriction, and no question is asked; otherwise the
scope stays restricted even if nothing is left of it. -/
def resolveAsking {m : Type → Type} [Monad m] (d : Directory) (ask : Reference → m Bool)
    (scope : Option (List Reference)) : m Resolution :=
  match scope with
  | none | some [] => return ⟨.unrestricted, []⟩
  | some references => do
    let visits ← visitAsking d ask [] references
    return ⟨.restricted (grantedLeaves visits), visits⟩

/-- Resolves the references of a scope for a caller, with an oracle that is asked what the caller may read. -/
def resolve (d : Directory) (oracle : Oracle) (scope : Option (List Reference)) (caller : Identity) : Resolution :=
  Id.run (resolveAsking d (fun r => pure (oracle caller r)) scope)

end Tabulation.Scope
