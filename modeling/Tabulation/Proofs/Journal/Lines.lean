import Mathlib.Data.List.Nodup
import Mathlib.Tactic.Lemma
import Tabulation.Journal.Entry

/-! How many lines of a journal are about an event. An entry of the event counts once, and the entries
of a span, which have titles of their own, do not count at all. -/
namespace Tabulation.Journal

/-- How many lines an event has if entries are written from `TRACE` on. -/
def lineCount (event : Event) (entries : List Entry) : Nat :=
  (written .trace entries).countP fun e => e.title = event.name

lemma written_trace (entries : List Entry) : written .trace entries = entries :=
  List.filter_eq_self.2 fun e _ => decide_eq_true (Nat.zero_le e.severity.rank)

lemma Event.mem_all (e : Event) : e ∈ Event.all := by cases e <;> decide

lemma Event.name_injective : Function.Injective Event.name := by
  have hnodup : (Event.all.map Event.name).Nodup := by decide +kernel
  exact fun e e' h => List.inj_on_of_nodup_map hnodup e.mem_all e'.mem_all h

/-- The entries of a span are told from those of any event by their titles. -/
lemma Event.name_append_ne (e event : Event) {suffix : String}
    (h : suffix ∈ ["_BEGIN", "_COMPLETE", "_FAILED"]) : e.name ++ suffix ≠ event.name := by
  have hne : ∀ e ∈ Event.all, ∀ event ∈ Event.all, ∀ suffix ∈ ["_BEGIN", "_COMPLETE", "_FAILED"],
      e.name ++ suffix ≠ event.name := by decide +kernel
  exact hne e e.mem_all event event.mem_all suffix h

section

variable (event : Event)

@[simp] lemma lineCount_nil : lineCount event [] = 0 := rfl

@[simp] lemma lineCount_append (entries more : List Entry) :
    lineCount event (entries ++ more) = lineCount event entries + lineCount event more := by
  simp only [lineCount, written_trace, List.countP_append]

lemma lineCount_cons (e : Entry) (entries : List Entry) : lineCount event (e :: entries) =
    (if e.title = event.name then 1 else 0) + lineCount event entries := by
  simp [lineCount, written_trace, List.countP_cons, Nat.add_comm]

@[simp] lemma lineCount_entry (e : Event) (fields : List Field) (entries : List Entry) :
    lineCount event (e.entry fields :: entries) =
      (if e = event then 1 else 0) + lineCount event entries := by
  simp only [lineCount_cons, Event.entry, Event.name_injective.eq_iff]

variable (s : Span) (entries : List Entry)

@[simp] lemma lineCount_opened :
    lineCount event (s.opened :: entries) = lineCount event entries := by
  have hne : s.opened.title ≠ event.name := s.event.name_append_ne event (by decide)
  rw [lineCount_cons, if_neg hne, Nat.zero_add]

@[simp] lemma lineCount_completed (extra : List Field) :
    lineCount event (s.completed extra :: entries) = lineCount event entries := by
  have hne : (s.completed extra).title ≠ event.name := s.event.name_append_ne event (by decide)
  rw [lineCount_cons, if_neg hne, Nat.zero_add]

@[simp] lemma lineCount_failed (code reason : String) :
    lineCount event (s.failed code reason :: entries) = lineCount event entries := by
  have hne : (s.failed code reason).title ≠ event.name := s.event.name_append_ne event (by decide)
  rw [lineCount_cons, if_neg hne, Nat.zero_add]

end

end Tabulation.Journal
