import DomesdayDuplicator.Foundations.Execution
import Mathlib.Data.List.Induction

/-!
# Rules about a log of events

A rule judges one event by what came before it; a log keeps it when every one of
its events does. What is owed was opened and not settled since; the latest event of
a kind is the one with none of its kind after it.
-/

namespace EventLog

open Execution

universe u v w

variable {α : Type u}

/-- Every event meets the rule, given the events before it. -/
def Each (rule : List α → α → Prop) (log : List α) : Prop :=
  ∀ before e after, log = before ++ e :: after → rule before e

def Happened (kind : α → Prop) (log : List α) : Prop := ∃ e ∈ log, kind e

/-- Opened, and not settled since. -/
def Owing (opens settles : α → Prop) (log : List α) : Prop :=
  ∃ before e after, log = before ++ e :: after ∧ opens e ∧ ∀ d ∈ after, ¬ settles d

/-- The last event of a kind. -/
def Latest (kind : α → Prop) (log : List α) (e : α) : Prop :=
  ∃ before after, log = before ++ e :: after ∧ kind e ∧ ∀ d ∈ after, ¬ kind d

variable {rule : List α → α → Prop} {opens settles kind : α → Prop} {log : List α} {d e : α}

/-- The last place of a log that grew by one event is the new event or an old place. -/
theorem snoc_eq {before after : List α} (h : log ++ [d] = before ++ e :: after) :
    (before = log ∧ e = d ∧ after = []) ∨
      ∃ rest, after = rest ++ [d] ∧ log = before ++ e :: rest := by
  rcases List.eq_nil_or_concat after with rfl | ⟨rest, last, rfl⟩
  · obtain ⟨same, last⟩ := List.append_inj' h (by simp)
    exact Or.inl ⟨same.symm, by simpa using last.symm, rfl⟩
  · have parts : log ++ [d] = (before ++ e :: rest) ++ [last] := by simpa using h
    obtain ⟨same, last⟩ := List.append_inj' parts (by simp)
    exact Or.inr ⟨rest, by simpa using last.symm, same⟩

@[simp] theorem not_happened_nil : ¬ Happened kind ([] : List α) := by
  simp [Happened]

theorem happened_snoc : Happened kind (log ++ [d]) ↔ Happened kind log ∨ kind d := by
  simp only [Happened, List.mem_append, List.mem_singleton]
  constructor
  · rintro ⟨e, older | rfl, found⟩
    · exact Or.inl ⟨e, older, found⟩
    · exact Or.inr found
  · rintro (⟨e, older, found⟩ | found)
    · exact ⟨e, Or.inl older, found⟩
    · exact ⟨d, Or.inr rfl, found⟩

@[simp] theorem not_owing_nil : ¬ Owing opens settles ([] : List α) := by
  rintro ⟨before, e, after, h, -⟩
  simp at h

theorem owing_snoc :
    Owing opens settles (log ++ [d]) ↔ opens d ∨ (Owing opens settles log ∧ ¬ settles d) := by
  constructor
  · rintro ⟨before, e, after, h, opened, quiet⟩
    rcases snoc_eq h with ⟨-, rfl, -⟩ | ⟨rest, rfl, rfl⟩
    · exact Or.inl opened
    · exact Or.inr ⟨⟨before, e, rest, rfl, opened, fun d hd => quiet d (by simp [hd])⟩,
        quiet d (by simp)⟩
  · rintro (opened | ⟨⟨before, e, after, rfl, opened, quiet⟩, last⟩)
    · exact ⟨log, d, [], rfl, opened, by simp⟩
    · refine ⟨before, e, after ++ [d], by simp, opened, ?_⟩
      intro x hx
      rcases List.mem_append.mp hx with hx | hx
      · exact quiet x hx
      · simpa [List.mem_singleton.mp hx] using last

theorem Owing.mono {opens' : α → Prop} (h : Owing opens settles log)
    (weaker : ∀ e, opens e → opens' e) : Owing opens' settles log := by
  obtain ⟨before, e, after, split, opened, quiet⟩ := h
  exact ⟨before, e, after, split, weaker e opened, quiet⟩

/-- Read off the log from its beginning. -/
def owes (opens settles : α → Bool) (log : List α) : Bool :=
  log.foldl (fun owed e => opens e || (owed && !settles e)) false

theorem owing_iff_owes [DecidablePred opens] [DecidablePred settles] :
    Owing opens settles log ↔ owes (fun e => opens e) (fun e => settles e) log = true := by
  induction log using List.reverseRecOn with
  | nil => simp [owes]
  | append_singleton log d ih =>
    rw [owing_snoc, ih]
    simp [owes, List.foldl_append]

instance [DecidablePred opens] [DecidablePred settles] : Decidable (Owing opens settles log) :=
  decidable_of_iff _ owing_iff_owes.symm

theorem latest_snoc :
    Latest kind (log ++ [d]) e ↔ (kind d ∧ e = d) ∨ (¬ kind d ∧ Latest kind log e) := by
  constructor
  · rintro ⟨before, after, h, found, quiet⟩
    rcases snoc_eq h with ⟨-, rfl, -⟩ | ⟨rest, rfl, rfl⟩
    · exact Or.inl ⟨found, rfl⟩
    · exact Or.inr ⟨quiet d (by simp), before, rest, rfl, found,
        fun x hx => quiet x (by simp [hx])⟩
  · rintro (⟨found, rfl⟩ | ⟨other, before, after, rfl, found, quiet⟩)
    · exact ⟨log, [], rfl, found, by simp⟩
    · refine ⟨before, after ++ [d], by simp, found, ?_⟩
      intro x hx
      rcases List.mem_append.mp hx with hx | hx
      · exact quiet x hx
      · simpa [List.mem_singleton.mp hx] using other

variable {State : Type u} {Action : Type v} {Event : Type w}
variable {m : Machine State Action Event} {allowed : State → Action → Prop}

/-- A rule that every step obeys from the invariant holds of every run. -/
theorem each_of_run {rule : List Event → Event → Prop} (Inv : List Event → State → Prop)
    {s t : State} {es : List Event} (run : Run m allowed s es t) (base : Inv [] s)
    (keeps : ∀ es s a, Inv es s → allowed s a →
      Inv (es ++ [(m.step s a).2]) (m.step s a).1)
    (obeys : ∀ es s a, Inv es s → allowed s a → rule es (m.step s a).2) :
    Each rule es := by
  rintro before e after rfl
  obtain ⟨mid, a, prior, ok, rfl, -⟩ := run.split
  exact obeys _ _ a (prior.invariant_events Inv base keeps) ok

end EventLog
