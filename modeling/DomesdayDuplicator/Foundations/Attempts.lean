import Mathlib.Data.List.Basic

/-!
# Steps that may fail

Steps are tried one after the other until one fails. Each leaves an event in a log, on which
those after it may depend.
-/

namespace Attempts

universe u v w

variable {Step : Type u} {Event : Type v} (attempt : List Event → Step → Bool × Event)

def perform : List Event → List Step → Bool × List Event
  | log, [] => (true, log)
  | log, step :: rest =>
    if (attempt log step).1 then perform (log ++ [(attempt log step).2]) rest
    else (false, log ++ [(attempt log step).2])

variable {attempt} {log : List Event} {step : Step} {first second steps rest : List Step}

@[simp] theorem perform_nil : perform attempt log [] = (true, log) := rfl

theorem perform_cons_ok (ok : (attempt log step).1 = true) :
    perform attempt log (step :: rest) = perform attempt (log ++ [(attempt log step).2]) rest := by
  rw [perform, if_pos ok]

theorem perform_cons_failed (failed : ¬ (attempt log step).1 = true) :
    perform attempt log (step :: rest) = (false, log ++ [(attempt log step).2]) := by
  rw [perform, if_neg failed]

theorem perform_append :
    perform attempt log (first ++ second) =
      if (perform attempt log first).1 then perform attempt (perform attempt log first).2 second
      else perform attempt log first := by
  induction first generalizing log with
  | nil => rfl
  | cons step rest ih =>
    rw [List.cons_append]
    by_cases ok : (attempt log step).1 = true
    · rw [perform_cons_ok ok, perform_cons_ok ok, ih]
    · rw [perform_cons_failed ok, perform_cons_failed ok]
      rfl

/-- Steps of which none fails, when the event tells nothing but the step. -/
theorem perform_total {leaves : Step → Event}
    (never : ∀ log, ∀ step ∈ steps, attempt log step = (true, leaves step)) :
    perform attempt log steps = (true, log ++ steps.map leaves) := by
  induction steps generalizing log with
  | nil => rw [perform_nil, List.map_nil, List.append_nil]
  | cons step rest ih =>
    have own := never log step (List.mem_cons_self ..)
    rw [perform_cons_ok (congrArg Prod.fst own), own,
      ih fun log' step' later => never log' step' (List.mem_cons_of_mem _ later),
      List.append_assoc]
    rfl

/-- What holds of every event a step can leave. -/
theorem perform_all {P : Event → Prop} (before : ∀ e ∈ log, P e)
    (leaves : ∀ log, ∀ step ∈ steps, P (attempt log step).2) :
    ∀ e ∈ (perform attempt log steps).2, P e := by
  induction steps generalizing log with
  | nil => exact before
  | cons step rest ih =>
    have grown : ∀ e ∈ log ++ [(attempt log step).2], P e := by
      intro e member
      rcases List.mem_append.mp member with old | new
      · exact before e old
      · obtain rfl := List.mem_singleton.mp new
        exact leaves log step (List.mem_cons_self ..)
    by_cases ok : (attempt log step).1 = true
    · rw [perform_cons_ok ok]
      exact ih grown fun log' step' later => leaves log' step' (List.mem_cons_of_mem _ later)
    · rw [perform_cons_failed ok]
      exact grown

/-- The steps succeed exactly when every event is one that a success leaves. -/
theorem perform_ok_iff {Good : Event → Prop} (before : ∀ e ∈ log, Good e)
    (judged : ∀ log, ∀ step ∈ steps, (attempt log step).1 = true ↔ Good (attempt log step).2) :
    (perform attempt log steps).1 = true ↔ ∀ e ∈ (perform attempt log steps).2, Good e := by
  induction steps generalizing log with
  | nil => exact ⟨fun _ => before, fun _ => rfl⟩
  | cons step rest ih =>
    have own := judged log step (List.mem_cons_self ..)
    by_cases ok : (attempt log step).1 = true
    · rw [perform_cons_ok ok]
      refine ih (fun e member => ?_)
        fun log' step' later => judged log' step' (List.mem_cons_of_mem _ later)
      rcases List.mem_append.mp member with old | new
      · exact before e old
      · obtain rfl := List.mem_singleton.mp new
        exact own.mp ok
    · rw [perform_cons_failed ok]
      refine ⟨fun absurd => Bool.noConfusion absurd, fun good => absurd (own.mpr ?_) ok⟩
      exact good _ (List.mem_append_right _ (List.mem_singleton_self _))

/-- What the events show of the steps is what the first of the steps ask for, and all of them
when none fails. -/
theorem perform_filterMap {β : Type w} {shows : Event → Option β} {asks : Step → Option β}
    (same : ∀ log, ∀ step ∈ steps, shows (attempt log step).2 = asks step) :
    ∃ left, log.filterMap shows ++ steps.filterMap asks =
        (perform attempt log steps).2.filterMap shows ++ left ∧
      ((perform attempt log steps).1 = true → left = []) := by
  induction steps generalizing log with
  | nil => exact ⟨[], rfl, fun _ => rfl⟩
  | cons step rest ih =>
    have own := same log step (List.mem_cons_self ..)
    have one : [(attempt log step).2].filterMap shows = [step].filterMap asks := by
      rw [List.filterMap_cons, List.filterMap_cons, own]
      rfl
    have split : (step :: rest).filterMap asks = [step].filterMap asks ++ rest.filterMap asks := by
      rw [← List.filterMap_append, List.singleton_append]
    by_cases ok : (attempt log step).1 = true
    · rw [perform_cons_ok ok]
      obtain ⟨left, shown, none'⟩ := @ih (log ++ [(attempt log step).2])
        fun log' step' later => same log' step' (List.mem_cons_of_mem _ later)
      refine ⟨left, ?_, none'⟩
      rw [← shown, List.filterMap_append, one, split, List.append_assoc]
    · rw [perform_cons_failed ok]
      refine ⟨rest.filterMap asks, ?_, fun absurd => Bool.noConfusion absurd⟩
      rw [List.filterMap_append, one, split, List.append_assoc]

end Attempts
