import DomesdayDuplicator.Foundations.EventLog

/-!
# Dialogues

A procedure written as a value: it hands out a step, its caller carries the step out
and brings the result back, and until then the same step is handed out again. Besides
that the caller may make other calls, which may drop the step that is out.
-/

namespace Dialogue

open Execution EventLog

universe u

structure Procedure (State Call Step Result : Type u) where
  /-- The step that is out. -/
  awaiting : State → Option Step
  next : State → Option Step × State
  apply : State → Result → State
  call : Call → State → State
  next_awaiting : ∀ {s st}, awaiting s = some st → next s = (some st, s)
  next_fresh : ∀ {s}, awaiting s = none → awaiting (next s).2 = (next s).1
  apply_idle : ∀ {s r}, awaiting s = none → apply s r = s
  apply_answers : ∀ {s st r}, awaiting s = some st → awaiting (apply s r) = none
  call_awaiting : ∀ {k s}, awaiting (call k s) = awaiting s ∨ awaiting (call k s) = none

inductive Action (Call Result : Type u) where
  | next
  | apply (result : Result)
  | call (which : Call)

inductive Event (Call Step Result : Type u) where
  | handed (step : Step)
  | repeated (step : Step)
  | over
  | answered (step : Step) (result : Result)
  | ignored (result : Result)
  | called (which : Call)
  deriving DecidableEq

variable {State Call Step Result : Type u}

/-- A step is handed out for the first time, or one is answered. -/
def Exchange : Event Call Step Result → Prop
  | .handed _ | .answered _ _ => True
  | _ => False

/-- The step that `Next` returned, new or not. -/
def Event.given : Event Call Step Result → Option Step
  | .handed st | .repeated st => some st
  | _ => none

variable (p : Procedure State Call Step Result)

def Procedure.step (s : State) : Action Call Result → State × Event Call Step Result
  | .next =>
    match p.awaiting s, p.next s with
    | some st, (_, t) => (t, .repeated st)
    | none, (some st, t) => (t, .handed st)
    | none, (none, t) => (t, .over)
  | .apply result =>
    match p.awaiting s with
    | some st => (p.apply s result, .answered st result)
    | none => (p.apply s result, .ignored result)
  | .call which => (p.call which s, .called which)

def Procedure.machine : Machine State (Action Call Result) (Event Call Step Result) :=
  ⟨p.step⟩

variable {p} {s : State}

theorem step_repeated {st : Step} (h : p.awaiting s = some st) :
    p.step s .next = (s, .repeated st) := by
  simp [Procedure.step, h, p.next_awaiting h]

theorem step_handed {st : Step} {t : State} (h : p.awaiting s = none)
    (next : p.next s = (some st, t)) : p.step s .next = (t, .handed st) := by
  simp [Procedure.step, h, next]

theorem step_over {t : State} (h : p.awaiting s = none) (next : p.next s = (none, t)) :
    p.step s .next = (t, .over) := by
  simp [Procedure.step, h, next]

theorem step_answered {st : Step} {result : Result} (h : p.awaiting s = some st) :
    p.step s (.apply result) = (p.apply s result, .answered st result) := by
  simp [Procedure.step, h]

theorem step_ignored {result : Result} (h : p.awaiting s = none) :
    p.step s (.apply result) = (s, .ignored result) := by
  simp [Procedure.step, h, p.apply_idle h]

theorem step_next : (p.step s .next).1 = (p.next s).2 := by
  simp only [Procedure.step]
  split <;> simp_all

/-- What one action can do. -/
theorem Procedure.step_cases (p : Procedure State Call Step Result) (s : State)
    (a : Action Call Result) :
    (∃ st, p.awaiting s = some st ∧ p.step s a = (s, .repeated st)) ∨
    (p.awaiting s = none ∧ ∃ st t, p.next s = (some st, t) ∧ p.awaiting t = some st ∧
      p.step s a = (t, .handed st)) ∨
    (p.awaiting s = none ∧ ∃ t, p.next s = (none, t) ∧ p.awaiting t = none ∧
      p.step s a = (t, .over)) ∨
    (∃ st result, p.awaiting s = some st ∧
      p.step s a = (p.apply s result, .answered st result)) ∨
    (∃ result, p.awaiting s = none ∧ p.step s a = (s, .ignored result)) ∨
    (∃ which, a = .call which ∧ p.step s a = (p.call which s, .called which)) := by
  cases a with
  | next =>
    cases h : p.awaiting s with
    | some st => exact Or.inl ⟨st, rfl, step_repeated h⟩
    | none =>
      have fresh := p.next_fresh h
      rcases next : p.next s with ⟨_ | st, t⟩
      · rw [next] at fresh
        exact Or.inr (Or.inr (Or.inl ⟨rfl, t, rfl, fresh, step_over h next⟩))
      · rw [next] at fresh
        exact Or.inr (Or.inl ⟨rfl, st, t, rfl, fresh, step_handed h next⟩)
  | apply result =>
    cases h : p.awaiting s with
    | some st =>
      exact Or.inr (Or.inr (Or.inr (Or.inl ⟨st, result, rfl, step_answered h⟩)))
    | none =>
      exact Or.inr (Or.inr (Or.inr (Or.inr (Or.inl ⟨result, rfl, step_ignored h⟩))))
  | call which =>
    exact Or.inr (Or.inr (Or.inr (Or.inr (Or.inr ⟨which, rfl, rfl⟩))))

/-- Only a result answers. -/
theorem answered_applies {a : Action Call Result} {st : Step} {result : Result} {t : State}
    (step : p.step s a = (t, .answered st result)) : a = .apply result := by
  cases a with
  | next =>
    simp only [Procedure.step] at step
    split at step <;> cases step
  | apply given =>
    simp only [Procedure.step] at step
    split at step <;> cases step
    rfl
  | call which => cases step

/-- The step that is out is the last thing that was handed out or answered. -/
theorem awaiting_latest {start t : State} {es : List (Event Call Step Result)}
    {allowed : State → Action Call Result → Prop}
    (fresh : p.awaiting start = none) (run : Run p.machine allowed start es t) {st : Step}
    (out : p.awaiting t = some st) : Latest Exchange es (.handed st) := by
  revert st
  refine run.invariant_events
    (fun es t => ∀ {st}, p.awaiting t = some st → Latest Exchange es (.handed st)) ?_ ?_
  · intro st out
    simp [fresh] at out
  intro es s a ih _ st out
  simp only [Procedure.machine] at out ⊢
  rcases p.step_cases s a with ⟨st', await, step⟩ | ⟨-, st', t, -, await, step⟩ |
      ⟨-, t, -, await, step⟩ | ⟨st', result, await, step⟩ | ⟨result, await, step⟩ |
      ⟨which, -, step⟩
  · rw [step] at out ⊢
    exact latest_snoc.mpr (Or.inr ⟨by simp [Exchange], ih out⟩)
  · rw [step] at out ⊢
    obtain rfl : st' = st := by simpa [await] using out
    exact latest_snoc.mpr (Or.inl ⟨trivial, rfl⟩)
  · simp [step, await] at out
  · simp [step, p.apply_answers await] at out
  · simp [step, await] at out
  · rw [step] at out ⊢
    rcases p.call_awaiting (k := which) (s := s) with same | dropped
    · exact latest_snoc.mpr (Or.inr ⟨by simp [Exchange], ih (same ▸ out)⟩)
    · simp [dropped] at out

/-- Every answer is to the step handed out last, which had no answer before. -/
theorem answers_in_turn {start t : State} {es : List (Event Call Step Result)}
    {allowed : State → Action Call Result → Prop}
    (fresh : p.awaiting start = none) (run : Run p.machine allowed start es t) :
    Each (fun before e => ∀ st result, e = .answered st result →
      Latest Exchange before (.handed st)) es := by
  rintro before e after rfl st result rfl
  obtain ⟨mid, a, prior, -, event, -⟩ := run.split
  refine awaiting_latest fresh prior ?_
  change (p.step mid a).2 = _ at event
  rcases p.step_cases mid a with ⟨st', await, step⟩ | ⟨-, st', t, -, await, step⟩ |
      ⟨-, t, -, await, step⟩ | ⟨st', result', await, step⟩ | ⟨result', await, step⟩ |
      ⟨which, -, step⟩ <;> rw [step] at event
  all_goals try cases event
  exact await

end Dialogue
