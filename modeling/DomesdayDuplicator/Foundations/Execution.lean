import Mathlib.Data.List.Basic

/-!
# Runs of a labelled machine

A machine is a total step function that also reports what it did. A run records
the reports in order; `allowed` restricts which actions may be taken where. An
invariant is proved for one step and holds of every run; what a run reports
between two of its events is argued from the state in the middle.
-/

namespace Execution

universe u v w

structure Machine (State : Type u) (Action : Type v) (Event : Type w) where
  step : State → Action → State × Event

variable {State : Type u} {Action : Type v} {Event : Type w}

inductive Run (m : Machine State Action Event) (allowed : State → Action → Prop)
    (start : State) : List Event → State → Prop
  | refl : Run m allowed start [] start
  | snoc {es s} (a : Action) : Run m allowed start es s → allowed s a →
      Run m allowed start (es ++ [(m.step s a).2]) (m.step s a).1

/-- No restriction on the actions: every interleaving. -/
def Any : State → Action → Prop := fun _ _ => True

variable {m : Machine State Action Event} {allowed : State → Action → Prop}

theorem Run.single {s : State} {a : Action} (h : allowed s a) :
    Run m allowed s [(m.step s a).2] (m.step s a).1 :=
  .snoc a .refl h

theorem Run.next {start s t : State} {es : List Event} {e : Event}
    (run : Run m allowed start es s) (a : Action) (ok : allowed s a)
    (step : m.step s a = (t, e)) : Run m allowed start (es ++ [e]) t := by
  have next := run.snoc a ok
  rwa [step] at next

theorem Run.append {s t u : State} {es fs : List Event}
    (first : Run m allowed s es t) (second : Run m allowed t fs u) :
    Run m allowed s (es ++ fs) u := by
  induction second with
  | refl => simpa using first
  | snoc a _ ok ih =>
    rw [← List.append_assoc]
    exact .snoc a ih ok

theorem Run.mono (looser : State → Action → Prop) {s t : State} {es : List Event}
    (run : Run m allowed s es t) (h : ∀ s a, allowed s a → looser s a) :
    Run m looser s es t := by
  induction run with
  | refl => exact .refl
  | snoc a _ ok ih => exact .snoc a ih (h _ _ ok)

/-- The invariant rule: what every allowed step keeps, every run keeps. -/
theorem Run.invariant {Inv : State → Prop} {s t : State} {es : List Event}
    (run : Run m allowed s es t) (base : Inv s)
    (keeps : ∀ s a, Inv s → allowed s a → Inv (m.step s a).1) : Inv t := by
  induction run with
  | refl => exact base
  | snoc a _ ok ih => exact keeps _ a ih ok

/-- The invariant rule for an invariant that also reads the events so far. -/
theorem Run.invariant_events (Inv : List Event → State → Prop) {s t : State}
    {es : List Event} (run : Run m allowed s es t) (base : Inv [] s)
    (keeps : ∀ es s a, Inv es s → allowed s a →
      Inv (es ++ [(m.step s a).2]) (m.step s a).1) : Inv es t := by
  induction run with
  | refl => exact base
  | snoc a _ ok ih => exact keeps _ _ a ih ok

/-- A run that reports an event passes through the step that reports it. -/
theorem Run.split {s t : State} {es fs : List Event} {e : Event}
    (run : Run m allowed s (es ++ e :: fs) t) :
    ∃ mid a, Run m allowed s es mid ∧ allowed mid a ∧ (m.step mid a).2 = e ∧
      Run m allowed (m.step mid a).1 fs t := by
  generalize whole : es ++ e :: fs = all at run
  induction run generalizing fs with
  | refl => simp at whole
  | @snoc before mid a prior ok ih =>
    rcases List.eq_nil_or_concat fs with rfl | ⟨init, last, rfl⟩
    · have parts := List.append_inj' whole (by simp)
      obtain ⟨hes, he⟩ := parts
      subst hes
      exact ⟨mid, a, prior, ok, by simpa using he.symm, .refl⟩
    · have parts : (es ++ e :: init) ++ [last] = before ++ [(m.step mid a).2] := by
        simpa using whole
      obtain ⟨hinit, hlast⟩ := List.append_inj' parts (by simp)
      obtain ⟨mid', a', r, ok', he, rest⟩ := ih hinit
      refine ⟨mid', a', r, ok', he, ?_⟩
      have : last = (m.step mid a).2 := by simpa using hlast
      subst this
      simpa using Run.snoc a rest ok

/-- What one event opens stays true up to the event that closes it. -/
theorem Run.holds_until {Open : State → Prop} (closes : Event → Prop) {s t : State}
    {es : List Event} (run : Run m allowed s es t) (opened : Open s)
    (keeps : ∀ s a, Open s → allowed s a → ¬ closes (m.step s a).2 →
      Open (m.step s a).1)
    (quiet : ∀ e ∈ es, ¬ closes e) : Open t := by
  induction run with
  | refl => exact opened
  | snoc a _ ok ih =>
    refine keeps _ a (ih fun e he => quiet e (by simp [he])) ok (quiet _ (by simp))

/-! ## Runs that are computed -/

def Machine.trace (m : Machine State Action Event) (s : State) :
    List Action → List Event × State
  | [] => ([], s)
  | a :: rest =>
    let next := m.step s a
    let after := m.trace next.1 rest
    (next.2 :: after.1, after.2)

/-- Every action passes the check in the state it is taken in. -/
def Machine.passes (m : Machine State Action Event) (check : State → Action → Bool)
    (s : State) : List Action → Bool
  | [] => true
  | a :: rest => check s a && m.passes check (m.step s a).1 rest

theorem Run.of_trace (m : Machine State Action Event) (check : State → Action → Bool)
    (s : State) (actions : List Action)
    (passes : m.passes check s actions = true)
    (sound : ∀ s a, check s a = true → allowed s a) :
    Run m allowed s (m.trace s actions).1 (m.trace s actions).2 := by
  induction actions generalizing s with
  | nil => exact .refl
  | cons a rest ih =>
    rw [Machine.passes, Bool.and_eq_true] at passes
    exact (Run.single (sound s a passes.1)).append (ih _ passes.2)

theorem Machine.passes_of_all (m : Machine State Action Event) {check : Action → Bool}
    {actions : List Action} (all : ∀ a ∈ actions, check a = true) (s : State) :
    m.passes (fun _ a => check a) s actions = true := by
  induction actions generalizing s with
  | nil => rfl
  | cons a rest ih =>
    rw [Machine.passes, Bool.and_eq_true]
    exact ⟨all a (by simp), ih (fun b member => all b (by simp [member])) _⟩

/-- Progress by rank: what no step sets back and every turn of one party brings nearer
is reached within as many of its turns, whatever the others do in between. -/
theorem Machine.arrives (m : Machine State Action Event) {Open Done : State → Prop}
    (rank : State → Nat) (turn : Action → Bool)
    (keeps : ∀ s a, Open s → Done (m.step s a).1 ∨
      Open (m.step s a).1 ∧ rank (m.step s a).1 ≤ rank s ∧
        (turn a = true → rank (m.step s a).1 < rank s))
    {s : State} (opened : Open s) {actions : List Action}
    (enough : rank s < actions.countP turn) :
    ∃ k, Done (m.trace s (actions.take k)).2 := by
  induction actions generalizing s with
  | nil => simp at enough
  | cons a rest ih =>
    rcases keeps s a opened with done | ⟨still, nearer, turned⟩
    · exact ⟨1, done⟩
    · have enough : rank (m.step s a).1 < rest.countP turn := by
        rw [List.countP_cons] at enough
        split at enough
        · have := turned ‹_›
          omega
        · omega
      obtain ⟨k, done⟩ := ih still enough
      exact ⟨k + 1, done⟩

end Execution
