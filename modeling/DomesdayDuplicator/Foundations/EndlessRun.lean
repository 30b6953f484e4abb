import DomesdayDuplicator.Foundations.Dialogue
import Mathlib.Data.Nat.Find
import Mathlib.Data.Set.Finite.Lattice

/-!
# Runs that do not end

A machine driven by an endless sequence of actions, without any restriction on them. What a
rank never raises and lowers again and again is over at some time; in a dialogue that goes on
asking and answering, some step is answered again and again.
-/

namespace EndlessRun

open Execution Dialogue

universe u v w

variable {State : Type u} {Action : Type v} {Event : Type w}

section Machines

variable (m : Machine State Action Event) (start : State) (acts : Nat → Action)

/-- The state that the first actions lead to. -/
def after : Nat → State
  | 0 => start
  | n + 1 => (m.step (after n) (acts n)).1

def report (n : Nat) : Event := (m.step (after m start acts n) (acts n)).2

/-- It happens at or after every time. -/
def Again (P : Nat → Prop) : Prop := ∀ n, ∃ k, n ≤ k ∧ P k

variable {m start acts}

theorem run_after (n : Nat) :
    Run m Any start ((List.range n).map (report m start acts)) (after m start acts n) := by
  induction n with
  | zero => exact .refl
  | succ n ih =>
    rw [List.range_succ, List.map_append]
    exact ih.snoc (acts n) trivial

/-- From some time on, what happens only finitely often does not happen. -/
theorem quiet_from {P : Nat → Prop} (finite : {n | P n}.Finite) : ∃ N, ∀ n, N ≤ n → ¬ P n := by
  obtain ⟨N, bound⟩ := finite.bddAbove
  refine ⟨N + 1, fun n later happens => ?_⟩
  have : n ≤ N := bound happens
  omega

/-- A rank that never rises and falls again and again, unless it is over, is over. -/
theorem halts {rank : State → Nat} {Over : State → Prop} {N : Nat}
    (level : ∀ n, N ≤ n →
      rank (after m start acts (n + 1)) ≤ rank (after m start acts n))
    (falls : (∀ n, ¬ Over (after m start acts n)) → Again fun n =>
      rank (after m start acts (n + 1)) < rank (after m start acts n)) :
    ∃ n, Over (after m start acts n) := by
  by_contra never
  have down := falls (not_exists.mp never)
  have descends {n k : Nat} (late : N ≤ n) (order : n ≤ k) :
      rank (after m start acts k) ≤ rank (after m start acts n) := by
    induction k, order using Nat.le_induction with
    | base => exact le_rfl
    | succ k order ih => exact (level k (late.trans order)).trans ih
  have impossible (r : Nat) : ∀ n, N ≤ n → rank (after m start acts n) ≠ r := by
    induction r using Nat.strongRecOn with
    | ind r ih =>
      intro n late here
      obtain ⟨k, order, lower⟩ := down n
      have := descends late order
      exact ih _ (by omega) (k + 1) (by omega) rfl
  exact impossible _ N le_rfl rfl

end Machines

section Dialogues

variable {S Call Step Result : Type u} {p : Procedure S Call Step Result}
variable {start : S} {acts : Nat → Dialogue.Action Call Result}

/-- Asked for a step and given a result again and again. -/
structure Attended (acts : Nat → Dialogue.Action Call Result) : Prop where
  asks : Again fun n => acts n = .next
  replies : Again fun n => ∃ result, acts n = .apply result

/-- A step that is out stays out until it is answered, where no call drops it. -/
theorem stays_out (calls : ∀ s which, p.awaiting (p.call which s) = p.awaiting s) {n k : Nat}
    (order : n ≤ k) (out : (p.awaiting (after p.machine start acts n)).isSome = true)
    (unanswered : ∀ j, n ≤ j → j < k → ∀ result, acts j ≠ .apply result) :
    (p.awaiting (after p.machine start acts k)).isSome = true := by
  induction k, order using Nat.le_induction with
  | base => exact out
  | succ k order ih =>
    have here := ih fun j from' before => unanswered j from' (by omega)
    obtain ⟨st, awaits⟩ := Option.isSome_iff_exists.mp here
    change (p.awaiting (p.step (after p.machine start acts k) (acts k)).1).isSome = true
    cases act : acts k with
    | next =>
      rw [step_repeated awaits]
      exact here
    | apply result => exact absurd act (unanswered k order (by omega) result)
    | call which =>
      simp only [Procedure.step, calls]
      exact here

/-- Where every question is answered with a step, some step is answered again and again. -/
theorem answered_again (calls : ∀ s which, p.awaiting (p.call which s) = p.awaiting s)
    (attended : Attended acts)
    (hands : ∀ n, acts n = .next →
      (p.awaiting (after p.machine start acts (n + 1))).isSome = true) :
    Again fun n => ∃ st result, p.awaiting (after p.machine start acts n) = some st ∧
      acts n = .apply result := by
  intro n
  obtain ⟨asked, later, asks⟩ := attended.asks n
  have replied : ∃ k, asked + 1 ≤ k ∧ ∃ result, acts k = .apply result :=
    attended.replies (asked + 1)
  classical
  obtain ⟨after', result, replies⟩ := Nat.find_spec replied
  have out := stays_out calls after' (hands asked asks) fun j from' before result answers =>
    Nat.find_min replied before ⟨from', result, answers⟩
  obtain ⟨st, awaits⟩ := Option.isSome_iff_exists.mp out
  exact ⟨Nat.find replied, by omega, st, result, awaits, replies⟩

end Dialogues

end EndlessRun
