import Mathlib.Logic.Function.Iterate
import Mathlib.Data.Nat.Init
import Mathlib.Tactic.ByContra

/-!
# Clocked circuits

The run of a clocked circuit over a stream of inputs, one clock edge at a time.
While a circuit ignores its inputs its run is the iterate of one function, and
`LeadsTo` says where the iterates pass; counters are run through by induction.
For the parts that do wait for an input, `eventually_leaves` turns "it cannot
stay here for ever" into the clock at which it moves on.
-/

namespace ClockedCircuit

universe u v

variable {Input : Type u} {State : Type v}

/-- The state before the `n`-th edge. -/
def run (clock : Input → State → State) (start : State) (inputs : Nat → Input) : Nat → State
  | 0 => start
  | n + 1 => clock (inputs n) (run clock start inputs n)

theorem run_add (clock : Input → State → State) (start : State) (inputs : Nat → Input)
    (m n : Nat) : run clock start inputs (m + n) =
      run clock (run clock start inputs m) (fun k => inputs (m + k)) n := by
  induction n with
  | zero => rfl
  | succ n ih => rw [← Nat.add_assoc, run, run, ih]

/-- The invariant rule: what every edge keeps, every run keeps. -/
theorem run_invariant {clock : Input → State → State} {start : State} {Inv : State → Prop}
    (base : Inv start) (keeps : ∀ i s, Inv s → Inv (clock i s)) (inputs : Nat → Input)
    (n : Nat) : Inv (run clock start inputs n) := by
  induction n with
  | zero => exact base
  | succ n ih => exact keeps _ _ ih

/-! ## Iterates of one function -/

/-- From every state of `P` the iterates of `still` come to one of `Q`. -/
def LeadsTo (still : State → State) (P Q : State → Prop) : Prop :=
  ∀ s, P s → ∃ n, Q (still^[n] s)

variable {still : State → State} {P Q R : State → Prop}

theorem LeadsTo.trans (first : LeadsTo still P Q) (second : LeadsTo still Q R) :
    LeadsTo still P R := by
  intro s hs
  obtain ⟨m, hm⟩ := first s hs
  obtain ⟨n, hn⟩ := second _ hm
  refine ⟨n + m, ?_⟩
  rwa [Function.iterate_add_apply]

theorem LeadsTo.of_imp (h : ∀ s, P s → Q s) : LeadsTo still P Q :=
  fun s hs => ⟨0, h s hs⟩

theorem LeadsTo.of_step (h : ∀ s, P s → Q (still s)) : LeadsTo still P Q :=
  fun s hs => ⟨1, h s hs⟩

theorem LeadsTo.of_iterate (n : Nat) (h : ∀ s, P s → Q (still^[n] s)) : LeadsTo still P Q :=
  fun s hs => ⟨n, h s hs⟩

/-- A stage that hands over to the next one, for as many stages as there are. -/
theorem LeadsTo.count {stage : Nat → State → Prop} (first : Nat) {last : Nat}
    (within : first ≤ last)
    (next : ∀ k, first ≤ k → k < last → LeadsTo still (stage k) (stage (k + 1))) :
    LeadsTo still (stage first) (stage last) := by
  induction last, within using Nat.le_induction with
  | base => exact .of_imp fun _ h => h
  | succ last within ih =>
    have before := ih fun k lo hi => next k lo (Nat.lt_succ_of_lt hi)
    exact before.trans (next last within (Nat.lt_succ_self last))

/-- A region in which the inputs are ignored, and which is not entered again
once it has been left. -/
structure Deaf (clock : Input → State → State) (still : State → State)
    (inside : State → Prop) : Prop where
  ignores : ∀ i s, inside s → clock i s = still s
  back : ∀ s, inside (still s) → inside s

theorem Deaf.before {clock : Input → State → State} {inside : State → Prop}
    (deaf : Deaf clock still inside) {s : State} {n m : Nat} (h : inside (still^[n] s))
    (earlier : m ≤ n) : inside (still^[m] s) := by
  induction n, earlier using Nat.le_induction with
  | base => exact h
  | succ n _ ih =>
    rw [Function.iterate_succ_apply'] at h
    exact ih (deaf.back _ h)

/-- Up to a state still inside, the run is the iterate whatever the inputs. -/
theorem Deaf.run_eq {clock : Input → State → State} {inside : State → Prop}
    (deaf : Deaf clock still inside) {s : State} {n : Nat} (h : inside (still^[n] s))
    (inputs : Nat → Input) : run clock s inputs n = still^[n] s := by
  induction n with
  | zero => rfl
  | succ n ih =>
    have earlier : inside (still^[n] s) := deaf.before h (Nat.le_succ n)
    rw [run, ih earlier, deaf.ignores _ _ earlier, Function.iterate_succ_apply']

/-! ## Waiting for an input -/

/-- What holds until it is left, and cannot hold for ever, is left at some clock. -/
theorem eventually_leaves {Here There : Nat → Prop} {n : Nat} (now : Here n)
    (next : ∀ k, n ≤ k → Here k → Here (k + 1) ∨ There (k + 1))
    (never : ¬ ∀ k, n ≤ k → Here k) : ∃ k, n < k ∧ There k := by
  by_contra none
  apply never
  intro k le
  induction k, le using Nat.le_induction with
  | base => exact now
  | succ k le ih =>
    rcases next k le ih with here | there
    · exact here
    · exact absurd ⟨k + 1, by omega, there⟩ none

/-- A counter that falls at every clock until it is zero comes to zero. -/
theorem eventually_zero {count : Nat → Nat} {n : Nat}
    (falls : ∀ k, n ≤ k → count k ≠ 0 → count (k + 1) < count k) :
    ∃ k, n ≤ k ∧ count k = 0 := by
  by_contra none
  have bound : ∀ j, count (n + j) + j ≤ count n := by
    intro j
    induction j with
    | zero => simp
    | succ j ih =>
      have positive : count (n + j) ≠ 0 := fun h => none ⟨n + j, by omega, h⟩
      have := falls (n + j) (by omega) positive
      rw [Nat.add_assoc] at this
      omega
  have := bound (count n + 1)
  omega

end ClockedCircuit
