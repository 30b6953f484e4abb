import Mathlib.Logic.Relation
import Mathlib.Order.Basic

/-!
# Loops

A loop as one turn of it: a turn goes on in a new state or leaves with a result.
`run` takes so many turns. What a turn keeps holds of every state the loop visits,
and a measure that every turn lowers bounds the turns it takes.
-/

namespace FuelLoop

universe u v

inductive Turn (State : Type u) (Result : Type v) where
  | again (state : State)
  | done (result : Result)

variable {State : Type u} {Result : Type v} (turn : State → Turn State Result)

def run : Nat → State → Option Result
  | 0, _ => none
  | fuel + 1, state =>
    match turn state with
    | .again next => run fuel next
    | .done result => some result

/-- The states the loop passes through. -/
def Visits (first state : State) : Prop :=
  Relation.ReflTransGen (fun s t => turn s = .again t) first state

variable {turn}

theorem run_again {state next : State} (h : turn state = .again next) (fuel : Nat) :
    run turn (fuel + 1) state = run turn fuel next := by
  simp [run, h]

theorem run_done {state : State} {result : Result} (h : turn state = .done result) (fuel : Nat) :
    run turn (fuel + 1) state = some result := by
  simp [run, h]

theorem Visits.invariant {Inv : State → Prop} {first state : State}
    (visited : Visits turn first state) (base : Inv first)
    (keeps : ∀ s t, Inv s → turn s = .again t → Inv t) : Inv state := by
  induction visited with
  | refl => exact base
  | tail _ step ih => exact keeps _ _ ih step

/-- A result comes out of a state the loop visits. -/
theorem visits_of_run {fuel : Nat} {first : State} {result : Result}
    (returned : run turn fuel first = some result) :
    ∃ last, Visits turn first last ∧ turn last = .done result := by
  induction fuel generalizing first with
  | zero => simp [run] at returned
  | succ fuel ih =>
    cases step : turn first with
    | again next =>
      rw [run_again step] at returned
      obtain ⟨last, visited, leaves⟩ := ih returned
      exact ⟨last, .head step visited, leaves⟩
    | done result' =>
      rw [run_done step, Option.some.injEq] at returned
      exact ⟨first, .refl, returned ▸ step⟩

theorem run_mono {fuel more : Nat} {first : State} {result : Result}
    (returned : run turn fuel first = some result) (le : fuel ≤ more) :
    run turn more first = some result := by
  induction fuel generalizing first more with
  | zero => simp [run] at returned
  | succ fuel ih =>
    obtain ⟨more, rfl⟩ : ∃ n, more = n + 1 := ⟨more - 1, by omega⟩
    cases step : turn first with
    | again next =>
      rw [run_again step] at returned ⊢
      exact ih returned (by omega)
    | done result' =>
      rw [run_done step] at returned ⊢
      exact returned

/-- The termination rule. -/
theorem run_returns {Inv : State → Prop} (rank : State → Nat)
    (lowers : ∀ s t, Inv s → turn s = .again t → Inv t ∧ rank t < rank s) {first : State}
    (base : Inv first) : ∃ result, ∀ fuel, rank first < fuel → run turn fuel first = some result := by
  induction bound : rank first using Nat.strongRecOn generalizing first with
  | ind n ih =>
    cases step : turn first with
    | done result =>
      refine ⟨result, fun fuel enough => ?_⟩
      obtain ⟨k, rfl⟩ := Nat.exists_eq_add_of_lt enough
      exact run_done step _
    | again next =>
      obtain ⟨still, less⟩ := lowers _ _ base step
      obtain ⟨result, returns⟩ := ih (rank next) (bound ▸ less) still rfl
      refine ⟨result, fun fuel enough => ?_⟩
      obtain ⟨k, rfl⟩ := Nat.exists_eq_add_of_lt enough
      rw [run_again step]
      exact returns _ (by omega)

/-! ## The result, whatever the turns it takes -/

/-- The loop comes back with a result. -/
def Returns (turn : State → Turn State Result) (state : State) (result : Result) : Prop :=
  ∃ fuel, run turn fuel state = some result

theorem returns_again {state next : State} {result : Result} (step : turn state = .again next) :
    Returns turn state result ↔ Returns turn next result := by
  constructor
  · rintro ⟨_ | fuel, returned⟩
    · cases returned
    · rw [run_again step] at returned
      exact ⟨fuel, returned⟩
  · rintro ⟨fuel, returned⟩
    exact ⟨fuel + 1, (run_again step fuel).trans returned⟩

theorem returns_done {state : State} {result result' : Result}
    (step : turn state = .done result) : Returns turn state result' ↔ result' = result := by
  constructor
  · rintro ⟨_ | fuel, returned⟩
    · cases returned
    · rw [run_done step, Option.some.injEq] at returned
      exact returned.symm
  · rintro rfl
    exact ⟨1, run_done step 0⟩

theorem returns_unique {state : State} {result result' : Result}
    (returned : Returns turn state result) (returned' : Returns turn state result') :
    result = result' := by
  obtain ⟨fuel, run⟩ := returned
  obtain ⟨fuel', run'⟩ := returned'
  have first := run_mono run (Nat.le_max_left fuel fuel')
  have second := run_mono run' (Nat.le_max_right fuel fuel')
  exact Option.some.inj (first.symm.trans second)

theorem returns_congr {state state' : State} {result : Result} (same : turn state = turn state') :
    Returns turn state result ↔ Returns turn state' result := by
  cases step : turn state with
  | again next => rw [returns_again step, returns_again (same.symm.trans step)]
  | done result' => rw [returns_done step, returns_done (same.symm.trans step)]

/-- As many turns as the measure allows are enough. -/
theorem run_of_returns (rank : State → Nat)
    (lowers : ∀ s t, turn s = .again t → rank t < rank s) {first : State} {result : Result}
    (returned : Returns turn first result) : run turn (rank first + 1) first = some result := by
  obtain ⟨result', returns⟩ := @run_returns State Result turn (fun _ => True) rank
    (fun s t _ step => ⟨trivial, lowers s t step⟩) first trivial
  have enough := returns (rank first + 1) (Nat.lt_succ_self _)
  rw [enough, returns_unique returned ⟨_, enough⟩]

end FuelLoop
