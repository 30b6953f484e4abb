import Mathlib.Data.List.Basic

/-!
# The test access port

The controller of IEEE 1149.1: sixteen states and one input, TMS, read at every clock. A
clock in one of the two shift states moves the register of that side on by one bit of TDI.
-/

namespace TapController

inductive Register where
  | data | instruction
  deriving DecidableEq

inductive State where
  | testLogicReset
  | runTestIdle
  | select (register : Register)
  | capture (register : Register)
  | shift (register : Register)
  | exit1 (register : Register)
  | pause (register : Register)
  | exit2 (register : Register)
  | update (register : Register)
  deriving DecidableEq

open State

def next : State → Bool → State
  | testLogicReset, false => runTestIdle
  | testLogicReset, true => testLogicReset
  | runTestIdle, false => runTestIdle
  | runTestIdle, true => select .data
  | select r, false => capture r
  | select .data, true => select .instruction
  | select .instruction, true => testLogicReset
  | capture r, false => shift r
  | capture r, true => exit1 r
  | shift r, false => shift r
  | shift r, true => exit1 r
  | exit1 r, false => pause r
  | exit1 r, true => update r
  | pause r, false => pause r
  | pause r, true => exit2 r
  | exit2 r, false => shift r
  | exit2 r, true => update r
  | update _, false => runTestIdle
  | update _, true => select .data

structure Cycle where
  tms : Bool
  tdi : Bool
  deriving DecidableEq

def after (s : State) (cycles : List Cycle) : State := cycles.foldl (fun s c => next s c.tms) s

/-- The states the clocks lead to, one after the other. -/
def entered : State → List Cycle → List State
  | _, [] => []
  | s, c :: rest => next s c.tms :: entered (next s c.tms) rest

def shiftedBy : State → Bool → List (Register × Bool)
  | shift r, tdi => [(r, tdi)]
  | _, _ => []

/-- The bits shifted, and into which register. -/
def shifts : State → List Cycle → List (Register × Bool)
  | _, [] => []
  | s, c :: rest => shiftedBy s c.tdi ++ shifts (next s c.tms) rest

variable {s : State} {first second : List Cycle}

@[simp] theorem after_nil : after s [] = s := rfl

@[simp] theorem after_append : after s (first ++ second) = after (after s first) second :=
  List.foldl_append

@[simp] theorem entered_append :
    entered s (first ++ second) = entered s first ++ entered (after s first) second := by
  induction first generalizing s with
  | nil => rfl
  | cons c rest ih => exact congrArg _ ih

@[simp] theorem shifts_append :
    shifts s (first ++ second) = shifts s first ++ shifts (after s first) second := by
  induction first generalizing s with
  | nil => rfl
  | cons c rest ih =>
    rw [List.cons_append, shifts, ih, shifts, List.append_assoc]
    rfl

/-- Five clocks with TMS high lead here from anywhere. -/
theorem five_high (s : State) (tdi : Bool) :
    after s (List.replicate 5 ⟨true, tdi⟩) = testLogicReset := by
  rcases s with _ | _ | r | r | r | r | r | r | r
  all_goals first | rfl | (cases r <;> rfl)

section Held

variable (held : next s false = s)
include held

/-- A state that TMS low does not leave. -/
theorem after_held (count : Nat) (tdi : Bool) :
    after s (List.replicate count ⟨false, tdi⟩) = s := by
  induction count with
  | zero => rfl
  | succ count ih =>
    rw [List.replicate_succ, after, List.foldl_cons, held]
    exact ih

theorem entered_held (count : Nat) (tdi : Bool) :
    ∀ state ∈ entered s (List.replicate count ⟨false, tdi⟩), state = s := by
  induction count with
  | zero => exact fun _ h => absurd h List.not_mem_nil
  | succ count ih =>
    rw [List.replicate_succ, entered, held]
    rintro state (_ | ⟨_, later⟩)
    · rfl
    · exact ih state later

end Held

/-- The clocks of a scan: TMS is low for all its bits but the last. -/
def scan : List Bool → List Cycle
  | [] => []
  | [last] => [⟨true, last⟩]
  | bit :: more :: rest => ⟨false, bit⟩ :: scan (more :: rest)

variable {r : Register} {bits : List Bool}

theorem after_scan (some : bits ≠ []) : after (shift r) (scan bits) = exit1 r := by
  induction bits with
  | nil => exact absurd rfl some
  | cons bit rest ih =>
    cases rest with
    | nil => rfl
    | cons more rest => exact ih (List.cons_ne_nil _ _)

theorem shifts_scan : shifts (shift r) (scan bits) = bits.map (r, ·) := by
  induction bits with
  | nil => rfl
  | cons bit rest ih =>
    cases rest with
    | nil => rfl
    | cons more rest =>
      rw [scan, shifts, next, ih]
      rfl

theorem entered_scan : ∀ state ∈ entered (shift r) (scan bits), state ≠ testLogicReset := by
  induction bits with
  | nil => exact fun _ h => absurd h List.not_mem_nil
  | cons bit rest ih =>
    cases rest with
    | nil =>
      intro state here
      rw [scan, entered, entered, List.mem_singleton] at here
      rw [here]
      exact nofun
    | cons more rest =>
      rw [scan, entered]
      rintro state (_ | ⟨_, later⟩)
      · exact nofun
      · exact ih state later

end TapController
