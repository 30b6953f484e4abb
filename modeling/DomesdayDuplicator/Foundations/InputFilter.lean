import DomesdayDuplicator.Foundations.ClockedCircuit
import Mathlib.Tactic.SplitIfs

/-!
# Lines that come in from outside the clock

Two flops bring a line into the clock's domain; a new level is taken once two samples in a row
agree. `accepted` says which level that is without any of the registers.
-/

namespace InputFilter

structure Channel where
  sync0 : Bool
  sync1 : Bool
  sample : Bool
  level : Bool
  deriving DecidableEq, Repr

def Channel.reset (rest : Bool) : Channel := ⟨rest, rest, rest, rest⟩

def Channel.clock (pin : Bool) (c : Channel) : Channel :=
  ⟨pin, c.sync0, c.sync1, if c.sync1 = c.sample then c.sync1 else c.level⟩

/-- What the clock has seen of the line; before the first edge it is at rest. -/
def line (rest : Bool) (pin : Nat → Bool) : Nat → Bool
  | 0 => rest
  | n + 1 => pin n

def accepted (rest : Bool) (pin : Nat → Bool) : Nat → Bool
  | 0 => rest
  | n + 1 =>
    if line rest pin (n + 1) = line rest pin n then line rest pin (n + 1)
    else accepted rest pin n

variable {rest : Bool} {pin : Nat → Bool} {n : Nat}

structure Follows (rest : Bool) (pin : Nat → Bool) (n : Nat) (c : Channel) : Prop where
  sync0 : c.sync0 = line rest pin n
  sync1 : c.sync1 = line rest pin (n - 1)
  sample : c.sample = line rest pin (n - 2)
  level : c.level = accepted rest pin (n - 2)

theorem Follows.clock {c : Channel} (h : Follows rest pin n c) :
    Follows rest pin (n + 1) (c.clock (pin n)) where
  sync0 := rfl
  sync1 := h.sync0
  sample := h.sync1
  level := by
    change (if c.sync1 = c.sample then c.sync1 else c.level) = accepted rest pin (n - 1)
    rw [h.sync1, h.sample, h.level]
    obtain early | ⟨k, rfl⟩ : n ≤ 1 ∨ ∃ k, n = k + 2 := by
      rcases Nat.lt_or_ge n 2 with less | more
      · exact Or.inl (by omega)
      · exact Or.inr ⟨n - 2, by omega⟩
    · have first : n - 1 = 0 := by omega
      have second : n - 2 = 0 := by omega
      rw [first, second, if_pos rfl]
      rfl
    · rfl

/-- The level lags the accepted one by two edges, the flops the line by one and two. -/
theorem follows (rest : Bool) (pin : Nat → Bool) (n : Nat) :
    Follows rest pin n (ClockedCircuit.run Channel.clock (Channel.reset rest) pin n) := by
  induction n with
  | zero => exact ⟨rfl, rfl, rfl, rfl⟩
  | succ n ih => exact ih.clock

/-- A channel at rest, `j` edges after its line has changed. -/
def Channel.toward (old new : Bool) : Nat → Channel
  | 0 => ⟨old, old, old, old⟩
  | 1 => ⟨new, old, old, old⟩
  | 2 => ⟨new, new, old, old⟩
  | 3 => ⟨new, new, new, old⟩
  | _ + 4 => ⟨new, new, new, new⟩

theorem Channel.clock_toward (old new : Bool) (j : Nat) :
    (Channel.toward old new j).clock new = Channel.toward old new (j + 1) := by
  rcases j with _ | _ | _ | _ | j <;> cases old <;> cases new <;> rfl

theorem Channel.toward_late (old new : Bool) {j : Nat} (late : 4 ≤ j) :
    Channel.toward old new j = Channel.reset new := by
  obtain ⟨k, rfl⟩ := Nat.exists_eq_add_of_le' late
  rfl

theorem Channel.toward_level (old new : Bool) (j : Nat) :
    (Channel.toward old new j).level = if j < 4 then old else new := by
  rcases j with _ | _ | _ | _ | j <;> rfl

/-- Whatever a channel was, four edges bring it to a line that stays. -/
theorem Channel.clock_four (c : Channel) (pin : Bool) :
    (((c.clock pin).clock pin).clock pin).clock pin = Channel.reset pin := by
  simp [Channel.clock, Channel.reset]

theorem Channel.clock_reset (pin : Bool) : (Channel.reset pin).clock pin = Channel.reset pin :=
  Channel.clock_toward pin pin 4

end InputFilter
