import Mathlib.Data.List.Basic

/-!
# Digests that take a block at a time

What has been absorbed of a message is a state and the part of a block that is not full yet.
It does not depend on how the message was cut into writes; the state after a message of whole
blocks is that of the blocks one after the other.
-/

namespace BlockStream

universe u v
variable {σ : Type u} {β : Type v}

structure Absorbed (σ : Type u) (β : Type v) where
  state : σ
  pending : List β

def push (size : Nat) (compress : σ → List β → σ) (a : Absorbed σ β) (b : β) : Absorbed σ β :=
  if a.pending.length + 1 = size then ⟨compress a.state (a.pending ++ [b]), []⟩
  else ⟨a.state, a.pending ++ [b]⟩

def absorb (size : Nat) (compress : σ → List β → σ) (a : Absorbed σ β) (data : List β) :
    Absorbed σ β :=
  data.foldl (push size compress) a

/-- The first blocks of a message, each compressed into the state that the last one left. -/
def blocks (size : Nat) (compress : σ → List β → σ) : Nat → σ → List β → σ
  | 0, s, _ => s
  | n + 1, s, message =>
    blocks size compress n (compress s (message.take size)) (message.drop size)

variable {size : Nat} {compress : σ → List β → σ} {a : Absorbed σ β} {data more : List β}

theorem absorb_append :
    absorb size compress a (data ++ more) =
      absorb size compress (absorb size compress a data) more :=
  List.foldl_append

theorem absorb_short (short : a.pending.length + data.length < size) :
    absorb size compress a data = ⟨a.state, a.pending ++ data⟩ := by
  induction data generalizing a with
  | nil => rw [List.append_nil]; rfl
  | cons b data ih =>
    rw [List.length_cons] at short
    have pushed : push size compress a b = ⟨a.state, a.pending ++ [b]⟩ := if_neg (by omega)
    change absorb size compress (push size compress a b) data = _
    rw [pushed, ih (by rw [List.length_append, List.length_singleton]; omega)]
    simp only [List.append_assoc, List.singleton_append]

theorem absorb_full (full : a.pending.length + data.length = size) (any : data ≠ []) :
    absorb size compress a data = ⟨compress a.state (a.pending ++ data), []⟩ := by
  obtain ⟨front, last, rfl⟩ : ∃ front last, data = front ++ [last] :=
    ⟨data.dropLast, data.getLast any, (List.dropLast_append_getLast any).symm⟩
  rw [List.length_append, List.length_singleton] at full
  have front_short : absorb size compress a front = ⟨a.state, a.pending ++ front⟩ :=
    absorb_short (by omega)
  rw [absorb_append, front_short]
  change push size compress ⟨a.state, a.pending ++ front⟩ last = _
  rw [push, if_pos (by rw [List.length_append]; omega), List.append_assoc]

theorem absorb_blocks (positive : 0 < size) {n : Nat} {s : σ} (whole : data.length = size * n) :
    absorb size compress ⟨s, []⟩ data = ⟨blocks size compress n s data, []⟩ := by
  induction n generalizing s data with
  | zero =>
    rw [Nat.mul_zero, List.length_eq_zero_iff] at whole
    rw [whole]
    rfl
  | succ n ih =>
    rw [Nat.mul_succ] at whole
    have first : (data.take size).length = size := by rw [List.length_take]; omega
    have rest : (data.drop size).length = size * n := by rw [List.length_drop]; omega
    have block : absorb size compress ⟨s, []⟩ (data.take size) =
        ⟨compress s (data.take size), []⟩ :=
      absorb_full (by rw [first]; exact Nat.zero_add _) (List.ne_nil_of_length_pos (by omega))
    rw [blocks, ← ih rest, ← block, ← absorb_append, List.take_append_drop]

theorem absorb_pending (positive : 0 < size) (inside : a.pending.length < size) :
    (absorb size compress a data).pending.length = (a.pending.length + data.length) % size := by
  induction data generalizing a with
  | nil => exact (Nat.mod_eq_of_lt inside).symm
  | cons b data ih =>
    change (absorb size compress (push size compress a b) data).pending.length = _
    rw [List.length_cons]
    by_cases last : a.pending.length + 1 = size
    · have pushed : push size compress a b = ⟨compress a.state (a.pending ++ [b]), []⟩ :=
        if_pos last
      rw [pushed, ih (by exact positive)]
      have total : a.pending.length + (data.length + 1) = data.length + size := by omega
      rw [total, Nat.add_mod_right]
      dsimp only [List.length_nil]
      rw [Nat.zero_add]
    · have pushed : push size compress a b = ⟨a.state, a.pending ++ [b]⟩ := if_neg last
      have length : (a.pending ++ [b]).length = a.pending.length + 1 := by simp
      rw [pushed, ih (by rw [length]; omega), length]
      congr 1
      omega

end BlockStream
