import Mathlib.Data.List.Basic

/-!
# Bounded queues

A queue of a fixed capacity driven one round at a time, a round being a reset, or
a write and a read together. Both are decided on the queue as the round finds it:
a write to a full queue is discarded and a read of an empty one takes nothing.
`entering` and `leaving` are the two ends of a round, and what goes in comes out.
-/

namespace BoundedQueue

universe u

variable {α : Type u}

structure Round (α : Type u) where
  reset : Bool
  write : Option α
  read : Bool

/-- What a write adds to a queue of this length. -/
def entering (capacity : Nat) (q : List α) (write : Option α) : List α :=
  if q.length < capacity then write.toList else []

/-- What a read takes. -/
def leaving (q : List α) (read : Bool) : List α :=
  if read then q.take 1 else []

def advance (capacity : Nat) (q : List α) (write : Option α) (read : Bool) : List α :=
  (if read then q.drop 1 else q) ++ entering capacity q write

def next (capacity : Nat) (q : List α) (r : Round α) : List α :=
  if r.reset then [] else advance capacity q r.write r.read

/-- The queue before round `n`. -/
def contents (capacity : Nat) (rounds : Nat → Round α) : Nat → List α
  | 0 => []
  | n + 1 => next capacity (contents capacity rounds n) (rounds n)

/-- The queue as round `n` meets it: a reset has emptied it already. -/
def presented (capacity : Nat) (rounds : Nat → Round α) (n : Nat) : List α :=
  if (rounds n).reset then [] else contents capacity rounds n

/-- A round moves words from the front to the reader and from the writer to the back. -/
theorem leaving_append_advance (capacity : Nat) (q : List α) (write : Option α) (read : Bool) :
    leaving q read ++ advance capacity q write read = q ++ entering capacity q write := by
  cases read with
  | false => simp [leaving, advance]
  | true =>
    simp only [leaving, advance, if_true]
    simp only [← List.append_assoc, List.take_append_drop]

end BoundedQueue
