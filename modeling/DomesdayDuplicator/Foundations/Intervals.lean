import Mathlib.Data.List.Induction
import Mathlib.Algebra.Ring.Nat

/-!
# Intervals of a record

A record is cut into intervals at its marked entries: a marked entry is the first of
the interval it begins. The intervals are the record again, so what is counted
interval by interval is counted once.
-/

namespace Intervals

universe u

variable {α : Type u} {mark : α → Bool}

/-- The intervals that have ended, and the one that goes on. -/
structure Cut (α : Type u) where
  closed : List (List α)
  current : List α

def Cut.next (mark : α → Bool) (c : Cut α) (x : α) : Cut α :=
  if mark x then ⟨c.closed ++ [c.current], [x]⟩ else ⟨c.closed, c.current ++ [x]⟩

def cut (mark : α → Bool) (record : List α) : Cut α :=
  record.foldl (Cut.next mark) ⟨[], []⟩

@[simp] theorem cut_nil : cut mark [] = ⟨[], []⟩ := rfl

theorem cut_snoc (record : List α) (x : α) :
    cut mark (record ++ [x]) = Cut.next mark (cut mark record) x := by
  simp [cut]

theorem flatten_cut (record : List α) :
    (cut mark record).closed.flatten ++ (cut mark record).current = record := by
  induction record using List.reverseRecOn with
  | nil => rfl
  | append_singleton record x ih =>
    rw [cut_snoc, Cut.next]
    split
    · simpa using congrArg (· ++ [x]) ih
    · rw [← List.append_assoc, ih]

theorem cut_unmarked {record : List α} (none : ∀ x ∈ record, mark x = false) :
    cut mark record = ⟨[], record⟩ := by
  induction record using List.reverseRecOn with
  | nil => rfl
  | append_singleton record x ih =>
    have last := none x (by simp)
    rw [cut_snoc, ih fun y mem => none y (by simp [mem]), Cut.next, last]
    rfl

/-- What every interval counts adds up to what the record counts. -/
theorem sum_counts (p : α → Bool) (record : List α) :
    ((cut mark record).closed.map (List.countP p)).sum + (cut mark record).current.countP p =
      record.countP p := by
  conv_rhs => rw [← @flatten_cut _ mark record]
  rw [List.countP_append, List.countP_flatten]

end Intervals
