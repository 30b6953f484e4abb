import Mathlib.Data.List.Basic
import Mathlib.Tactic.SplitIfs

/-!
# Pieces that tile a run of cells

Pieces with the places they start at: they tile a run when each starts where the one before
it ended and their cells are the run's. A run that is cut into pieces of a size is tiled by
them, and tiles can be tiled again.
-/

namespace Tiling

universe u

variable {α : Type u}

/-- Where it starts, and its cells. -/
abbrev Piece (α : Type u) := Nat × List α

def Tiles : Nat → List (Piece α) → List α → Prop
  | _, [], cells => cells = []
  | p, piece :: rest, cells =>
    piece.1 = p ∧ ∃ more, cells = piece.2 ++ more ∧ Tiles (p + piece.2.length) rest more

def shift (n : Nat) (piece : Piece α) : Piece α := (n + piece.1, piece.2)

def Piece.covers (i : Nat) (piece : Piece α) : Bool :=
  piece.1 ≤ i && i < piece.1 + piece.2.length

/-- Pieces of a size, and a last one that may be smaller. -/
def cut (size : Nat) : Nat → Nat → List α → List (Piece α)
  | 0, _, _ => []
  | turns + 1, p, cells =>
    if cells = [] then []
    else (p, cells.take size) :: cut size turns (p + (cells.take size).length) (cells.drop size)

variable {p n size turns : Nat} {cells more : List α} {pieces first second : List (Piece α)}
  {piece : Piece α}

theorem Piece.covers_iff {i : Nat} :
    piece.covers i = true ↔ piece.1 ≤ i ∧ i < piece.1 + piece.2.length := by
  rw [Piece.covers, Bool.and_eq_true, decide_eq_true_eq, decide_eq_true_eq]

theorem Tiles.append (tiles : Tiles p first cells)
    (further : Tiles (p + cells.length) second more) :
    Tiles p (first ++ second) (cells ++ more) := by
  induction first generalizing p cells with
  | nil =>
    obtain rfl : cells = [] := tiles
    exact further
  | cons piece rest ih =>
    obtain ⟨starts, left, rfl, inner⟩ := tiles
    refine ⟨starts, left ++ more, List.append_assoc _ _ _, ih inner ?_⟩
    rwa [List.length_append, ← Nat.add_assoc] at further

theorem Tiles.shift (tiles : Tiles p pieces cells) (n : Nat) :
    Tiles (n + p) (pieces.map (shift n)) cells := by
  induction pieces generalizing p cells with
  | nil => exact tiles
  | cons piece rest ih =>
    obtain ⟨rfl, left, rfl, inner⟩ := tiles
    refine ⟨rfl, left, rfl, ?_⟩
    have next := ih inner
    rwa [← Nat.add_assoc] at next

/-- Tiles of the tiles are tiles. -/
theorem Tiles.flatMap {f : Piece α → List (Piece α)} (tiles : Tiles p pieces cells)
    (inner : ∀ piece ∈ pieces, Tiles piece.1 (f piece) piece.2) :
    Tiles p (pieces.flatMap f) cells := by
  induction pieces generalizing p cells with
  | nil => exact tiles
  | cons piece rest ih =>
    obtain ⟨rfl, left, rfl, further⟩ := tiles
    exact (inner piece (List.mem_cons_self ..)).append
      (ih further fun other later => inner other (List.mem_cons_of_mem _ later))

/-- Where a tile lies, and what it holds. -/
theorem Tiles.slice (tiles : Tiles p pieces cells) (member : piece ∈ pieces) :
    p ≤ piece.1 ∧ piece.1 + piece.2.length ≤ p + cells.length ∧
      piece.2 = (cells.drop (piece.1 - p)).take piece.2.length := by
  induction pieces generalizing p cells with
  | nil => exact absurd member List.not_mem_nil
  | cons first rest ih =>
    obtain ⟨rfl, left, rfl, further⟩ := tiles
    rcases List.mem_cons.mp member with rfl | later
    · refine ⟨Nat.le_refl _, ?_, ?_⟩
      · rw [List.length_append]
        omega
      · rw [Nat.sub_self, List.drop_zero, List.take_left]
    · obtain ⟨after, inside, same⟩ := ih further later
      refine ⟨by omega, ?_, ?_⟩
      · rw [List.length_append]
        omega
      · have far : piece.1 - first.1 = first.2.length + (piece.1 - (first.1 + first.2.length)) := by
          omega
        rw [far, ← List.drop_drop, List.drop_left]
        exact same

/-- Every cell of the run is in one tile, and in no other. -/
theorem Tiles.once (tiles : Tiles p pieces cells) {i : Nat} (low : p ≤ i)
    (high : i < p + cells.length) : pieces.countP (Piece.covers i) = 1 := by
  induction pieces generalizing p cells with
  | nil =>
    obtain rfl : cells = [] := tiles
    exact absurd high (by simpa using low)
  | cons first rest ih =>
    obtain ⟨rfl, left, rfl, further⟩ := tiles
    rw [List.length_append] at high
    rw [List.countP_cons]
    by_cases here : i < first.1 + first.2.length
    · have none : rest.countP (Piece.covers i) = 0 := by
        rw [List.countP_eq_zero]
        intro other later covers
        have after := (further.slice later).left
        have := (Piece.covers_iff.mp covers).left
        omega
      rw [none, if_pos (Piece.covers_iff.mpr ⟨low, here⟩)]
    · have apart : ¬ Piece.covers i first = true := fun covers =>
        here (Piece.covers_iff.mp covers).right
      rw [if_neg apart, Nat.add_zero]
      exact ih further (by omega) (by omega)

/-! ## Cutting -/

theorem tiles_cut (some : 0 < size) (enough : cells.length ≤ turns) :
    Tiles p (cut size turns p cells) cells := by
  induction turns generalizing p cells with
  | zero => exact List.eq_nil_of_length_eq_zero (Nat.le_zero.mp enough)
  | succ turns ih =>
    rw [cut]
    split
    · assumption
    · rename_i nonempty
      refine ⟨rfl, cells.drop size, (List.take_append_drop size cells).symm, ih ?_⟩
      have := List.length_pos_iff.mpr nonempty
      rw [List.length_drop]
      omega

/-- The size of a piece: whole units, when the run and the size are. -/
theorem cut_sized (some : 0 < size) (member : piece ∈ cut size turns p cells) :
    piece.2 ≠ [] ∧ piece.2.length ≤ size ∧
      ∀ unit, unit ∣ size → unit ∣ cells.length → unit ∣ piece.2.length := by
  induction turns generalizing p cells with
  | zero => exact absurd member List.not_mem_nil
  | succ turns ih =>
    rw [cut] at member
    split at member
    · exact absurd member List.not_mem_nil
    · rename_i nonempty
      rcases List.mem_cons.mp member with rfl | later
      · refine ⟨?_, List.length_take_le _ _, fun unit whole run => ?_⟩
        · rw [ne_eq, List.take_eq_nil_iff, not_or]
          exact ⟨by omega, nonempty⟩
        · simp only [List.length_take]
          rcases Nat.le_total size cells.length with long | short
          · rwa [Nat.min_eq_left long]
          · rwa [Nat.min_eq_right short]
      · obtain ⟨filled, small, units⟩ := ih later
        refine ⟨filled, small, fun unit whole run => units unit whole ?_⟩
        rw [List.length_drop]
        exact Nat.dvd_sub run whole

/-- Pieces start at whole sizes from where the run does. -/
theorem cut_starts (member : piece ∈ cut size turns p cells) : ∃ k, piece.1 = p + k * size := by
  induction turns generalizing p cells with
  | zero => exact absurd member List.not_mem_nil
  | succ turns ih =>
    rw [cut] at member
    split at member
    · exact absurd member List.not_mem_nil
    · rcases List.mem_cons.mp member with rfl | later
      · exact ⟨0, by simp⟩
      · rcases Nat.le_total size cells.length with long | short
        · rw [List.length_take_of_le long] at later
          obtain ⟨k, starts⟩ := ih later
          exact ⟨k + 1, by rw [starts, Nat.add_mul]; omega⟩
        · rw [List.drop_of_length_le short] at later
          cases turns <;> simp [cut] at later

end Tiling
