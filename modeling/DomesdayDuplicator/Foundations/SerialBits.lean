import Mathlib.Data.BitVec
import Mathlib.Data.List.GetD

/-!
# Bytes that arrive a bit at a time

Most significant bit first. The bytes of a transfer are those of which all eight bits have
arrived; a shift register that is never cleared holds the last eight bits.
-/

namespace SerialBits

abbrev Byte := BitVec 8

def shifted (bits : List Bool) : Byte := bits.foldl BitVec.shiftConcat 0

def byteAt (bits : List Bool) (k : Nat) : Byte := shifted ((bits.drop (8 * k)).take 8)

def bytes (bits : List Bool) : List Byte := (List.range (bits.length / 8)).map (byteAt bits)

def bitsOf (byte : Byte) : List Bool :=
  [byte.getLsbD 7, byte.getLsbD 6, byte.getLsbD 5, byte.getLsbD 4, byte.getLsbD 3,
    byte.getLsbD 2, byte.getLsbD 1, byte.getLsbD 0]

variable {bits last : List Bool} {b : Bool}

theorem shifted_snoc (bits : List Bool) (b : Bool) :
    shifted (bits ++ [b]) = (shifted bits).shiftConcat b := by
  simp only [shifted, List.foldl_append, List.foldl_cons, List.foldl_nil]

/-- Shifting moves the old bits up by as many places as there are new ones. -/
theorem getLsbD_foldl (bits : List Bool) (start : Byte) (i : Nat) (within : i < 8) :
    (bits.foldl BitVec.shiftConcat start).getLsbD i =
      if i < bits.length then bits.reverse.getD i false
      else start.getLsbD (i - bits.length) := by
  induction bits generalizing start with
  | nil => simp
  | cons b bits ih =>
    rw [List.foldl_cons, ih, List.reverse_cons, List.length_cons]
    rcases Nat.lt_trichotomy i bits.length with less | same | more
    · rw [if_pos less, if_pos (by omega), List.getD_append _ _ _ _ (by simpa using less)]
    · rw [if_neg (by omega), if_pos (by omega), List.getD_append_right _ _ _ _ (by simp [same]),
        BitVec.getLsbD_shiftConcat]
      simp [same]
    · obtain ⟨j, rfl⟩ : ∃ j, i = bits.length + 1 + j := ⟨i - (bits.length + 1), by omega⟩
      rw [if_neg (by omega), if_neg (by omega), BitVec.getLsbD_shiftConcat]
      have shift : bits.length + 1 + j - bits.length = j + 1 := by omega
      have rest : bits.length + 1 + j - (bits.length + 1) = j := by omega
      rw [shift, rest]
      simp
      omega

theorem shifted_last (earlier : List Bool) (eight : last.length = 8) :
    shifted (earlier ++ last) = shifted last := by
  apply BitVec.eq_of_getLsbD_eq
  intro i within
  simp only [shifted, List.foldl_append]
  rw [getLsbD_foldl _ _ _ within, getLsbD_foldl _ _ _ within, if_pos (by omega),
    if_pos (by omega)]

theorem length_bitsOf (byte : Byte) : (bitsOf byte).length = 8 := rfl

theorem shifted_bitsOf (earlier : List Bool) (byte : Byte) :
    shifted (earlier ++ bitsOf byte) = byte := by
  rw [shifted_last earlier (length_bitsOf byte)]
  apply BitVec.eq_of_getLsbD_eq
  intro i within
  rw [shifted, getLsbD_foldl _ _ _ within, if_pos (by rw [length_bitsOf]; exact within)]
  have few : i = 0 ∨ i = 1 ∨ i = 2 ∨ i = 3 ∨ i = 4 ∨ i = 5 ∨ i = 6 ∨ i = 7 := by omega
  rcases few with rfl | rfl | rfl | rfl | rfl | rfl | rfl | rfl <;> rfl

theorem byteAt_append {k : Nat} (more : List Bool) (whole : 8 * (k + 1) ≤ bits.length) :
    byteAt (bits ++ more) k = byteAt bits k := by
  have inside : 8 ≤ (bits.drop (8 * k)).length := by
    rw [List.length_drop]
    omega
  rw [byteAt, byteAt, List.drop_append_of_le_length (by omega),
    List.take_append_of_le_length inside]

/-- A byte that is not complete does not count. -/
theorem bytes_snoc_within (within : (bits.length + 1) % 8 ≠ 0) :
    bytes (bits ++ [b]) = bytes bits := by
  have count : (bits ++ [b]).length / 8 = bits.length / 8 := by
    rw [List.length_append, List.length_singleton]
    omega
  rw [bytes, bytes, count]
  apply List.map_congr_left
  intro k member
  rw [List.mem_range] at member
  exact byteAt_append [b] (by omega)

theorem bytes_snoc_full (full : (bits.length + 1) % 8 = 0) :
    bytes (bits ++ [b]) = bytes bits ++ [shifted (bits ++ [b])] := by
  have count : (bits ++ [b]).length / 8 = bits.length / 8 + 1 := by
    rw [List.length_append, List.length_singleton]
    omega
  rw [bytes, count, List.range_succ, List.map_append, List.map_singleton]
  congr 1
  · apply List.map_congr_left
    intro k member
    rw [List.mem_range] at member
    exact byteAt_append [b] (by omega)
  · have whole : (bits ++ [b]).length = 8 * (bits.length / 8) + 8 := by
      rw [List.length_append, List.length_singleton]
      omega
    have tail : ((bits ++ [b]).drop (8 * (bits.length / 8))).length = 8 := by
      rw [List.length_drop, whole]
      omega
    rw [byteAt, List.take_of_length_le (by omega),
      ← shifted_last ((bits ++ [b]).take (8 * (bits.length / 8))) tail, List.take_append_drop]

theorem bytes_append_bitsOf (whole : bits.length % 8 = 0) (byte : Byte) :
    bytes (bits ++ bitsOf byte) = bytes bits ++ [byte] := by
  have seven : ∃ front : List Bool, bitsOf byte = front ++ [byte.getLsbD 0] ∧
      front.length = 7 := ⟨(bitsOf byte).take 7, rfl, rfl⟩
  obtain ⟨front, split, length⟩ := seven
  have early : ∀ part : List Bool, part.length ≤ 7 → bytes (bits ++ part) = bytes bits := by
    intro part short
    induction part using List.reverseRecOn with
    | nil => rw [List.append_nil]
    | append_singleton part b ih =>
      rw [List.length_append, List.length_singleton] at short
      rw [← List.append_assoc, bytes_snoc_within (by rw [List.length_append]; omega),
        ih (by omega)]
  rw [split, ← List.append_assoc, bytes_snoc_full (by rw [List.length_append]; omega),
    early front (by omega), List.append_assoc, ← split, shifted_bitsOf]

end SerialBits
