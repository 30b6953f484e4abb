import Mathlib.Data.BitVec

/-!
# The bytes of a word

Reading and replacing one byte of a bit vector. Words are compared byte by byte,
so a word filled a byte at a time does not depend on what it held before.
-/

namespace ByteLanes

variable {w : Nat}

/-- Byte `k`, counted from the least significant. -/
def lane (x : BitVec w) (k : Nat) : BitVec 8 := x.extractLsb' (8 * k) 8

/-- The word with byte `k` replaced. -/
def setLane (x : BitVec w) (k : Nat) (b : BitVec 8) : BitVec w :=
  (x &&& ~~~(0xFF#w <<< (8 * k))) ||| (b.setWidth w <<< (8 * k))

/-- The word of given bytes, least significant first. -/
def ofLanes (w : Nat) (bytes : List (BitVec 8)) : BitVec w :=
  bytes.zipIdx.foldl (fun x byte => setLane x byte.2 byte.1) 0

theorem getLsbD_lane (x : BitVec w) (k i : Nat) :
    (lane x k).getLsbD i = (decide (i < 8) && x.getLsbD (8 * k + i)) := by
  rw [lane, BitVec.getLsbD_extractLsb']

theorem getLsbD_setLane (x : BitVec w) (k : Nat) (b : BitVec 8) {i : Nat} (h : i < w) :
    (setLane x k b).getLsbD i =
      if 8 * k ≤ i ∧ i < 8 * k + 8 then b.getLsbD (i - 8 * k) else x.getLsbD i := by
  have ones : ∀ j, (255).testBit j = decide (j < 8) := fun j =>
    Nat.testBit_two_pow_sub_one 8 j
  simp only [setLane, BitVec.getLsbD_or, BitVec.getLsbD_and, BitVec.getLsbD_not,
    BitVec.getLsbD_shiftLeft, BitVec.getLsbD_setWidth, BitVec.getLsbD_ofNat, h, decide_true,
    Bool.true_and, ones]
  by_cases low : i < 8 * k
  · rw [if_neg (by omega)]
    simp [low]
  · by_cases high : i < 8 * k + 8
    · have inside : i - 8 * k < 8 := by omega
      rw [if_pos ⟨by omega, high⟩]
      simp [low, inside, show i - 8 * k < w by omega]
    · rw [if_neg (by omega), BitVec.getLsbD_of_ge b _ (by omega)]
      simp [low, show ¬ i - 8 * k < 8 by omega]

theorem lane_setLane_same (x : BitVec w) {k : Nat} (b : BitVec 8) (h : 8 * k + 8 ≤ w) :
    lane (setLane x k b) k = b := by
  apply BitVec.eq_of_getLsbD_eq
  intro i hi
  rw [getLsbD_lane, getLsbD_setLane x k b (by omega), if_pos (by omega)]
  simp [hi]

theorem lane_setLane_ne (x : BitVec w) {j k : Nat} (b : BitVec 8) (h : j ≠ k) :
    lane (setLane x k b) j = lane x j := by
  apply BitVec.eq_of_getLsbD_eq
  intro i hi
  rw [getLsbD_lane, getLsbD_lane]
  by_cases inside : 8 * j + i < w
  · rw [getLsbD_setLane x k b inside, if_neg (by omega)]
  · rw [BitVec.getLsbD_of_ge _ _ (by omega), BitVec.getLsbD_of_ge x _ (by omega)]

theorem eq_of_lanes {x y : BitVec w} (h : ∀ k, 8 * k < w → lane x k = lane y k) : x = y := by
  apply BitVec.eq_of_getLsbD_eq
  intro i hi
  have same := congrArg (fun b => b.getLsbD (i % 8)) (h (i / 8) (by omega))
  simp only [getLsbD_lane, show i % 8 < 8 by omega, decide_true, Bool.true_and,
    show 8 * (i / 8) + i % 8 = i by omega] at same
  exact same

/-! ## Bytes as a number -/

/-- The number with these bytes, least significant first. -/
def little : List (BitVec 8) → Nat
  | [] => 0
  | b :: rest => b.toNat + 256 * little rest

theorem toNat_lane (x : BitVec w) (k : Nat) : (lane x k).toNat = x.toNat / 256 ^ k % 256 := by
  rw [lane, BitVec.extractLsb'_toNat, Nat.shiftRight_eq_div_pow, Nat.pow_mul]

theorem little_lanes (x : BitVec w) (first n : Nat) :
    little ((List.range n).map fun k => lane x (first + k)) = x.toNat / 256 ^ first % 256 ^ n := by
  induction n generalizing first with
  | zero => simp [little, Nat.mod_one]
  | succ n ih =>
    have rest := ih (first + 1)
    simp only [List.range_succ_eq_map, List.map_cons, List.map_map, little, Nat.add_zero,
      toNat_lane]
    have shifted : (fun k => lane x (first + k)) ∘ Nat.succ =
        fun k => lane x (first + 1 + k) := by
      funext k
      simp only [Function.comp_apply, Nat.succ_eq_add_one, Nat.add_assoc, Nat.add_comm 1 k]
    rw [shifted, rest, Nat.pow_succ, ← Nat.div_div_eq_div_mul, Nat.pow_succ', Nat.mod_mul]

theorem lane_foldl_setLane (bytes : List (BitVec 8)) (x : BitVec w) (first k : Nat)
    (fits : 8 * (first + bytes.length) ≤ w) :
    lane ((bytes.zipIdx first).foldl (fun x byte => setLane x byte.2 byte.1) x) k =
      if first ≤ k ∧ k < first + bytes.length then bytes.getD (k - first) 0 else lane x k := by
  induction bytes generalizing x first with
  | nil =>
    rw [if_neg (by simp)]
    rfl
  | cons b rest ih =>
    simp only [List.length_cons] at fits
    simp only [List.zipIdx_cons, List.foldl_cons, List.length_cons]
    rw [ih _ _ (by omega)]
    by_cases here : k = first
    · subst here
      rw [if_neg (by omega), if_pos (by omega), lane_setLane_same _ _ (by omega), Nat.sub_self]
      rfl
    · rw [lane_setLane_ne _ _ here]
      by_cases later : first + 1 ≤ k ∧ k < first + 1 + rest.length
      · rw [if_pos later, if_pos (by omega), show k - first = (k - (first + 1)) + 1 by omega]
        rfl
      · rw [if_neg later, if_neg (by omega)]

theorem lane_ofLanes {bytes : List (BitVec 8)} (fits : 8 * bytes.length ≤ w) (k : Nat) :
    lane (ofLanes w bytes) k = bytes.getD k 0 := by
  rw [ofLanes, lane_foldl_setLane _ _ _ _ (by omega)]
  by_cases inside : k < bytes.length
  · rw [if_pos (by omega), Nat.sub_zero]
  · rw [if_neg (by omega), List.getD_eq_getElem?_getD, List.getElem?_eq_none (by omega)]
    apply BitVec.eq_of_toNat_eq
    simp [toNat_lane]

/-- A word filled byte by byte is the number its bytes make. -/
theorem toNat_ofLanes {bytes : List (BitVec 8)} (fits : 8 * bytes.length = w) :
    (ofLanes w bytes).toNat = little bytes := by
  have read := little_lanes (ofLanes w bytes) 0 bytes.length
  have bytes_eq : (List.range bytes.length).map (fun k => lane (ofLanes w bytes) (0 + k)) =
      bytes := by
    apply List.ext_getElem
    · simp
    · intro k _ inside
      simp [lane_ofLanes (by omega : 8 * bytes.length ≤ w), inside]
  have bound : (ofLanes w bytes).toNat < 256 ^ bytes.length := by
    have width : 2 ^ w = 256 ^ bytes.length := by
      rw [← fits, Nat.pow_mul]
    exact width ▸ (ofLanes w bytes).isLt
  rw [bytes_eq, Nat.pow_zero, Nat.div_one, Nat.mod_eq_of_lt bound] at read
  exact read.symm

end ByteLanes
