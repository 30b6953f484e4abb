import Mathlib.Data.BitVec

/-!
# Reflected cyclic redundancy checks

A register that is shifted right one bit at a time and xored with a polynomial
whenever a one falls out. The step is linear over xor, which is all that is
needed to see that folding a byte bit by bit is one table look-up, and that a
message that repeats the register's own bytes clears it.
-/

namespace ReflectedCrc

variable {w : Nat}

def bitStep (poly x : BitVec w) : BitVec w :=
  if x.getLsbD 0 then (x >>> 1) ^^^ poly else x >>> 1

def bits (poly : BitVec w) : Nat → BitVec w → BitVec w
  | 0, x => x
  | n + 1, x => bits poly n (bitStep poly x)

def byteStep (poly x : BitVec w) (b : BitVec 8) : BitVec w :=
  bits poly 8 (x ^^^ b.setWidth w)

def fold (poly : BitVec w) (x : BitVec w) (message : List (BitVec 8)) : BitVec w :=
  message.foldl (byteStep poly) x

/-- The entry of the usual look-up table for one byte. -/
def tableEntry (poly : BitVec w) (b : BitVec 8) : BitVec w :=
  bits poly 8 (b.setWidth w)

def tableStep (poly x : BitVec w) (b : BitVec 8) : BitVec w :=
  tableEntry poly ((x ^^^ b.setWidth w).setWidth 8) ^^^ (x >>> 8)

theorem bitStep_xor (poly x y : BitVec w) :
    bitStep poly (x ^^^ y) = bitStep poly x ^^^ bitStep poly y := by
  cases hx : x.getLsbD 0 <;> cases hy : y.getLsbD 0 <;>
    simp only [bitStep, BitVec.getLsbD_xor, hx, hy, BitVec.ushiftRight_xor_distrib,
      Bool.xor_false, Bool.false_xor, Bool.xor_self, Bool.false_eq_true, if_true, if_false]
  · rw [BitVec.xor_assoc]
  · rw [BitVec.xor_assoc, BitVec.xor_assoc, BitVec.xor_comm poly]
  · rw [BitVec.xor_assoc (x >>> 1), BitVec.xor_comm poly (_ ^^^ poly), BitVec.xor_assoc,
      BitVec.xor_self, BitVec.xor_zero]

theorem bits_xor (poly : BitVec w) (n : Nat) (x y : BitVec w) :
    bits poly n (x ^^^ y) = bits poly n x ^^^ bits poly n y := by
  induction n generalizing x y with
  | zero => rfl
  | succ n ih => simp only [bits, bitStep_xor, ih]

/-- Shifting out zeros never meets the polynomial. -/
theorem bits_of_low_zero (poly : BitVec w) (n : Nat) (x : BitVec w)
    (low : ∀ i, i < n → x.getLsbD i = false) : bits poly n x = x >>> n := by
  induction n generalizing x with
  | zero => simp [bits]
  | succ n ih =>
    have first : bitStep poly x = x >>> 1 := by
      simp [bitStep, low 0 (by omega)]
    have rest : ∀ i, i < n → (x >>> 1).getLsbD i = false := by
      intro i hi
      rw [BitVec.getLsbD_ushiftRight]
      exact low (1 + i) (by omega)
    rw [bits, first, ih _ rest, ← BitVec.shiftRight_add, Nat.add_comm]

theorem bits_zero (poly : BitVec w) (n : Nat) : bits poly n 0 = 0 := by
  rw [bits_of_low_zero poly n 0 (by simp)]
  simp

/-- The look-up table computes the same byte step. -/
theorem tableStep_eq_byteStep (poly x : BitVec w) (b : BitVec 8) :
    tableStep poly x b = byteStep poly x b := by
  let y := x ^^^ b.setWidth w
  have parts : y = ((y.setWidth 8).setWidth w) ^^^ (y ^^^ (y.setWidth 8).setWidth w) := by
    rw [BitVec.xor_comm y, ← BitVec.xor_assoc, BitVec.xor_self, BitVec.zero_xor]
  have high : ∀ i, i < 8 → (y ^^^ (y.setWidth 8).setWidth w).getLsbD i = false := by
    intro i hi
    by_cases hw : i < w
    · simp [hi, hw]
    · exact BitVec.getLsbD_of_ge _ _ (by omega)
  have shifted : (y ^^^ (y.setWidth 8).setWidth w) >>> 8 = x >>> 8 := by
    apply BitVec.eq_of_getLsbD_eq
    intro i hi
    simp [y, BitVec.getLsbD_xor, BitVec.getLsbD_setWidth, BitVec.getLsbD_ushiftRight]
  show bits poly 8 ((y.setWidth 8).setWidth w) ^^^ (x >>> 8) = bits poly 8 y
  rw [parts, bits_xor, bits_of_low_zero poly 8 _ high, ← parts, shifted]

@[simp] theorem fold_cons (poly x : BitVec w) (b : BitVec 8) (rest : List (BitVec 8)) :
    fold poly x (b :: rest) = fold poly (byteStep poly x b) rest := rfl

@[simp] theorem fold_append (poly x : BitVec w) (l r : List (BitVec 8)) :
    fold poly x (l ++ r) = fold poly (fold poly x l) r :=
  List.foldl_append

/-- The register can be carried from block to block of any split. -/
theorem foldl_fold_eq_fold_flatten (poly x : BitVec w) (blocks : List (List (BitVec 8))) :
    blocks.foldl (fold poly) x = fold poly x blocks.flatten := by
  induction blocks generalizing x with
  | nil => rfl
  | cons block rest ih =>
    simp only [List.foldl_cons, List.flatten_cons, fold_append]
    exact ih _

theorem fold_table (poly x : BitVec w) (message : List (BitVec 8)) :
    message.foldl (tableStep poly) x = fold poly x message := by
  have : tableStep poly = byteStep poly := by
    funext x b
    exact tableStep_eq_byteStep poly x b
  rw [this, fold]

end ReflectedCrc
