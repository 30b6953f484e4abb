import Mathlib.Algebra.BigOperators.Fin
import Mathlib.Algebra.BigOperators.Intervals
import Mathlib.Algebra.BigOperators.Ring.Finset
import Mathlib.Algebra.Order.Group.Abs
import Mathlib.Algebra.Order.Ring.Int
import Mathlib.Algebra.Order.Ring.Abs
import Mathlib.Tactic.Positivity
import Mathlib.Tactic.Ring

/-!
# Filters in registers of a fixed width

The convolution of a window with the taps of a filter, and the sums a circuit makes of it
instead: a symmetric filter folded about its centre, a half-band filter that leaves out the
taps that are zero, a tree of additions. Below them stands the arithmetic of the registers,
which is the arithmetic of the integers as long as what comes out fits.
-/

namespace FixedPointFilter

open Finset

/-! ## Results that fit -/

section Registers

variable {w : Nat}

/-- The integers a signed register of `w` bits holds. -/
def Fits (w : Nat) (v : Int) : Prop := -2 ^ (w - 1) ≤ v ∧ v < 2 ^ (w - 1)

theorem bmod_of_fits {v : Int} (positive : 0 < w) (fits : Fits w v) : v.bmod (2 ^ w) = v := by
  obtain ⟨k, rfl⟩ : ∃ k, w = k + 1 := ⟨w - 1, by omega⟩
  obtain ⟨low, high⟩ := fits
  rw [Nat.add_sub_cancel] at low high
  apply Int.bmod_eq_of_le
  · push_cast
    rw [pow_succ]
    omega
  · push_cast
    rw [pow_succ]
    omega

theorem toInt_add_of_fits {x y : BitVec w} (positive : 0 < w)
    (fits : Fits w (x.toInt + y.toInt)) : (x + y).toInt = x.toInt + y.toInt := by
  rw [BitVec.toInt_add, bmod_of_fits positive fits]

theorem toInt_sub_of_fits {x y : BitVec w} (positive : 0 < w)
    (fits : Fits w (x.toInt - y.toInt)) : (x - y).toInt = x.toInt - y.toInt := by
  rw [BitVec.toInt_sub, bmod_of_fits positive fits]

theorem toInt_mul_of_fits {x y : BitVec w} (positive : 0 < w)
    (fits : Fits w (x.toInt * y.toInt)) : (x * y).toInt = x.toInt * y.toInt := by
  rw [BitVec.toInt_mul, bmod_of_fits positive fits]

theorem fits_of_abs_lt {v : Int} (small : |v| < 2 ^ (w - 1)) : Fits w v :=
  ⟨by have := abs_lt.mp small; omega, (abs_lt.mp small).2⟩

end Registers

theorem abs_mul_le {x y a b : Int} (hx : |x| ≤ a) (hy : |y| ≤ b) : |x * y| ≤ a * b := by
  rw [abs_mul]
  exact mul_le_mul hx hy (abs_nonneg y) ((abs_nonneg x).trans hx)

/-! ## The convolution -/

section Convolution

variable {R : Type*} [CommRing R]

def convolve (length : Nat) (taps window : Nat → R) : R :=
  ∑ k ∈ range length, taps k * window k

/-- A tree of additions sums neighbours first. -/
theorem sum_pairs (f : Nat → R) (n : Nat) :
    ∑ k ∈ range (2 * n), f k = ∑ j ∈ range n, (f (2 * j) + f (2 * j + 1)) := by
  induction n with
  | zero => rfl
  | succ n ih =>
    rw [show 2 * (n + 1) = 2 * n + 1 + 1 from rfl, sum_range_succ, sum_range_succ, ih,
      sum_range_succ, add_assoc]

theorem convolve_symmetric {m : Nat} {taps : Nat → R}
    (symmetric : ∀ k, k < m → taps (2 * m - k) = taps k) (window : Nat → R) :
    convolve (2 * m + 1) taps window =
      ∑ k ∈ range m, taps k * (window k + window (2 * m - k)) + taps m * window m := by
  have upper : ∑ k ∈ range m, taps (m + 1 + k) * window (m + 1 + k) =
      ∑ k ∈ range m, taps k * window (2 * m - k) := by
    rw [← sum_range_reflect]
    refine sum_congr rfl fun k hk => ?_
    have inside : k < m := mem_range.mp hk
    have mirrored : m + 1 + (m - 1 - k) = 2 * m - k := by omega
    rw [mirrored, symmetric k inside]
  have split : 2 * m + 1 = m + 1 + m := by omega
  rw [convolve, split, sum_range_add, upper, sum_range_succ]
  simp only [mul_add, sum_add_distrib]
  ring

/-- Of a half-band filter's taps the odd ones are zero, the centre apart. -/
theorem convolve_halfBand {p : Nat} {taps : Nat → R}
    (symmetric : ∀ k, k < 2 * p + 1 → taps (4 * p + 2 - k) = taps k)
    (zero : ∀ j, j < p → taps (2 * j + 1) = 0) (window : Nat → R) :
    convolve (4 * p + 3) taps window =
      ∑ j ∈ range (p + 1), taps (2 * j) * (window (2 * j) + window (4 * p + 2 - 2 * j)) +
        taps (2 * p + 1) * window (2 * p + 1) := by
  have twice : 2 * (2 * p + 1) = 4 * p + 2 := by omega
  have folded := convolve_symmetric (m := 2 * p + 1) (by rwa [twice]) window
  rw [twice] at folded
  rw [folded, sum_range_succ, sum_pairs, sum_range_succ]
  congr 2
  refine sum_congr rfl fun j hj => ?_
  rw [zero j (mem_range.mp hj), zero_mul, add_zero]

theorem convolve_const (length : Nat) (taps : Nat → R) (c : R) :
    convolve length taps (fun _ => c) = (∑ k ∈ range length, taps k) * c :=
  (sum_mul _ _ _).symm

theorem convolve_congr {length : Nat} {taps window other : Nat → R}
    (same : ∀ k, k < length → window k = other k) :
    convolve length taps window = convolve length taps other :=
  sum_congr rfl fun k hk => by rw [same k (mem_range.mp hk)]

end Convolution

/-! ## Back to samples -/

/-- Half a unit of the bits that are dropped is added before they are. -/
def rounded (bits : Nat) (v : Int) : Int := (v + 2 ^ bits) / 2 ^ (bits + 1)

theorem rounded_mul (bits : Nat) (v : Int) : rounded bits (2 ^ (bits + 1) * v) = v := by
  have half : (2 : Int) ^ bits < 2 ^ (bits + 1) := by
    rw [pow_succ]
    have positive : (0 : Int) < 2 ^ bits := by positivity
    omega
  have nonneg : (0 : Int) ≤ 2 ^ bits := by positivity
  rw [rounded, add_comm, Int.add_mul_ediv_left _ _ (by positivity),
    Int.ediv_eq_zero_of_lt nonneg half, zero_add]

def clip (low high v : Int) : Int := max low (min v high)

theorem clip_of_within {low high v : Int} (above : low ≤ v) (below : v ≤ high) :
    clip low high v = v := by
  rw [clip, min_eq_left below, max_eq_right above]

end FixedPointFilter
