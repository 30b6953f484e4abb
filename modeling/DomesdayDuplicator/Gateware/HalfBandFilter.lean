import DomesdayDuplicator.Foundations.FixedPointFilter
import DomesdayDuplicator.Gateware.HalfBandDecimator

/-!
# What the half-band decimator computes

The arithmetic of the pipeline is the arithmetic of the integers: in every state that is
reached the next value of every register fits its width. Seven edges on, the output is the
direct form of the filter over the samples taken so far, which a constant passes unchanged.
-/

namespace HalfBandFilter

open ClockedCircuit FixedPointFilter HalfBandDecimator Finset

/-- The taps of the filter in the order of the samples, scaled by 2 ^ 15. -/
def taps : List Int :=
  [-2, 0, 7, 0, -16, 0, 32, 0, -56, 0, 92, 0, -143, 0, 214, 0, -311, 0, 443, 0, -623, 0, 877, 0,
    -1261, 0, 1917, 0, -3373, 0, 10395, 16384, 10395, 0, -3373, 0, 1917, 0, -1261, 0, 877, 0,
    -623, 0, 443, 0, -311, 0, 214, 0, -143, 0, 92, 0, -56, 0, 32, 0, -16, 0, 7, 0, -2]

def halfBand (k : Nat) : Int := taps.getD k 0

def offsetSample (sample : BitVec 10) : Int := sample.toNat - 512

/-- The direct form: the newest sample meets the first tap. -/
def directForm (samples : List (BitVec 10)) : Int :=
  clip 0 1023 (rounded 14
    (convolve 63 halfBand fun k => offsetSample (samples.getD k 0)) + 512)

/-! ## Exactness -/

/-- What one edge makes of the registers, without a width. -/
structure Exact (r s : Registers) : Prop where
  preSum : ∀ pair, (s.preSum pair).toInt =
    offsetSample (r.delay (outer pair)) + offsetSample (r.delay (mirrored pair))
  centreSample : s.centreSample.toInt = offsetSample (r.delay centreTap)
  product : ∀ pair, (s.product pair).toInt = (r.preSum pair).toInt * (coefficient pair).toInt
  centreProduct : s.centreProduct.toInt = r.centreSample.toInt * 16384
  sumEight : ∀ k, (s.sumEight k).toInt = (r.product (even k)).toInt +
    (r.product (odd k)).toInt + if k = 0 then r.centreProduct.toInt else 0
  sumFour : ∀ k, (s.sumFour k).toInt = (r.sumEight (even k)).toInt + (r.sumEight (odd k)).toInt
  sumTwo : ∀ k, (s.sumTwo k).toInt = (r.sumFour (even k)).toInt + (r.sumFour (odd k)).toInt
  total : s.total.toInt = (r.sumTwo 0).toInt + (r.sumTwo 1).toInt
  filtered : (s.filtered.toNat : Int) = clip 0 1023 (rounded 14 r.total.toInt + 512)

structure Bounded (r : Registers) : Prop where
  preSum : ∀ pair, |(r.preSum pair).toInt| ≤ 1024
  centreSample : |r.centreSample.toInt| ≤ 1024
  product : ∀ pair, |(r.product pair).toInt| ≤ 2 ^ 24
  centreProduct : |r.centreProduct.toInt| ≤ 2 ^ 24
  sumEight : ∀ k, |(r.sumEight k).toInt| ≤ 2 ^ 26
  sumFour : ∀ k, |(r.sumFour k).toInt| ≤ 2 ^ 27
  sumTwo : ∀ k, |(r.sumTwo k).toInt| ≤ 2 ^ 28
  total : |r.total.toInt| ≤ 2 ^ 29

theorem bounded_reset : Bounded reset := by
  constructor <;> simp [reset]

theorem coefficient_halfBand : ∀ pair, (coefficient pair).toInt = halfBand (2 * pair) := by
  decide

theorem coefficient_small : ∀ pair, |(coefficient pair).toInt| ≤ 16384 := by
  decide

theorem offsetSample_small (sample : BitVec 10) : |offsetSample sample| ≤ 512 := by
  have := sample.isLt
  rw [offsetSample, abs_le]
  omega

theorem toInt_centred (sample : BitVec 10) : (centred sample).toInt = offsetSample sample := by
  have below := sample.isLt
  have wide : (sample.setWidth 12).toInt = sample.toNat := by
    rw [BitVec.toInt_setWidth, bmod_of_fits (by decide) ⟨by omega, by omega⟩]
  have offset : sampleOffset.toInt = 512 := rfl
  rw [centred, toInt_sub_of_fits (by decide), wide, offset, offsetSample]
  rw [wide, offset]
  exact ⟨by omega, by omega⟩

theorem toInt_tapProductWide {sample : BitVec 12} {weight : BitVec 16}
    (small : |sample.toInt| ≤ 1024) (light : |weight.toInt| ≤ 16384) :
    (tapProductWide sample weight).toInt = sample.toInt * weight.toInt := by
  have widened : (sample.signExtend 28).toInt = sample.toInt :=
    BitVec.toInt_signExtend_of_le (by decide)
  have weighted : (weight.signExtend 28).toInt = weight.toInt :=
    BitVec.toInt_signExtend_of_le (by decide)
  have product : |sample.toInt * weight.toInt| ≤ 1024 * 16384 := abs_mul_le small light
  rw [tapProductWide, BitVec.toInt_signExtend_of_le (by decide), tapProduct,
    toInt_mul_of_fits (by decide), widened, weighted]
  rw [widened, weighted]
  exact fits_of_abs_lt (by omega)

theorem toInt_sum {a b : Int} {x y : BitVec 32} (left : |x.toInt| ≤ a) (right : |y.toInt| ≤ b)
    (room : a + b < 2 ^ 31) : (x + y).toInt = x.toInt + y.toInt := by
  apply toInt_add_of_fits (by decide)
  have := abs_add_le x.toInt y.toInt
  exact fits_of_abs_lt (by omega)

theorem toNat_clipped {total : BitVec 32} (small : |total.toInt| ≤ 2 ^ 29) :
    ((clipped total).toNat : Int) = clip 0 1023 (rounded 14 total.toInt + 512) := by
  have bounds := abs_le.mp small
  have offset : roundOffset.toInt = 16384 := rfl
  have middle : sampleOffsetWide.toInt = 512 := rfl
  have low : minimumSample.toInt = 0 := rfl
  have high : maximumSample.toInt = 1023 := rfl
  have sum : (total + roundOffset).toInt = total.toInt + 16384 := by
    rw [toInt_add_of_fits (by decide), offset]
    rw [offset]
    exact ⟨by omega, by omega⟩
  have shifted : (scaled total).toInt = rounded 14 total.toInt := by
    rw [scaled, BitVec.toInt_sshiftRight, sum, Int.shiftRight_eq_div_pow]
    rfl
  have value : (recentred total).toInt = rounded 14 total.toInt + 512 := by
    rw [recentred, toInt_add_of_fits (by decide), shifted, middle]
    rw [shifted, middle, rounded]
    exact ⟨by omega, by omega⟩
  rw [← value, clipped, clip]
  simp only [BitVec.slt_iff_toInt_lt, low, high]
  split
  · have : min (recentred total).toInt 1023 ≤ 0 := by omega
    simp [max_eq_left this]
  · split
    · have : min (recentred total).toInt 1023 = 1023 := by omega
      rw [this]
      rfl
    · have cond := BitVec.toInt_eq_toNat_cond (recentred total)
      rw [BitVec.toNat_setWidth]
      split at cond <;> omega

/-- Where the registers are bounded, what they turn into fits. -/
theorem Bounded.exact {r : Registers} (h : Bounded r) {i : Pins} (running : i.resetN = true) :
    Exact r (clock i r) := by
  rw [clock, if_pos running]
  constructor
  · intro pair
    have left := offsetSample_small (r.delay (outer pair))
    have right := offsetSample_small (r.delay (mirrored pair))
    have sum := abs_add_le (offsetSample (r.delay (outer pair)))
      (offsetSample (r.delay (mirrored pair)))
    rw [toInt_add_of_fits (by decide), toInt_centred, toInt_centred]
    rw [toInt_centred, toInt_centred]
    exact fits_of_abs_lt (by omega)
  · exact toInt_centred _
  · intro pair
    exact toInt_tapProductWide (h.preSum pair) (coefficient_small pair)
  · exact toInt_tapProductWide h.centreSample (by decide)
  · intro k
    simp only
    split
    · rename_i first
      subst first
      have inner := toInt_sum (h.product 0) (h.product 1) (by decide)
      have bound := abs_add_le (r.product 0).toInt (r.product 1).toInt
      have left := h.product 0
      have right := h.product 1
      rw [toInt_sum (a := 2 ^ 25) (by rw [inner]; omega) h.centreProduct (by decide), inner]
      rfl
    · rw [toInt_sum (h.product _) (h.product _) (by decide), add_zero]
  · intro k
    exact toInt_sum (h.sumEight _) (h.sumEight _) (by decide)
  · intro k
    exact toInt_sum (h.sumFour _) (h.sumFour _) (by decide)
  · exact toInt_sum (h.sumTwo _) (h.sumTwo _) (by decide)
  · have same := toNat_clipped h.total
    rw [same]

theorem Bounded.clock {r : Registers} (h : Bounded r) (i : Pins) :
    Bounded (HalfBandDecimator.clock i r) := by
  by_cases running : i.resetN = true
  · have exact := h.exact running
    constructor
    · intro pair
      rw [exact.preSum]
      have := abs_add_le (offsetSample (r.delay (outer pair)))
        (offsetSample (r.delay (mirrored pair)))
      have := offsetSample_small (r.delay (outer pair))
      have := offsetSample_small (r.delay (mirrored pair))
      omega
    · rw [exact.centreSample]
      have := offsetSample_small (r.delay centreTap)
      omega
    · intro pair
      rw [exact.product]
      exact (abs_mul_le (h.preSum pair) (coefficient_small pair)).trans (by norm_num)
    · have centre : |(16384 : Int)| ≤ 16384 := by norm_num
      rw [exact.centreProduct]
      exact (abs_mul_le h.centreSample centre).trans (by norm_num)
    · intro k
      rw [exact.sumEight]
      have := h.product (even k)
      have := h.product (odd k)
      have := h.centreProduct
      rw [abs_le] at *
      split <;> omega
    · intro k
      rw [exact.sumFour]
      have := abs_add_le (r.sumEight (even k)).toInt (r.sumEight (odd k)).toInt
      have := h.sumEight (even k)
      have := h.sumEight (odd k)
      omega
    · intro k
      rw [exact.sumTwo]
      have := abs_add_le (r.sumFour (even k)).toInt (r.sumFour (odd k)).toInt
      have := h.sumFour (even k)
      have := h.sumFour (odd k)
      omega
    · rw [exact.total]
      have := abs_add_le (r.sumTwo 0).toInt (r.sumTwo 1).toInt
      have := h.sumTwo 0
      have := h.sumTwo 1
      omega
  · rw [HalfBandDecimator.clock, if_neg running]
    exact bounded_reset

/-! ## Seven edges -/

/-- A level of the adder tree has the sum of the level before it. -/
theorem sum_even_odd {n : Nat} (f : Fin (2 * n) → Int) :
    ∑ k, (f (even k) + f (odd k)) = ∑ k, f k := by
  rw [sum_fin_eq_sum_range, sum_fin_eq_sum_range, sum_pairs]
  refine sum_congr rfl fun j hj => ?_
  have inside : j < n := mem_range.mp hj
  rw [dif_pos inside, dif_pos (by omega), dif_pos (by omega)]
  rfl

/-- The pairs and the centre are the whole window. -/
theorem folded (window : Nat → Int) :
    ∑ pair : Fin 16, (window (2 * pair) + window (62 - 2 * pair)) * (coefficient pair).toInt +
      window 31 * 16384 = convolve 63 halfBand window := by
  have symmetric : ∀ k, k < 2 * 15 + 1 → halfBand (4 * 15 + 2 - k) = halfBand k := by decide
  have zero : ∀ j, j < 15 → halfBand (2 * j + 1) = 0 := by decide
  have whole := convolve_halfBand symmetric zero window
  have pairs : ∑ pair : Fin 16,
      (window (2 * pair) + window (62 - 2 * pair)) * (coefficient pair).toInt =
        ∑ j ∈ range 16, halfBand (2 * j) * (window (2 * j) + window (62 - 2 * j)) := by
    rw [← Fin.sum_univ_eq_sum_range
      (fun j => halfBand (2 * j) * (window (2 * j) + window (62 - 2 * j)))]
    exact sum_congr rfl fun pair _ => by rw [coefficient_halfBand, mul_comm]
  rw [pairs, mul_comm (window 31)]
  exact whole.symm

theorem filtered_after {r : Nat → Registers} (exact : ∀ k, k < 7 → Exact (r k) (r (k + 1)))
    {samples : List (BitVec 10)} (history : ∀ k, (r 0).delay k = samples.getD k 0) :
    ((r 7).filtered.toNat : Int) = directForm samples := by
  have total : (r 6).total.toInt =
      convolve 63 halfBand fun k => offsetSample (samples.getD k 0) :=
    calc (r 6).total.toInt
      _ = ∑ k, ((r 5).sumTwo k).toInt := by
        rw [(exact 5 (by decide)).total, Fin.sum_univ_two]
      _ = ∑ k, ((r 4).sumFour k).toInt := by
        simp only [(exact 4 (by decide)).sumTwo]
        exact sum_even_odd (n := 2) fun k => ((r 4).sumFour k).toInt
      _ = ∑ k, ((r 3).sumEight k).toInt := by
        simp only [(exact 3 (by decide)).sumFour]
        exact sum_even_odd (n := 4) fun k => ((r 3).sumEight k).toInt
      _ = ∑ pair, ((r 2).product pair).toInt + (r 2).centreProduct.toInt := by
        simp only [(exact 2 (by decide)).sumEight]
        rw [sum_add_distrib, sum_ite_eq', if_pos (mem_univ 0)]
        congr 1
        exact sum_even_odd (n := 8) fun k => ((r 2).product k).toInt
      _ = ∑ pair : Fin 16, (offsetSample (samples.getD (2 * pair) 0) +
            offsetSample (samples.getD (62 - 2 * pair) 0)) * (coefficient pair).toInt +
          offsetSample (samples.getD 31 0) * 16384 := by
        simp only [(exact 1 (by decide)).product, (exact 1 (by decide)).centreProduct,
          (exact 0 (by decide)).preSum, (exact 0 (by decide)).centreSample, history]
        rfl
      _ = _ := folded fun k => offsetSample (samples.getD k 0)
  rw [(exact 6 (by decide)).filtered, total, directForm]

/-- A constant comes out as it went in. -/
theorem directForm_const {samples : List (BitVec 10)} {c : BitVec 10}
    (same : ∀ k, k < 63 → samples.getD k 0 = c) : directForm samples = c.toNat := by
  have below := c.isLt
  have gain : ∑ k ∈ range 63, halfBand k = 2 ^ (14 + 1) := by decide
  have flat : convolve 63 halfBand (fun k => offsetSample (samples.getD k 0)) =
      2 ^ (14 + 1) * offsetSample c := by
    rw [← gain, ← convolve_const]
    exact convolve_congr fun k hk => by rw [same k hk]
  rw [directForm, flat, rounded_mul, offsetSample, clip_of_within (by omega) (by omega)]
  omega

end HalfBandFilter
