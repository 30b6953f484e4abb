import Mathlib.Data.Nat.ModEq

/-!
# Counting in laps

Places numbered without end and taken modulo the length of a lap: where the next
one is, and that a lap's worth of consecutive ones are all different.
-/

namespace Laps

theorem succ_div_mod {lap : Nat} (pos : 0 < lap) (m : Nat) :
    ((m + 1) % lap = m % lap + 1 ∧ (m + 1) / lap = m / lap) ∨
      (m % lap + 1 = lap ∧ (m + 1) % lap = 0 ∧ (m + 1) / lap = m / lap + 1) := by
  have bound := Nat.mod_lt m pos
  have whole := Nat.div_add_mod m lap
  rcases Nat.lt_or_ge (m % lap + 1) lap with inside | last
  · left
    have : m + 1 = (m % lap + 1) + lap * (m / lap) := by omega
    rw [this, Nat.add_mul_mod_self_left, Nat.mod_eq_of_lt inside, Nat.add_mul_div_left _ _ pos,
      Nat.div_eq_of_lt inside, Nat.zero_add]
    exact ⟨rfl, rfl⟩
  · right
    have : m + 1 = lap * (m / lap + 1) := by rw [Nat.mul_add]; omega
    rw [this, Nat.mul_mod_right, Nat.mul_div_cancel_left _ pos]
    exact ⟨by omega, rfl, rfl⟩

/-- Two numbers of one lap with the same place are the same number. -/
theorem same_visit {lap : Nat} (first : Nat) {j k : Nat} (hj : first ≤ j) (hj' : j < first + lap)
    (hk : first ≤ k) (hk' : k < first + lap) (h : j % lap = k % lap) : j = k := by
  have near : ∀ {a b}, a ≤ b → b < a + lap → a % lap = b % lap → a = b := by
    intro a b le lt eq
    have dvd : lap ∣ b - a := (Nat.modEq_iff_dvd' le).mp eq
    have := Nat.eq_zero_of_dvd_of_lt dvd (by omega)
    omega
  rcases Nat.le_total j k with le | le
  · exact near le (by omega) h
  · exact (near le (by omega) h.symm).symm

end Laps
