import DomesdayDuplicator.Gateware.HalfBandFilter

/-!
# The stream out of the decimator

For every stream of samples, at whatever clocks they come and with resets between them: an
output is marked for every second sample, seven clocks after it was taken, and is the
direct form of the filter over the samples before it.
-/

namespace DecimatedStream

open ClockedCircuit HalfBandDecimator HalfBandFilter

variable (inputs : Nat → Pins)

def registers (n : Nat) : Registers := run clock reset inputs n

/-- The samples taken since the last reset, the newest first. -/
def history : Nat → List (BitVec 10)
  | 0 => []
  | n + 1 =>
    if (inputs n).resetN then
      if (inputs n).sampleEnable then (inputs n).dataIn :: history n else history n
    else []

/-- How many samples are taken from the clock `first` on. -/
def taken (first : Nat) : Nat → Nat
  | 0 => 0
  | n + 1 => taken first n + if first ≤ n ∧ (inputs n).sampleEnable then 1 else 0

/-! ## The history -/

structure Tracks (r : Registers) (samples : List (BitVec 10)) : Prop where
  phase : r.outputPhase = decide (samples.length % 2 = 1)
  delay : ∀ k, r.delay k = samples.getD k 0

theorem tracks_reset : Tracks reset [] := ⟨rfl, fun _ => rfl⟩

theorem Tracks.sample {r : Registers} {samples : List (BitVec 10)} (h : Tracks r samples)
    {i : Pins} (running : i.resetN = true) (enabled : i.sampleEnable = true) :
    Tracks (clock i r) (i.dataIn :: samples) := by
  rw [clock, if_pos running]
  constructor
  · simp only [enabled, if_true, h.phase, List.length_cons]
    rcases Nat.mod_two_eq_zero_or_one samples.length with even | odd
    · simp [even, Nat.add_mod]
    · simp [odd, Nat.add_mod]
  · intro k
    simp only [enabled, if_true, shift]
    cases k using Fin.cases with
    | zero => rfl
    | succ k => exact h.delay k.castSucc

theorem Tracks.idle {r : Registers} {samples : List (BitVec 10)} (h : Tracks r samples)
    {i : Pins} (running : i.resetN = true) (disabled : i.sampleEnable = false) :
    Tracks (clock i r) samples := by
  rw [clock, if_pos running]
  constructor
  · simpa [disabled] using h.phase
  · simpa [disabled] using h.delay

theorem tracks (n : Nat) : Tracks (registers inputs n) (history inputs n) := by
  induction n with
  | zero => exact tracks_reset
  | succ n ih =>
    rw [registers, run, history]
    by_cases running : (inputs n).resetN = true
    · rw [if_pos running]
      by_cases enabled : (inputs n).sampleEnable = true
      · rw [if_pos enabled]
        exact ih.sample running enabled
      · rw [if_neg enabled]
        exact ih.idle running (Bool.eq_false_iff.mpr enabled)
    · rw [if_neg running, clock, if_neg running]
      exact tracks_reset

/-! ## The flags -/

/-- A sample that an output is made for, and no reset for the `k` clocks after it. -/
structure SetsOut (m k : Nat) : Prop where
  running : ∀ j, j ≤ k → (inputs (m + j)).resetN = true
  enabled : (inputs m).sampleEnable = true
  phase : (registers inputs m).outputPhase = true

theorem stageValid_zero (n : Nat) : (registers inputs (n + 1)).stageValid 0 = true ↔
    (inputs n).resetN = true ∧ (inputs n).sampleEnable = true ∧
      (registers inputs n).outputPhase = true := by
  rw [registers, run, clock]
  by_cases running : (inputs n).resetN = true
  · rw [if_pos running]
    simp [shift, running, registers]
  · rw [if_neg running]
    simp [reset, running]

theorem stageValid_succ (k : Fin 6) (n : Nat) :
    (registers inputs (n + 1)).stageValid k.succ = true ↔
      (inputs n).resetN = true ∧ (registers inputs n).stageValid k.castSucc = true := by
  rw [registers, run, clock]
  by_cases running : (inputs n).resetN = true
  · rw [if_pos running]
    simp [shift, running, registers]
  · rw [if_neg running]
    simp [reset, running]

/-- A flag of the pipeline stands for an output that set out so many clocks ago. -/
theorem stageValid_iff (k : Fin 7) (n : Nat) : (registers inputs n).stageValid k = true ↔
    ∃ m, n = m + k + 1 ∧ SetsOut inputs m k := by
  induction k using Fin.induction generalizing n with
  | zero =>
    cases n with
    | zero => simp [registers, run, reset]
    | succ n =>
      rw [stageValid_zero]
      constructor
      · rintro ⟨running, enabled, phase⟩
        refine ⟨n, rfl, ?_, enabled, phase⟩
        intro j first
        rw [Nat.le_zero.mp first]
        exact running
      · rintro ⟨m, clocks, running, enabled, phase⟩
        obtain rfl : n = m := by simpa using clocks
        exact ⟨running 0 (Nat.le_refl 0), enabled, phase⟩
  | succ k ih =>
    cases n with
    | zero => simp [registers, run, reset]
    | succ n =>
      rw [stageValid_succ, ih]
      constructor
      · rintro ⟨now, m, clocks, running, enabled, phase⟩
        refine ⟨m, by simp at clocks ⊢; omega, ?_, enabled, phase⟩
        intro j within
        rcases Nat.lt_or_ge k.val j with last | earlier
        · have same : m + j = n := by simp at clocks within; omega
          rw [same]
          exact now
        · exact running j earlier
      · rintro ⟨m, clocks, running, enabled, phase⟩
        have last : m + (k.val + 1) = n := by simp at clocks; omega
        refine ⟨last ▸ running (k.val + 1) (by simp), m, by simp; omega, ?_, enabled, phase⟩
        intro j within
        exact running j (by simp at within ⊢; omega)

/-! ## A constant -/

theorem taken_early {first n : Nat} (early : n ≤ first) : taken inputs first n = 0 := by
  induction n with
  | zero => rfl
  | succ n ih => rw [taken, ih (by omega), if_neg (by omega)]

/-- What has been taken since `first` is what stands at the head of the history. -/
theorem history_const {first n : Nat} {c : BitVec 10}
    (same : ∀ k, first ≤ k → k < n → (inputs k).resetN = true ∧
      ((inputs k).sampleEnable = true → (inputs k).dataIn = c)) (j : Nat)
    (recent : j < taken inputs first n) : (history inputs n).getD j 0 = c := by
  induction n generalizing j with
  | zero => cases recent
  | succ n ih =>
    have before : ∀ j, j < taken inputs first n → (history inputs n).getD j 0 = c :=
      ih fun k from' below => same k from' (Nat.lt_succ_of_lt below)
    by_cases begun : first ≤ n
    · obtain ⟨running, constant⟩ := same n begun (Nat.lt_succ_self n)
      rw [history, if_pos running]
      by_cases enabled : (inputs n).sampleEnable = true
      · rw [taken, if_pos ⟨begun, enabled⟩] at recent
        rw [if_pos enabled]
        cases j with
        | zero => exact constant enabled
        | succ j => exact before j (Nat.lt_of_succ_lt_succ recent)
      · rw [taken, if_neg fun both => enabled both.2] at recent
        rw [if_neg enabled]
        exact before j recent
    · rw [taken_early inputs (by omega)] at recent
      cases recent

/-! ## The outputs -/

theorem bounded (n : Nat) : Bounded (registers inputs n) :=
  run_invariant bounded_reset (fun i _ h => h.clock i) inputs n

theorem exact_at {n : Nat} (running : (inputs n).resetN = true) :
    Exact (registers inputs n) (registers inputs (n + 1)) :=
  (bounded inputs n).exact running

theorem SetsOut.filtered {m : Nat} (h : SetsOut inputs m 6) :
    ((registers inputs (m + 7)).filtered.toNat : Int) = directForm (history inputs m) :=
  filtered_after (r := fun k => registers inputs (m + k))
    (fun k hk => exact_at inputs (h.running k (Nat.le_of_lt_succ hk))) (tracks inputs m).delay

/-- The decimator is the direct form of its filter. In every state it reaches no register
overflows, and the bypass lets the samples through. -/
theorem decimates (n : Nat) :
    ((inputs n).resetN = true → Exact (registers inputs n) (registers inputs (n + 1))) ∧
      ((inputs n).decimate = false →
        dataOut (inputs n) (registers inputs n) = (inputs n).dataIn ∧
          outputEnable (inputs n) (registers inputs n) = (inputs n).sampleEnable) ∧
      ((inputs n).decimate = true →
        (outputEnable (inputs n) (registers inputs n) = true ↔
          (inputs n).resetN = true ∧ ∃ m, n = m + 7 ∧ SetsOut inputs m 6) ∧
        ∀ m, n = m + 7 → outputEnable (inputs n) (registers inputs n) = true →
          (history inputs m).length % 2 = 1 ∧
            ((dataOut (inputs n) (registers inputs n)).toNat : Int) =
              directForm (history inputs m) ∧
            ∀ first c, 63 ≤ taken inputs first m →
              (∀ k, first ≤ k → k < m → (inputs k).resetN = true ∧
                ((inputs k).sampleEnable = true → (inputs k).dataIn = c)) →
              dataOut (inputs n) (registers inputs n) = c) := by
  refine ⟨exact_at inputs, ?_, ?_⟩
  · intro passthrough
    simp [dataOut, outputEnable, passthrough]
  · intro decimating
    have enable : outputEnable (inputs n) (registers inputs n) = true ↔
        (inputs n).resetN = true ∧ ∃ m, n = m + 7 ∧ SetsOut inputs m 6 := by
      rw [outputEnable, if_pos decimating, present]
      by_cases running : (inputs n).resetN = true
      · rw [if_pos running, stageValid_iff]
        simp [running]
      · rw [if_neg running]
        simp [reset, running]
    refine ⟨enable, ?_⟩
    rintro m rfl marked
    obtain ⟨running, m', clocks, sets⟩ := enable.mp marked
    obtain rfl : m = m' := by omega
    have phase : (history inputs m).length % 2 = 1 := by
      simpa [(tracks inputs m).phase] using sets.phase
    have value : ((dataOut (inputs (m + 7)) (registers inputs (m + 7))).toNat : Int) =
        directForm (history inputs m) := by
      rw [dataOut, if_pos decimating, present, if_pos running]
      exact sets.filtered
    refine ⟨phase, value, ?_⟩
    intro first c settled same
    have window : ∀ k, k < 63 → (history inputs m).getD k 0 = c :=
      fun k inside => history_const inputs same k (Nat.lt_of_lt_of_le inside settled)
    rw [directForm_const window] at value
    exact BitVec.eq_of_toNat_eq (Int.ofNat_inj.mp value)

end DecimatedStream
