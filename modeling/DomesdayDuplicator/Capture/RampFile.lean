import DomesdayDuplicator.Capture.TestDataAnalysis
import Mathlib.Data.List.Chain

/-!
# Which files pass for a ramp

The verdict on a 16-bit file is that of its samples cut down to ten bits, taken from the first
one on. What the cut leaves out, a byte left over at the end, and a first sample outside the
ramp do not count against the file.
-/

namespace RampFile

open SampleFormat CaptureWriters CaptureReader ChunkedReader TestDataAnalysis
open FuelLoop (Turn run)

/-! ## The ramp -/

/-- The value the ramp has after another. -/
def successor (value : Nat) : Nat := if sequenceLength ≤ value + 1 then 0 else value + 1

/-- From the first value on, whatever that is. -/
def Unbroken (values : List Nat) : Prop :=
  values.IsChain fun value after => after = successor value

/-- A stretch of the test ramp. -/
def rampFrom (first count : Nat) : List Nat :=
  (List.range count).map fun i => (first + i) % sequenceLength

theorem advance_value {v : TestPatternVerifier} (small : v.currentValue < 2 ^ 16 - 1) :
    v.advance.currentValue = successor v.currentValue ∧
      v.advance.haveFirstSample = v.haveFirstSample := by
  have whole : (v.currentValue + 1) % 2 ^ 16 = v.currentValue + 1 :=
    Nat.mod_eq_of_lt (by omega)
  rw [TestPatternVerifier.advance, whole]
  dsimp only
  rw [successor]
  split <;> exact ⟨rfl, rfl⟩

theorem successor_lt {value : Nat} : successor value < sequenceLength := by
  unfold successor
  split
  · decide
  · omega

/-- A verifier that has its first sample wants the ramp to go on. -/
theorem feedAll_chain {samples : List Nat} {v : TestPatternVerifier}
    (seeded : v.haveFirstSample = true) (small : v.currentValue < 2 ^ 16 - 1)
    (passed : v.result.passed = true) :
    (TestPatternVerifier.feedAll samples v).1.result.passed = true ↔
      Unbroken (v.currentValue :: samples) := by
  induction samples generalizing v with
  | nil => exact ⟨fun _ => List.isChain_singleton _, fun _ => passed⟩
  | cons sample rest ih =>
    obtain ⟨next, still⟩ := advance_value small
    rw [TestPatternVerifier.feedAll, TestPatternVerifier.feedOne, if_pos seeded]
    dsimp only
    rw [Unbroken, List.isChain_cons_cons, next]
    by_cases follows : sample = successor v.currentValue
    · have fine : v.advance.checked.result.passed = true := by
        have kept : v.advance.result.passed = v.result.passed := by
          rw [TestPatternVerifier.advance]
          dsimp only
          split <;> rfl
        exact kept.trans passed
      have here : v.advance.checked.currentValue = sample := next.trans follows.symm
      have below : v.advance.checked.currentValue < 2 ^ 16 - 1 := by
        have := @successor_lt v.currentValue
        rw [here, follows]
        rw [sequenceLength] at this
        omega
      rw [if_neg (not_not_intro follows)]
      dsimp only
      rw [ih (v := v.advance.checked) (still.trans seeded) below fine, here]
      exact ⟨fun chain => ⟨follows, chain⟩, And.right⟩
    · rw [if_pos follows]
      simp [follows]

/-- The verifier passes what goes up the ramp from its first sample. -/
theorem feedAll_unbroken {samples : List Nat} (small : ∀ sample ∈ samples, sample < 1024) :
    (TestPatternVerifier.feedAll samples {}).1.result.passed = true ↔ Unbroken samples := by
  cases samples with
  | nil => exact ⟨fun _ => List.isChain_nil, fun _ => rfl⟩
  | cons first rest =>
    have := small first (by simp)
    exact feedAll_chain (v := ⟨true, first, { samplesChecked := 1 }⟩) rfl
      (by dsimp only; omega) rfl

/-! ## The samples of a file -/

/-- What the reader makes of a file, whole. -/
def tenBits (file : List Byte) : List Nat :=
  (samples file).map fun w => toTenBit (signedSample w)

/-- The analysis of a 16-bit file says that it passed. -/
def Passes (file : List Byte) : Prop :=
  ∃ cancelled fuel analysis,
    analyseTestData RawReader.read cancelled fuel (openRaw file) = some analysis ∧
      analysis.outcome = .passed

theorem toTenBit_lt (sample : BitVec 16) : toTenBit sample < 1024 := by
  have low := BitVec.le_toInt sample
  have high := BitVec.toInt_lt (x := sample)
  have quotient := Int.tdiv_eq_ediv (a := sample.toInt) (b := sampleScale)
  rw [toTenBit, sampleZeroOffset, quotient, sampleScale]
  split
  · omega
  · rw [Int.sign_eq_one_of_pos (by decide)]
    omega

theorem tenBits_lt (file : List Byte) : ∀ value ∈ tenBits file, value < 1024 := by
  intro value among
  obtain ⟨w, -, rfl⟩ := List.mem_map.mp among
  exact toTenBit_lt _

/-- A verdict that nobody cut short is the one that comes of waiting. -/
theorem run_never {ρ : Type} {read : Nat → ρ → Except String (Answer Nat × ρ)}
    {cancelled : Nat → Bool} {fuel : Nat} {s : State ρ} {analysis : Analysis}
    (result : run (turn read cancelled) fuel s = some analysis)
    (passed : analysis.outcome = .passed) :
    run (turn read never) fuel s = some analysis := by
  induction fuel generalizing s with
  | zero => simp [run] at result
  | succ fuel ih =>
    obtain ⟨reader, v, turns⟩ := s
    by_cases stop : cancelled turns = true
    · have ended : turn read cancelled (reader, v, turns) = .done (conclude true v) := by
        rw [turn, if_pos stop]
      rw [FuelLoop.run_done ended] at result
      obtain rfl := Option.some.inj result
      simp only [conclude] at passed
      split at passed <;> simp at passed
    · have same : turn read cancelled (reader, v, turns) = turn read never (reader, v, turns) := by
        rw [turn, turn, if_neg stop, never, if_neg Bool.false_ne_true]
      cases step : turn read never (reader, v, turns) with
      | done outcome =>
        rw [FuelLoop.run_done (same.trans step)] at result
        rw [FuelLoop.run_done step]
        exact result
      | again next =>
        rw [FuelLoop.run_again (same.trans step)] at result
        rw [FuelLoop.run_again step]
        exact ih result

theorem run_file (file : List Byte) {fuel : Nat} (enough : (tenBits file).length < fuel) :
    analyseTestData RawReader.read never fuel (openRaw file) =
      some (conclude false (TestPatternVerifier.feedAll (tenBits file) {}).1) :=
  run_left raw_faithful_odd 0 (show Spent (openRaw file) from nofun) rfl enough

theorem passes_iff (file : List Byte) : Passes file ↔ Unbroken (tenBits file) := by
  rw [← feedAll_unbroken (tenBits_lt file)]
  constructor
  · rintro ⟨cancelled, fuel, analysis, result, passed⟩
    have alone := run_never result passed
    have whole := run_file file (Nat.lt_succ_of_le (Nat.le_add_left _ fuel))
    have more := FuelLoop.run_mono alone
      (Nat.le_succ_of_le (Nat.le_add_right fuel (tenBits file).length))
    obtain rfl := Option.some.inj (more.symm.trans whole)
    simp only [conclude, Bool.false_eq_true, if_false] at passed
    split at passed
    · cases passed
    next good => exact Decidable.not_not.mp good
  · intro good
    refine ⟨never, _, _, run_file file (Nat.lt_succ_self _), ?_⟩
    simp [conclude, good]

/-! ## The exact encoding -/

/-- The file of a stretch of the test ramp. -/
def rampFile (first count : Nat) : List Byte :=
  bytes ((rampFrom first count).map fun value : Nat => fileWord (toSigned16Bit value))

/-- Nothing in the file but the high ten bits of whole samples, the first of them in the ramp. -/
structure Clean (file : List Byte) : Prop where
  whole : 2 ∣ file.length
  highBits : ∀ w ∈ samples file, w.low.toNat % 64 = 0
  within : ∀ value ∈ (tenBits file).head?, value < sequenceLength

theorem toNat_signedSample (w : Word) :
    (signedSample w).toNat = w.high.toNat * 256 + w.low.toNat := by
  rw [signedSample, BitVec.toNat_append, ← Nat.shiftLeft_add_eq_or_of_lt w.low.isLt,
    Nat.shiftLeft_eq]

theorem toInt_signedSample (w : Word) :
    w.low.toNat % 64 = 0 ↔ sampleScale ∣ (signedSample w).toInt := by
  rw [BitVec.toInt_eq_toNat_cond, toNat_signedSample, sampleScale]
  split <;> omega

theorem fileWord_signedSample (w : Word) : fileWord (signedSample w) = w := by
  have joined := toNat_signedSample w
  obtain ⟨low, high⟩ := w
  have lowBound := low.isLt
  have highBound := high.isLt
  rw [fileWord, Word.mk.injEq]
  dsimp only at joined
  constructor
  · apply BitVec.eq_of_toNat_eq
    rw [BitVec.toNat_setWidth, joined]
    omega
  · apply BitVec.eq_of_toNat_eq
    rw [BitVec.toNat_setWidth, BitVec.toNat_ushiftRight, joined, Nat.shiftRight_eq_div_pow]
    omega

/-- A sample with no low bits is what its ten bits are written as. -/
theorem fileWord_toTenBit {w : Word} (high : w.low.toNat % 64 = 0) :
    fileWord (toSigned16Bit (toTenBit (signedSample w))) = w := by
  have scaled := (toInt_signedSample w).mp high
  have low := BitVec.le_toInt (signedSample w)
  have top := BitVec.toInt_lt (x := signedSample w)
  have back : ((toTenBit (signedSample w) : Int) - sampleZeroOffset) * sampleScale =
      (signedSample w).toInt := by
    rw [toTenBit, Int.tdiv_eq_ediv_of_dvd scaled, sampleZeroOffset]
    rw [sampleScale] at scaled ⊢
    omega
  rw [toSigned16Bit, back, BitVec.ofInt_toInt, fileWord_signedSample]

theorem toTenBit_fileWord {value : Nat} (ten : value < 1024) :
    toTenBit (signedSample (fileWord (toSigned16Bit value))) = value ∧
      (fileWord (toSigned16Bit value)).low.toNat % 64 = 0 := by
  rw [toInt_signedSample, signedSample_fileWord, toTenBit, toSigned16Bit_toInt ten, sampleScale,
    sampleZeroOffset, Int.mul_tdiv_cancel _ (by decide)]
  constructor
  · omega
  · exact Int.dvd_mul_left _ _

theorem bytes_samples {file : List Byte} (even : 2 ∣ file.length) :
    bytes (samples file) = file := by
  induction file using samples.induct with
  | case1 low high rest ih =>
    simp only [List.length_cons] at even
    have rest := ih (by omega)
    rw [samples, bytes, List.flatMap_cons, ← bytes, rest]
    rfl
  | case2 file short =>
    rcases file with _ | ⟨low, _ | ⟨high, rest⟩⟩
    · rfl
    · simp at even
    · exact absurd rfl (short low high rest)

theorem rampFrom_succ (first count : Nat) :
    rampFrom first (count + 1) =
      first % sequenceLength :: rampFrom ((first + 1) % sequenceLength) count := by
  rw [rampFrom, List.range_succ_eq_map, List.map_cons, List.map_map, rampFrom, Nat.add_zero]
  congr 1
  refine List.map_congr_left fun i _ => ?_
  rw [Function.comp_apply, Nat.mod_add_mod]
  congr 1
  omega

theorem successor_within {value : Nat} (within : value < sequenceLength) :
    successor value = (value + 1) % sequenceLength := by
  unfold successor
  split
  next last =>
    have whole : value + 1 = sequenceLength := by omega
    rw [whole, Nat.mod_self]
  · rw [Nat.mod_eq_of_lt (by omega)]

theorem unbroken_ramp {first : Nat} {rest : List Nat} (within : first < sequenceLength)
    (unbroken : Unbroken (first :: rest)) : first :: rest = rampFrom first (rest.length + 1) := by
  induction rest generalizing first with
  | nil => rw [List.length_nil, rampFrom_succ, Nat.mod_eq_of_lt within]; rfl
  | cons next rest ih =>
    obtain ⟨follows, later⟩ := List.isChain_cons_cons.mp unbroken
    rw [List.length_cons, rampFrom_succ, Nat.mod_eq_of_lt within, ← successor_within within,
      ← follows, ih (follows ▸ successor_lt) later]

/-- The files that are a ramp in ten bits and have nothing else in them. -/
theorem rampFile_of_clean {file : List Byte} (clean : Clean file)
    (unbroken : Unbroken (tenBits file)) : ∃ first count, file = rampFile first count := by
  have words : samples file =
      (tenBits file).map fun value : Nat => fileWord (toSigned16Bit value) := by
    rw [tenBits, List.map_map]
    refine (List.map_id _).symm.trans (List.map_congr_left fun w among => ?_)
    exact (fileWord_toTenBit (clean.highBits w among)).symm
  have ramp : ∃ first count, tenBits file = rampFrom first count := by
    cases values : tenBits file with
    | nil => exact ⟨0, 0, rfl⟩
    | cons first rest =>
      rw [values] at unbroken
      exact ⟨first, rest.length + 1, unbroken_ramp (clean.within first (by simp [values])) unbroken⟩
  obtain ⟨first, count, values⟩ := ramp
  refine ⟨first, count, ?_⟩
  rw [rampFile, ← values, ← words, bytes_samples clean.whole]

theorem rampFile_clean (first count : Nat) : Clean (rampFile first count) := by
  have ten {value : Nat} (among : value ∈ rampFrom first count) : value < sequenceLength := by
    obtain ⟨i, -, rfl⟩ := List.mem_map.mp among
    exact Nat.mod_lt _ (by decide)
  have small {value : Nat} (among : value ∈ rampFrom first count) : value < 1024 :=
    (ten among).trans (by decide)
  constructor
  case whole => exact bytes_even _
  case highBits =>
    intro w among
    rw [rampFile, samples_bytes] at among
    obtain ⟨value, member, rfl⟩ := List.mem_map.mp among
    exact (toTenBit_fileWord (small member)).2
  case within =>
    have values : tenBits (rampFile first count) = rampFrom first count := by
      rw [tenBits, rampFile, samples_bytes, List.map_map]
      refine (List.map_congr_left fun value member => ?_).trans (List.map_id _)
      exact (toTenBit_fileWord (small member)).1
    intro value here
    rw [values] at here
    exact ten (List.mem_of_mem_head? here)

/-- What was written is read back and judged as it was written. Of files from anywhere, those that
go up the ramp in their ten-bit values pass, and they are exact only where nothing else is in
them. -/
theorem passes_exactly {good : List Byte → Bool} {buffers : List (List Word)}
    (stripped : ∀ w ∈ buffers.flatten, w.strip = w)
    (writes : (writeAll (RawSink.write good) buffers newRaw).1 = true) (file : List Byte) :
    let source := buffers.flatten.map Word.value
    let written := (writeAll (RawSink.write good) buffers newRaw).2.file
    (∀ sizes : List Nat, (∀ n ∈ sizes, 0 < n) →
      ∃ answers r, calls RawReader.read sizes (openRaw written) = .ok (answers, r) ∧
        answers.length = sizes.length ∧ Whole source answers) ∧
    (∀ fuel, source.length < fuel →
      analyseTestData RawReader.read never fuel (openRaw written) =
        some (conclude false (TestPatternVerifier.feedAll source {}).1)) ∧
    ((Passes file → ∃ first count, file = rampFile first count) ↔
      (Unbroken (tenBits file) → Clean file)) := by
  rw [raw_holds writes]
  have spent : Spent (openRaw (bytes (buffers.flatten.map (fileWord ∘ encoded)))) := nofun
  have left := raw_left stripped
  refine ⟨fun sizes positive => ?_, fun fuel enough => ?_, fun exact' unbroken => ?_, ?_⟩
  · have whole := raw_faithful_odd.whole spent positive
    rwa [left] at whole
  · have verdict := run_left raw_faithful_odd 0 spent rfl (left ▸ enough) (v := {})
    rwa [left] at verdict
  · obtain ⟨first, count, rfl⟩ := exact' ((passes_iff file).mpr unbroken)
    exact rampFile_clean first count
  · intro clean passes
    have unbroken := (passes_iff file).mp passes
    exact rampFile_of_clean (clean unbroken) unbroken

theorem passes_exactly_ramp :
    analyseTestData RawReader.read never 4
        (openRaw (writeAll (RawSink.write fun _ => true) ramp newRaw).2.file) =
      some { outcome := .passed, samplesChecked := 3 } := by
  have verdict := (@passes_exactly (fun _ => true) ramp (by decide) (by decide) []).2.1 4
    (by decide)
  rw [verdict]
  decide

/-- One sample with a low bit set passes for the ramp value above it. -/
theorem stray_bit_passes :
    ¬ ∀ file : List Byte, Passes file → ∃ first count, file = rampFile first count := by
  intro exact'
  have passes : Passes [0x01#8, 0x80#8] :=
    (passes_iff _).mpr (List.isChain_singleton _)
  obtain ⟨first, count, same⟩ := exact' _ passes
  have clean := rampFile_clean first count
  rw [← same] at clean
  exact absurd (clean.highBits ⟨0x01#8, 0x80#8⟩ (List.mem_singleton.mpr rfl)) (by decide)

end RampFile
