import DomesdayDuplicator.Capture.RampFile
import DomesdayDuplicator.Gateware.DataGenerator

/-!
# What the test pattern verifier says

However a stream is cut up for the verifier, and whether it comes as samples or as words of the
wire, the verdict is on the whole of it: the first sample is taken as it is, and every other one
has to be what the ramp has after the one before. The generator's own stream is such a ramp.
-/

namespace TestPattern

open SampleFormat TestDataAnalysis RampFile DataGenerator

/-! ## Chunks -/

def kSampleValueMask : Nat := 0x03FF

def sampleValueFromWord (w : Word) : Nat := w.value &&& kSampleValueMask

def feedWireBytes (wireData : List Byte) (v : TestPatternVerifier) : TestPatternVerifier × Bool :=
  if v.result.passed then
    TestPatternVerifier.feedAll ((samples wireData).map sampleValueFromWord) v
  else (v, false)

/-- One call of `Feed` or of `FeedWireBytes`. -/
inductive Chunk
  | samples (values : List (BitVec 16))
  | wire (wireData : List Byte)

namespace Chunk

def values : Chunk → List Nat
  | samples values => values.map BitVec.toNat
  | wire wireData => (SampleFormat.samples wireData).map sampleValueFromWord

def feed (v : TestPatternVerifier) : Chunk → TestPatternVerifier
  | samples values => (TestPatternVerifier.feed (values.map BitVec.toNat) v).1
  | wire wireData => (feedWireBytes wireData v).1

theorem feed_eq (v : TestPatternVerifier) (chunk : Chunk) :
    chunk.feed v =
      if v.result.passed then (TestPatternVerifier.feedAll chunk.values v).1 else v := by
  cases chunk with
  | samples values =>
    rw [feed, TestPatternVerifier.feed]
    split <;> rfl
  | wire wireData =>
    rw [feed, feedWireBytes]
    split <;> rfl

theorem values_lt (chunk : Chunk) : ∀ value ∈ chunk.values, value < 2 ^ 16 := by
  cases chunk with
  | samples values =>
    intro value among
    obtain ⟨sample, -, rfl⟩ := List.mem_map.mp among
    exact sample.isLt
  | wire wireData =>
    intro value among
    obtain ⟨word, -, rfl⟩ := List.mem_map.mp among
    exact Nat.lt_of_le_of_lt Nat.and_le_right (by decide)

end Chunk

/-- The verifier after all chunks. -/
def feedChunks (v : TestPatternVerifier) (chunks : List Chunk) : TestPatternVerifier :=
  chunks.foldl Chunk.feed v

/-! ## The verdict -/

/-- The ramp goes on up to sample `index`, which is `actual` and not `expected`. -/
structure FirstBreak (values : List Nat) (index expected actual : Nat) : Prop where
  place : ∃ front before rest, values = front ++ before :: actual :: rest ∧
    index = front.length + 1 ∧ Unbroken (front ++ [before]) ∧ expected = successor before
  different : actual ≠ expected

theorem FirstBreak.cons {first second index expected actual : Nat} {rest : List Nat}
    (h : FirstBreak (second :: rest) index expected actual) (follows : second = successor first) :
    FirstBreak (first :: second :: rest) (index + 1) expected actual := by
  obtain ⟨⟨front, before, rest', whole, rfl, unbroken, next⟩, different⟩ := h
  refine ⟨⟨first :: front, before, rest', ?_, rfl, ?_, next⟩, different⟩
  · rw [whole, List.cons_append]
  · rw [List.cons_append]
    refine List.isChain_cons.mpr ⟨fun b here => ?_, unbroken⟩
    have head : (front ++ [before]).head? = some second := by
      cases front with
      | nil =>
        obtain ⟨rfl, -⟩ := List.cons.inj whole
        rfl
      | cons f front =>
        obtain ⟨rfl, -⟩ := List.cons.inj whole
        rfl
    rw [head] at here
    cases here
    exact follows

/-- No stream is both. -/
theorem FirstBreak.broken {values : List Nat} {index expected actual : Nat}
    (h : FirstBreak values index expected actual) : ¬ Unbroken values := by
  obtain ⟨⟨front, before, rest, rfl, -, -, rfl⟩, different⟩ := h
  intro unbroken
  have tail : Unbroken (before :: actual :: rest) := List.IsChain.right_of_append unbroken
  exact different (List.isChain_cons_cons.mp tail).1

/-- What is known of a verifier that has taken the samples so far. -/
structure Verdict (values : List Nat) (v : TestPatternVerifier) : Prop where
  unbroken : v.result.passed = true → Unbroken values
  broken : v.result.passed = false → ∃ index,
    FirstBreak values index v.result.expectedValue v.result.actualValue ∧
      v.result.samplesChecked = index % 2 ^ 64

theorem advance_successor {v : TestPatternVerifier} (small : v.currentValue < 2 ^ 16) :
    v.advance.currentValue = successor v.currentValue ∧
      v.advance.haveFirstSample = v.haveFirstSample ∧
      v.advance.result.passed = v.result.passed ∧
      v.advance.result.samplesChecked = v.result.samplesChecked := by
  by_cases last : v.currentValue = 2 ^ 16 - 1
  · have around : (v.currentValue + 1) % 2 ^ 16 = 0 := by simp [last]
    rw [TestPatternVerifier.advance, around, successor, last]
    exact ⟨rfl, rfl, rfl, rfl⟩
  · have whole : (v.currentValue + 1) % 2 ^ 16 = v.currentValue + 1 := Nat.mod_eq_of_lt (by omega)
    rw [TestPatternVerifier.advance, whole]
    dsimp only
    rw [successor]
    split <;> exact ⟨rfl, rfl, rfl, rfl⟩

theorem feedAll_verdict {samples : List Nat} {v : TestPatternVerifier} {n : Nat}
    (seeded : v.haveFirstSample = true) (small : v.currentValue < 2 ^ 16)
    (passed : v.result.passed = true) (counted : v.result.samplesChecked = (n + 1) % 2 ^ 64) :
    ((TestPatternVerifier.feedAll samples v).1.result.passed = true →
      Unbroken (v.currentValue :: samples)) ∧
    ((TestPatternVerifier.feedAll samples v).1.result.passed = false → ∃ index,
      FirstBreak (v.currentValue :: samples) index
        (TestPatternVerifier.feedAll samples v).1.result.expectedValue
        (TestPatternVerifier.feedAll samples v).1.result.actualValue ∧
      (TestPatternVerifier.feedAll samples v).1.result.samplesChecked = (n + index) % 2 ^ 64) := by
  induction samples generalizing v n with
  | nil =>
    refine ⟨fun _ => List.isChain_singleton _, fun failed => ?_⟩
    exact absurd (passed.symm.trans failed) (by decide)
  | cons sample rest ih =>
    obtain ⟨next, still, passing, checked⟩ := advance_successor small
    rw [TestPatternVerifier.feedAll, TestPatternVerifier.feedOne, if_pos seeded]
    dsimp only
    by_cases follows : sample = successor v.currentValue
    · rw [if_neg (by rw [next]; exact not_not_intro follows)]
      dsimp only
      have here : v.advance.checked.currentValue = sample := next.trans follows.symm
      have below : v.advance.checked.currentValue < 2 ^ 16 := by
        have := @successor_lt v.currentValue
        rw [here, follows]
        rw [sequenceLength] at this
        omega
      have more : v.advance.checked.result.samplesChecked = (n + 1 + 1) % 2 ^ 64 := by
        show (v.advance.result.samplesChecked + 1) % 2 ^ 64 = _
        rw [checked, counted]
        omega
      obtain ⟨unbroken, broken⟩ := ih (v := v.advance.checked) (n := n + 1) (still.trans seeded)
        below (passing.trans passed) more
      rw [here] at unbroken broken
      refine ⟨fun good => List.isChain_cons_cons.mpr ⟨follows, unbroken good⟩, fun bad => ?_⟩
      obtain ⟨index, first, count⟩ := broken bad
      refine ⟨index + 1, first.cons follows, ?_⟩
      rw [count]
      congr 1
      omega
    · rw [if_pos (by rw [next]; exact follows)]
      refine ⟨by rintro ⟨⟩,
        fun _ => ⟨1, ⟨⟨[], v.currentValue, rest, rfl, rfl, ?_, next⟩, ?_⟩, ?_⟩⟩
      · exact List.isChain_singleton _
      · rw [next]
        exact follows
      · exact checked.trans counted

theorem verdict_feedAll {values : List Nat} (small : ∀ value ∈ values, value < 2 ^ 16) :
    Verdict values (TestPatternVerifier.feedAll values {}).1 := by
  cases values with
  | nil => exact ⟨fun _ => List.isChain_nil, nofun⟩
  | cons first rest =>
    obtain ⟨unbroken, broken⟩ := @feedAll_verdict rest ⟨true, first, { samplesChecked := 1 }⟩ 0 rfl
      (small first List.mem_cons_self) rfl rfl
    refine ⟨unbroken, fun failed => ?_⟩
    obtain ⟨index, first, count⟩ := broken failed
    exact ⟨index, first, by rw [← Nat.zero_add index]; exact count⟩

theorem feedAll_failed (samples : List Nat) (v : TestPatternVerifier)
    (bad : (TestPatternVerifier.feedAll samples v).2 = false) :
    (TestPatternVerifier.feedAll samples v).1.result.passed = false := by
  induction samples generalizing v with
  | nil => cases bad
  | cons sample rest ih =>
    rw [TestPatternVerifier.feedAll] at bad ⊢
    cases fed : v.feedOne sample with
    | mk next good =>
      rw [fed] at bad
      cases good with
      | true => exact ih next bad
      | false =>
        rw [TestPatternVerifier.feedOne] at fed
        split at fed
        · dsimp only at fed
          split at fed
          · cases fed
            rfl
          · cases fed
        · cases fed

/-- Nothing more is taken after a break. -/
theorem feedChunks_failed {v : TestPatternVerifier} (failed : v.result.passed = false)
    (chunks : List Chunk) : feedChunks v chunks = v := by
  induction chunks with
  | nil => rfl
  | cons chunk rest ih =>
    rw [feedChunks, List.foldl_cons, Chunk.feed_eq, if_neg (by rw [failed]; decide)]
    exact ih

/-- The verdict does not depend on the cuts. -/
theorem feedChunks_eq (v : TestPatternVerifier) (passed : v.result.passed = true)
    (chunks : List Chunk) :
    feedChunks v chunks = (TestPatternVerifier.feedAll (chunks.flatMap Chunk.values) v).1 := by
  induction chunks generalizing v with
  | nil => rfl
  | cons chunk rest ih =>
    rw [feedChunks, List.foldl_cons, ← feedChunks, Chunk.feed_eq, if_pos passed,
      List.flatMap_cons, TestPatternVerifier.feedAll_append]
    cases good : (TestPatternVerifier.feedAll chunk.values v).2 with
    | true => exact ih _ (TestPatternVerifier.feedAll_passed _ passed good)
    | false =>
      exact feedChunks_failed (feedAll_failed _ _ good) rest

/-! ## The generator -/

theorem sampleValue_dataOut (r : Registers) (i : Inputs) :
    sampleValueFromWord (wireWord (dataOut r i)) =
      (if i.testModeFlag then r.testData else r.adcData).toNat := by
  have whole : (dataOut r i).toNat = r.sequenceCount.toNat * 1024 +
      (if i.testModeFlag then r.testData else r.adcData).toNat := by
    rw [dataOut, BitVec.toNat_append, ← Nat.shiftLeft_add_eq_or_of_lt (BitVec.isLt _),
      Nat.shiftLeft_eq]
  have low := (if i.testModeFlag then r.testData else r.adcData).isLt
  have top := r.sequenceCount.isLt
  have word : (wireWord (dataOut r i)).value = (dataOut r i).toNat := by
    have small : ((dataOut r i).setWidth 8).toNat < 2 ^ 8 := BitVec.isLt _
    rw [Word.value, wireWord, Nat.or_comm, ← Nat.shiftLeft_add_eq_or_of_lt small,
      Nat.shiftLeft_eq, BitVec.toNat_setWidth, BitVec.toNat_setWidth, BitVec.toNat_ushiftRight,
      Nat.shiftRight_eq_div_pow]
    omega
  have mask : kSampleValueMask = 2 ^ 10 - 1 := rfl
  rw [sampleValueFromWord, word, mask, Nat.and_two_pow_sub_one_eq_mod, whole]
  omega

theorem testData_clock {r : Registers} {i : Inputs} (within : r.testData.toNat < sequenceLength)
    (running : i.resetN = true) (enabled : i.sampleEnable = true) :
    (clock r i).testData.toNat = (r.testData.toNat + 1) % sequenceLength := by
  have last : r.testData = 1021#10 - 1#10 ↔ r.testData.toNat = 1020 := by
    rw [← BitVec.toNat_inj]
    rfl
  rw [sequenceLength] at within ⊢
  simp only [clock, running, enabled, not_true, if_false, if_true, last]
  split
  next full => rw [full]; rfl
  · rw [BitVec.toNat_add, BitVec.toNat_ofNat]
    omega

theorem testData_lt {r : Registers} (reachable : Reachable r) :
    r.testData.toNat < sequenceLength := by
  induction reachable with
  | reset => decide
  | @clock r i _ ih =>
    cases running : i.resetN with
    | false =>
      rw [DataGenerator.clock, if_pos (by simp [running])]
      decide
    | true =>
      cases enabled : i.sampleEnable with
      | false => rwa [clock_waits running enabled]
      | true =>
        rw [testData_clock ih running enabled]
        exact Nat.mod_lt _ (by decide)

/-- In test mode the samples go round the ramp from where it stands. -/
theorem captured_ramp {r : Registers} (within : r.testData.toNat < sequenceLength)
    {inputs : List Inputs} (running : ∀ i ∈ inputs, i.resetN = true ∧ i.testModeFlag = true) :
    (captured r inputs).map sampleValueFromWord =
      rampFrom r.testData.toNat (captured r inputs).length := by
  induction inputs generalizing r with
  | nil => rfl
  | cons i rest ih =>
    obtain ⟨now, testing⟩ := running i List.mem_cons_self
    have later : ∀ j ∈ rest, j.resetN = true ∧ j.testModeFlag = true := fun j among =>
      running j (List.mem_cons_of_mem _ among)
    cases enabled : i.sampleEnable with
    | false =>
      rw [captured, if_neg (by simp [enabled]), clock_waits now enabled]
      exact ih within later
    | true =>
      have next := testData_clock within now enabled
      have round : (clock r i).testData.toNat < sequenceLength := by
        rw [next]
        exact Nat.mod_lt _ (by decide)
      rw [captured, if_pos enabled, List.map_cons, sampleValue_dataOut, if_pos testing,
        ih round later, next, List.length_cons, rampFrom_succ, Nat.mod_eq_of_lt within]

theorem rampFrom_unbroken (first count : Nat) : Unbroken (rampFrom first count) := by
  induction count generalizing first with
  | zero => exact List.isChain_nil
  | succ count ih =>
    rw [rampFrom_succ]
    refine List.isChain_cons.mpr ⟨fun next here => ?_, ih _⟩
    cases count with
    | zero => cases here
    | succ count =>
      rw [rampFrom_succ, List.head?_cons] at here
      cases here
      rw [successor_within (Nat.mod_lt _ (by decide)), Nat.mod_mod, Nat.mod_add_mod]

/-- The first sample is not checked, and the rest is, to the sample that breaks. From inside the
ramp what passes is a stretch of the ramp; and what the generator sends in test mode passes. -/
theorem verifier_exact (chunks : List Chunk) :
    let values := chunks.flatMap Chunk.values
    let result := (feedChunks {} chunks).result
    (result.passed = true ↔ Unbroken values) ∧
    ((∀ value ∈ values.head?, value < sequenceLength) →
      (result.passed = true ↔ ∃ first count, values = rampFrom first count)) ∧
    (result.passed = false → ∃ index,
      FirstBreak values index result.expectedValue result.actualValue ∧
        result.samplesChecked = index % 2 ^ 64) ∧
    ∀ r inputs, Reachable r → (∀ i ∈ inputs, i.resetN = true ∧ i.testModeFlag = true) →
      values = (captured r inputs).map sampleValueFromWord → result.passed = true := by
  intro values result
  have small : ∀ value ∈ values, value < 2 ^ 16 := by
    intro value among
    obtain ⟨chunk, -, member⟩ := List.mem_flatMap.mp among
    exact chunk.values_lt value member
  have verdict : Verdict values (feedChunks {} chunks) := by
    rw [feedChunks_eq {} rfl]
    exact verdict_feedAll small
  have exact_ : result.passed = true ↔ Unbroken values := by
    refine ⟨verdict.unbroken, fun unbroken => ?_⟩
    cases passed : result.passed with
    | true => rfl
    | false =>
      obtain ⟨index, first, -⟩ := verdict.broken passed
      exact absurd unbroken first.broken
  refine ⟨exact_, fun inside => ?_, verdict.broken, ?_⟩
  · rw [exact_]
    constructor
    · intro unbroken
      cases whole : values with
      | nil => exact ⟨0, 0, rfl⟩
      | cons first rest =>
        rw [whole] at unbroken
        exact ⟨first, _, unbroken_ramp (inside first (by rw [whole]; rfl)) unbroken⟩
    · rintro ⟨first, count, ramp⟩
      rw [ramp]
      exact rampFrom_unbroken first count
  · intro r inputs reachable running sent
    rw [exact_, sent, captured_ramp (testData_lt reachable) running]
    exact rampFrom_unbroken _ _

/-- Over the wrap, with the last sample of the ramp by itself. -/
theorem verifier_exact_wrap :
    (feedChunks {} [.samples [1020#16], .wire [0x00#8, 0x00#8, 0x01#8, 0x00#8]]).result.passed =
      true ∧
    (feedChunks {} [.samples [0#16, 1#16, 2#16]]).result.passed = true := by
  let inputs : List Inputs := List.replicate 3 ⟨true, true, 0, true⟩
  constructor
  · exact ((verifier_exact [.samples [1020#16], .wire [0x00#8, 0x00#8, 0x01#8, 0x00#8]]).2.1
      (by decide)).mpr ⟨1020, 3, by decide⟩
  · exact (verifier_exact [.samples [0#16, 1#16, 2#16]]).2.2.2 reset inputs .reset (by decide)
      (by decide)

/-- A first sample outside the ramp passes. -/
theorem stray_first_passes :
    ¬ ∀ chunks : List Chunk, (feedChunks {} chunks).result.passed = true ↔
      ∃ first count, chunks.flatMap Chunk.values = rampFrom first count := by
  intro all
  obtain ⟨first, count, ramp⟩ := (all [.samples [1021#16]]).mp (by decide)
  have among : 1021 ∈ rampFrom first count := by
    rw [← ramp]
    decide
  obtain ⟨i, -, same⟩ := List.mem_map.mp among
  have less : (first + i) % sequenceLength < sequenceLength := Nat.mod_lt _ (by decide)
  rw [same] at less
  exact absurd less (by decide)

end TestPattern
