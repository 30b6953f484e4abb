import DomesdayDuplicator.Capture.SampleFormat

/-!
# The data generator

`dataGenerator.v`, clock by clock: a sequence number and a position within the
block of samples it covers, stamped onto the ADC sample or the test pattern. The
capture buffer takes the output on the edges that carry a sample.
-/

namespace DataGenerator

open SampleFormat

def blockSamples : BitVec 16 := 65535#16
def blockLast : BitVec 16 := blockSamples - 1#16
def sequenceLast : BitVec 6 := 62#6

structure Registers where
  adcData : BitVec 10
  testData : BitVec 10
  sequenceCount : BitVec 6
  sequencePosition : BitVec 16
  deriving DecidableEq, Repr

structure Inputs where
  resetN : Bool
  sampleEnable : Bool
  adcDatabus : BitVec 10
  testModeFlag : Bool

def reset : Registers := ⟨0, 0, 0, 0⟩

def dataOut (r : Registers) (i : Inputs) : BitVec 16 :=
  r.sequenceCount ++ (if i.testModeFlag then r.testData else r.adcData)

/-- One edge of the clock, with the asynchronous reset in force or not. -/
def clock (r : Registers) (i : Inputs) : Registers :=
  if ¬ i.resetN then reset
  else if i.sampleEnable then
    { adcData := i.adcDatabus
      testData := if r.testData = 1021#10 - 1#10 then 0#10 else r.testData + 1#10
      sequenceCount :=
        if r.sequencePosition = blockLast then
          if r.sequenceCount = sequenceLast then 0#6 else r.sequenceCount + 1#6
        else r.sequenceCount
      sequencePosition :=
        if r.sequencePosition = blockLast then 0#16 else r.sequencePosition + 1#16 }
  else r

/-- The bytes of an output word as they go over the wire. -/
def wireWord (data : BitVec 16) : Word := ⟨data.setWidth 8, (data >>> 8).setWidth 8⟩

/-- The words taken on the edges that carry a sample. -/
def captured (r : Registers) : List Inputs → List Word
  | [] => []
  | i :: rest =>
    if i.sampleEnable then wireWord (dataOut r i) :: captured (clock r i) rest
    else captured (clock r i) rest

/-- Registers as some sequence of clocks leaves them after a reset. -/
inductive Reachable : Registers → Prop
  | reset : Reachable reset
  | clock {r : Registers} (i : Inputs) : Reachable r → Reachable (clock r i)

/-- The registers of a stream that began `offset` samples ago. -/
structure Stands (r : Registers) (offset : Nat) : Prop where
  count : r.sequenceCount.toNat = offset / samplesPerSequenceCounter % sequenceCounterValues
  position : r.sequencePosition.toNat = offset % samplesPerSequenceCounter

theorem stands_reset : Stands reset 0 := ⟨rfl, rfl⟩

/-- A sample moves the stream on by one. -/
theorem Stands.sample {r : Registers} {offset : Nat} (h : Stands r offset) {i : Inputs}
    (running : i.resetN = true) (enabled : i.sampleEnable = true) :
    Stands (clock r i) (offset + 1) := by
  obtain ⟨count, position⟩ := h
  have last : r.sequencePosition = blockLast ↔ r.sequencePosition.toNat = 65534 := by
    rw [← BitVec.toNat_inj]
    rfl
  have final : r.sequenceCount = sequenceLast ↔ r.sequenceCount.toNat = 62 := by
    rw [← BitVec.toNat_inj]
    rfl
  simp only [samplesPerSequenceCounter, sequenceCounterValues] at count position
  constructor
  · simp only [clock, running, enabled, not_true, if_false, if_true, last, final,
      samplesPerSequenceCounter, sequenceCounterValues]
    split
    · split
      · simp only [BitVec.toNat_ofNat]; omega
      · rw [BitVec.toNat_add]; simp only [BitVec.toNat_ofNat]; omega
    · omega
  · simp only [clock, running, enabled, not_true, if_false, if_true, last,
      samplesPerSequenceCounter]
    split
    · simp only [BitVec.toNat_ofNat]; omega
    · rw [BitVec.toNat_add]; simp only [BitVec.toNat_ofNat]; omega

theorem clock_waits {r : Registers} {i : Inputs} (running : i.resetN = true)
    (disabled : i.sampleEnable = false) : clock r i = r := by
  simp [clock, running, disabled]

theorem Reachable.stands {r : Registers} (h : Reachable r) : ∃ offset, Stands r offset := by
  induction h with
  | reset => exact ⟨0, stands_reset⟩
  | @clock r i _ ih =>
    obtain ⟨offset, stands⟩ := ih
    cases running : i.resetN with
    | false => exact ⟨0, by rw [DataGenerator.clock, if_pos (by simp [running])]; exact stands_reset⟩
    | true =>
      cases enabled : i.sampleEnable with
      | false => exact ⟨offset, by rwa [clock_waits running enabled]⟩
      | true => exact ⟨offset + 1, stands.sample running enabled⟩

theorem counter_wireWord (r : Registers) (i : Inputs) :
    (wireWord (dataOut r i)).counter = r.sequenceCount.toNat := by
  have whole : (dataOut r i).toNat = r.sequenceCount.toNat * 1024 +
      (if i.testModeFlag then r.testData else r.adcData).toNat := by
    rw [dataOut, BitVec.toNat_append, ← Nat.shiftLeft_add_eq_or_of_lt (BitVec.isLt _),
      Nat.shiftLeft_eq]
  have low := (if i.testModeFlag then r.testData else r.adcData).isLt
  have top := r.sequenceCount.isLt
  simp only [Word.counter, wireWord, BitVec.toNat_ushiftRight, BitVec.toNat_setWidth,
    Nat.shiftRight_eq_div_pow, whole]
  omega

/-- Whatever the samples, the captured words are marked. -/
theorem marked_captured {r : Registers} {offset : Nat} (h : Stands r offset)
    {inputs : List Inputs} (running : ∀ i ∈ inputs, i.resetN = true) :
    Marked samplesPerSequenceCounter offset (captured r inputs) := by
  induction inputs generalizing r offset with
  | nil => exact fun i hi => absurd hi (Nat.not_lt_zero i)
  | cons i rest ih =>
    have now := running i (by simp)
    have later : ∀ j ∈ rest, j.resetN = true := fun j mem => running j (by simp [mem])
    cases enabled : i.sampleEnable with
    | false =>
      rw [captured, if_neg (by simp [enabled]), clock_waits now enabled]
      exact ih h later
    | true =>
      rw [captured, if_pos enabled]
      exact Marked.cons ((counter_wireWord r i).trans h.count) (ih (h.sample now enabled) later)

end DataGenerator
