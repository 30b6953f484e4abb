import Mathlib.Data.List.Basic
import Mathlib.Algebra.Ring.Int.Defs
import Mathlib.Algebra.Ring.Nat

/-!
# The capture sample stream

Every sample arrives as a little-endian word: ten bits of sample value under a
six-bit sequence counter. The counter covers a block of samples, counts from 0 to
62 and starts again. `Marked` says that words are a stretch of such a stream,
whatever their sample values.
-/

namespace SampleFormat

abbrev Byte := BitVec 8

def bytesPerSample : Nat := 2

def minimumSampleValue : Nat := 0
def maximumSampleValue : Nat := 1023
def sampleZeroOffset : Int := 512

def sequenceCounterValues : Nat := 63
def samplesPerSequenceCounter : Nat := 65535
def legacySamplesPerSequenceCounter : Nat := 65536
def maximumSamplesPerSequenceCounter : Nat := legacySamplesPerSequenceCounter

def isKnownSamplesPerSequenceCounter (samples : Nat) : Bool :=
  samples == samplesPerSequenceCounter || samples == legacySamplesPerSequenceCounter

/-- One sample on the wire, low byte first. -/
structure Word where
  low : Byte
  high : Byte
  deriving DecidableEq, Repr

namespace Word

/-- The sequence counter, read from the high byte. -/
def counter (w : Word) : Nat := (w.high >>> 2).toNat

/-- The word with its marker cleared. -/
def strip (w : Word) : Word := { w with high := w.high &&& 0x03#8 }

def value (w : Word) : Nat := w.low.toNat ||| w.high.toNat <<< 8

end Word

/-- The whole samples of a buffer; an odd byte at its end is not one. -/
def samples : List Byte → List Word
  | low :: high :: rest => ⟨low, high⟩ :: samples rest
  | _ => []

def bytes (words : List Word) : List Byte :=
  words.flatMap fun w => [w.low, w.high]

theorem length_samples (buffer : List Byte) :
    (samples buffer).length = buffer.length / bytesPerSample := by
  induction buffer using samples.induct with
  | case1 low high rest ih =>
    simp only [samples, List.length_cons, ih, bytesPerSample]
    omega
  | case2 buffer short =>
    match buffer, short with
    | [], _ => rfl
    | [_], _ => simp [samples, bytesPerSample]
    | low :: high :: rest, short => exact absurd rfl (short low high rest)

@[simp] theorem samples_bytes (words : List Word) : samples (bytes words) = words := by
  induction words with
  | nil => rfl
  | cons w rest ih =>
    simp only [bytes, List.flatMap_cons, List.cons_append, List.nil_append, samples] at ih ⊢
    rw [ih]

/-- Samples do not straddle buffers of even length. -/
theorem samples_append {buffer : List Byte} (even : 2 ∣ buffer.length) (rest : List Byte) :
    samples (buffer ++ rest) = samples buffer ++ samples rest := by
  induction buffer using samples.induct with
  | case1 low high buffer ih =>
    simp only [List.length_cons] at even
    simp only [List.cons_append, samples, ih (by omega)]
  | case2 buffer short =>
    match buffer, short with
    | [], _ => rfl
    | [_], _ => simp at even
    | low :: high :: buffer, short => exact absurd rfl (short low high buffer)

theorem bytes_even (words : List Word) : 2 ∣ (bytes words).length := by
  induction words with
  | nil => exact ⟨0, rfl⟩
  | cons w rest ih =>
    simp only [bytes, List.flatMap_cons, List.length_append, List.length_cons,
      List.length_nil] at ih ⊢
    omega

/-! ## Marked streams -/

/-- The words carry the counter of a stream with `block` samples a counter value,
taken up `offset` samples after a stream began. -/
def Marked (block offset : Nat) (words : List Word) : Prop :=
  ∀ i (h : i < words.length), words[i].counter = (offset + i) / block % sequenceCounterValues

instance (block offset : Nat) (words : List Word) : Decidable (Marked block offset words) := by
  unfold Marked
  infer_instance

/-- The first sample, counted from the offset, that carries another counter. -/
def firstBoundary (block offset : Nat) : Nat := block - offset % block

namespace Marked

variable {block offset : Nat} {first rest : List Word}

theorem left (h : Marked block offset (first ++ rest)) : Marked block offset first := by
  intro i hi
  have := h i (by rw [List.length_append]; omega)
  rwa [List.getElem_append_left hi] at this

theorem right (h : Marked block offset (first ++ rest)) :
    Marked block (offset + first.length) rest := by
  intro i hi
  have := h (first.length + i) (by rw [List.length_append]; omega)
  rw [List.getElem_append_right (by omega)] at this
  simpa [Nat.add_assoc] using this

theorem cons {w : Word} (counter : w.counter = offset / block % sequenceCounterValues)
    (h : Marked block (offset + 1) rest) : Marked block offset (w :: rest) := by
  intro i hi
  cases i with
  | zero => simpa using counter
  | succ i =>
    have := h i (by simpa using hi)
    simpa [Nat.add_assoc, Nat.add_comm 1] using this

theorem counters (h : Marked block offset first) :
    first.map Word.counter =
      (List.range first.length).map fun i => (offset + i) / block % sequenceCounterValues := by
  apply List.ext_getElem
  · simp
  · intro i hi _
    simpa using h i (by simpa using hi)

end Marked

end SampleFormat
