import DomesdayDuplicator.Capture.SampleFormat

/-!
# The two capture files

`FlacWriter::WriteRawDeviceSamples` hands the samples to libFLAC, `RawSink::Write` puts
them into the file as little-endian words, both as signed 16-bit values and a chunk at a
time. libFLAC and the disk are what they accept.
-/

namespace CaptureWriters

open SampleFormat

def sampleScale : Int := 64

/-- `ToSigned16Bit`. -/
def toSigned16Bit (tenBitValue : Int) : BitVec 16 :=
  BitVec.ofInt 16 ((tenBitValue - sampleZeroOffset) * sampleScale)

/-- `ToTenBit`, as the sample it is kept in. -/
def toTenBit (signedValue : BitVec 16) : Nat :=
  ((signedValue.toInt.tdiv sampleScale + sampleZeroOffset) % 2 ^ 16).toNat

/-! ## The FLAC file -/

def encodeChunkSamples : Nat := 65536

structure FlacWriter where
  encoderInitialised : Bool
  /-- What `FLAC__stream_encoder_process_interleaved` has been given, call by call. -/
  given : List (List Int)
  samplesWritten : Nat

namespace FlacWriter

/-- The loop over the chunks of a buffer, of which no more than `fuel` are left. -/
def encode (process : List Int → Bool) : Nat → List Word → FlacWriter → Bool × FlacWriter
  | 0, _, writer => (true, writer)
  | fuel + 1, words, writer =>
    if words = [] then (true, writer)
    else
      let chunk := words.take encodeChunkSamples
      let scratch := chunk.map fun w => (toSigned16Bit w.value).toInt
      if process scratch then
        encode process fuel (words.drop encodeChunkSamples)
          { writer with
            given := writer.given ++ [scratch]
            samplesWritten := writer.samplesWritten + chunk.length }
      else (false, writer)

def writeRawDeviceSamples (process : List Int → Bool) (words : List Word) (writer : FlacWriter) :
    Bool × FlacWriter :=
  if writer.encoderInitialised then encode process words.length words writer else (false, writer)

end FlacWriter

/-! ## The 16-bit file -/

def writeChunkSamples : Nat := 65536

/-- A 16-bit sample as it lies in the file. -/
def fileWord (sample : BitVec 16) : Word := ⟨sample.setWidth 8, (sample >>> 8).setWidth 8⟩

structure RawSink where
  isOpen : Bool
  file : List Byte
  samplesWritten : Nat

namespace RawSink

/-- `good` is whether the stream is good after a write. -/
def flush (good : List Byte → Bool) (scratch : List Word) (sink : RawSink) : Bool × RawSink :=
  if scratch = [] then (true, sink)
  else if good (bytes scratch) then
    (true, { sink with
      file := sink.file ++ bytes scratch
      samplesWritten := sink.samplesWritten + scratch.length })
  else (false, sink)

/-- The loop over the samples of a buffer, with what has been filled of the scratch. -/
def fill (good : List Byte → Bool) : List Word → List Word → RawSink → Bool × RawSink
  | [], scratch, sink => sink.flush good scratch
  | w :: rest, scratch, sink =>
    let scratch := scratch ++ [fileWord (toSigned16Bit w.value)]
    if scratch.length = writeChunkSamples then
      match sink.flush good scratch with
      | (true, sink) => fill good rest [] sink
      | (false, sink) => (false, sink)
    else fill good rest scratch sink

def write (good : List Byte → Bool) (words : List Word) (sink : RawSink) : Bool × RawSink :=
  if sink.isOpen then fill good words [] sink else (false, sink)

end RawSink

/-- Buffers written one after the other, as long as they are taken. -/
def writeAll {Sink : Type} (write : List Word → Sink → Bool × Sink) :
    List (List Word) → Sink → Bool × Sink
  | [], sink => (true, sink)
  | buffer :: rest, sink =>
    match write buffer sink with
    | (true, sink) => writeAll write rest sink
    | (false, sink) => (false, sink)

/-- A FLAC file that has just been opened. -/
def newFlac : FlacWriter := ⟨true, [], 0⟩

/-- A 16-bit file that has just been opened. -/
def newRaw : RawSink := ⟨true, [], 0⟩

/-- What a sample of ten bits is in both files. -/
def encoded (w : Word) : BitVec 16 := toSigned16Bit w.value

/-! ## What the files hold -/

theorem encode_given {process : List Int → Bool} {fuel : Nat} {words : List Word}
    {writer : FlacWriter} (enough : words.length ≤ fuel)
    (taken : (FlacWriter.encode process fuel words writer).1 = true) :
    (FlacWriter.encode process fuel words writer).2.given.flatten =
      writer.given.flatten ++ words.map (BitVec.toInt ∘ encoded) ∧
    (FlacWriter.encode process fuel words writer).2.encoderInitialised =
      writer.encoderInitialised := by
  induction fuel generalizing words writer with
  | zero =>
    obtain rfl : words = [] := List.eq_nil_of_length_eq_zero (by omega)
    simp [FlacWriter.encode]
  | succ fuel ih =>
    rw [FlacWriter.encode] at taken ⊢
    by_cases none : words = []
    · rw [if_pos none]
      simp [none]
    · rw [if_neg none] at taken ⊢
      dsimp only at taken ⊢
      by_cases accepted : process ((words.take encodeChunkSamples).map fun w =>
          (toSigned16Bit w.value).toInt)
      · rw [if_pos accepted] at taken ⊢
        have shorter : (words.drop encodeChunkSamples).length ≤ fuel := by
          have := List.length_pos_of_ne_nil none
          rw [List.length_drop, encodeChunkSamples]
          omega
        obtain ⟨given, still⟩ := ih shorter taken
        refine ⟨?_, still⟩
        have whole : (words.take encodeChunkSamples).map (BitVec.toInt ∘ encoded) ++
            (words.drop encodeChunkSamples).map (BitVec.toInt ∘ encoded) =
              words.map (BitVec.toInt ∘ encoded) := by
          rw [← List.map_append, List.take_append_drop]
        rw [given, List.flatten_append, List.flatten_singleton, List.append_assoc]
        exact congrArg (writer.given.flatten ++ ·) whole
      · rw [if_neg accepted] at taken
        cases taken

theorem flush_file {good : List Byte → Bool} {scratch : List Word} {sink : RawSink}
    (taken : (sink.flush good scratch).1 = true) :
    (sink.flush good scratch).2.file = sink.file ++ bytes scratch ∧
      (sink.flush good scratch).2.isOpen = sink.isOpen := by
  rw [RawSink.flush] at taken ⊢
  by_cases none : scratch = []
  · rw [if_pos none]
    simp [none, bytes]
  · rw [if_neg none] at taken ⊢
    by_cases fine : good (bytes scratch) = true
    · rw [if_pos fine]
      exact ⟨rfl, rfl⟩
    · rw [if_neg fine] at taken
      cases taken

theorem fill_file {good : List Byte → Bool} {words scratch : List Word} {sink : RawSink}
    (taken : (RawSink.fill good words scratch sink).1 = true) :
    (RawSink.fill good words scratch sink).2.file =
      sink.file ++ bytes (scratch ++ words.map (fileWord ∘ encoded)) ∧
    (RawSink.fill good words scratch sink).2.isOpen = sink.isOpen := by
  induction words generalizing scratch sink with
  | nil =>
    rw [List.map_nil, List.append_nil]
    exact flush_file taken
  | cons w rest ih =>
    rw [RawSink.fill] at taken ⊢
    have next : scratch ++ (w :: rest).map (fileWord ∘ encoded) =
        scratch ++ [fileWord (toSigned16Bit w.value)] ++ rest.map (fileWord ∘ encoded) := by
      simp [encoded]
    rw [next]
    generalize scratch ++ [fileWord (toSigned16Bit w.value)] = filled at taken ⊢
    by_cases full : filled.length = writeChunkSamples
    · rw [if_pos full] at taken ⊢
      cases flushed : sink.flush good filled with
      | mk fine after =>
        rw [flushed] at taken
        cases fine with
        | false => cases taken
        | true =>
          have flush : (sink.flush good filled).1 = true := by rw [flushed]
          obtain ⟨file, still⟩ := flush_file flush
          rw [flushed] at file still
          obtain ⟨whole, opened⟩ := ih taken
          refine ⟨?_, opened.trans still⟩
          have both : bytes (filled ++ rest.map (fileWord ∘ encoded)) =
              bytes filled ++ bytes (rest.map (fileWord ∘ encoded)) := List.flatMap_append
          rw [whole, file, List.nil_append, both, List.append_assoc]
    · rw [if_neg full] at taken ⊢
      exact ih taken

theorem writeRawDeviceSamples_given {process : List Int → Bool} {words : List Word}
    {writer : FlacWriter}
    (taken : (writer.writeRawDeviceSamples process words).1 = true) :
    (writer.writeRawDeviceSamples process words).2.given.flatten =
      writer.given.flatten ++ words.map (BitVec.toInt ∘ encoded) := by
  rw [FlacWriter.writeRawDeviceSamples] at taken ⊢
  by_cases ready : writer.encoderInitialised = true
  · rw [if_pos ready] at taken ⊢
    exact (encode_given (Nat.le_refl _) taken).1
  · rw [if_neg ready] at taken
    cases taken

theorem write_file {good : List Byte → Bool} {words : List Word} {sink : RawSink}
    (taken : (sink.write good words).1 = true) :
    (sink.write good words).2.file = sink.file ++ bytes (words.map (fileWord ∘ encoded)) := by
  rw [RawSink.write] at taken ⊢
  by_cases ready : sink.isOpen = true
  · rw [if_pos ready] at taken ⊢
    exact (fill_file taken).1
  · rw [if_neg ready] at taken
    cases taken

/-- What buffers add to a file one by one they add to it together. -/
theorem writeAll_adds {Sink α : Type} {write : List Word → Sink → Bool × Sink}
    (holds : Sink → List α) (adds : List Word → List α)
    (append : ∀ first second, adds (first ++ second) = adds first ++ adds second)
    (nothing : adds [] = [])
    (each : ∀ words sink, (write words sink).1 = true →
      holds (write words sink).2 = holds sink ++ adds words)
    {buffers : List (List Word)} {sink : Sink} (taken : (writeAll write buffers sink).1 = true) :
    holds (writeAll write buffers sink).2 = holds sink ++ adds buffers.flatten := by
  induction buffers generalizing sink with
  | nil => rw [List.flatten_nil, nothing, List.append_nil, writeAll]
  | cons buffer rest ih =>
    rw [writeAll] at taken ⊢
    cases written : write buffer sink with
    | mk fine after =>
      rw [written] at taken
      cases fine with
      | false => cases taken
      | true =>
        have one := each buffer sink (by rw [written])
        rw [written] at one
        rw [List.flatten_cons, append, ← List.append_assoc, ← one]
        exact ih taken

/-- The FLAC file is of the samples of all buffers, in order. -/
theorem flac_holds {process : List Int → Bool} {buffers : List (List Word)}
    (taken : (writeAll (FlacWriter.writeRawDeviceSamples process) buffers newFlac).1 = true) :
    (writeAll (FlacWriter.writeRawDeviceSamples process) buffers newFlac).2.given.flatten =
      buffers.flatten.map (BitVec.toInt ∘ encoded) :=
  writeAll_adds (fun writer => writer.given.flatten) (List.map (BitVec.toInt ∘ encoded))
    (fun _ _ => List.map_append) rfl (fun _ _ => writeRawDeviceSamples_given) taken

/-- And so is the 16-bit file. -/
theorem raw_holds {good : List Byte → Bool} {buffers : List (List Word)}
    (taken : (writeAll (RawSink.write good) buffers newRaw).1 = true) :
    (writeAll (RawSink.write good) buffers newRaw).2.file =
      bytes (buffers.flatten.map (fileWord ∘ encoded)) := by
  have append : ∀ first second : List Word, bytes ((first ++ second).map (fileWord ∘ encoded)) =
      bytes (first.map (fileWord ∘ encoded)) ++ bytes (second.map (fileWord ∘ encoded)) := by
    intro first second
    rw [List.map_append]
    exact List.flatMap_append
  exact writeAll_adds RawSink.file (fun words => bytes (words.map (fileWord ∘ encoded))) append rfl
    (fun _ _ => write_file) taken

end CaptureWriters
