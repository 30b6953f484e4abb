import DomesdayDuplicator.Capture.CaptureWriters
import DomesdayDuplicator.Capture.StripAndTally
import DomesdayDuplicator.Foundations.ChunkedReader

/-!
# Reading a capture back

`CaptureReader::Read` on both formats: libFLAC hands over whole frames, of which the
surplus is kept for the next call; the 16-bit file is read in chunks of bytes. libFLAC is
the list of what its calls come to.
-/

namespace CaptureReader

open SampleFormat CaptureWriters ChunkedReader

def flacChannels : Nat := 1

/-- A frame as the write callback reads it: the number of channels, and the first. -/
structure Frame where
  channels : Nat
  buffer : List Int
  deriving DecidableEq, Repr

/-- What one `FLAC__stream_decoder_process_single` comes to: a frame for the write
callback, a status for the error callback, its result, and the state it ends in. -/
structure Single where
  frame : Option Frame
  error : Option String
  returned : Bool
  endOfStream : Bool
  deriving DecidableEq, Repr

structure FlacReader where
  /-- What the decoder is still to come to. -/
  decoder : List Single
  decoded : List Nat
  decoderEndOfStream : Bool
  decoderFailed : Bool
  lastError : String
  deriving DecidableEq, Repr

namespace FlacReader

def writeCallback (frame : Frame) (r : FlacReader) : FlacReader :=
  if frame.channels ≠ flacChannels then
    { r with
      lastError := "The FLAC stream is not mono, so it is not a Domesday Duplicator capture"
      decoderFailed := true }
  else
    { r with
      decoded := r.decoded ++ frame.buffer.map fun value => toTenBit (BitVec.ofInt 16 value) }

def errorCallback (status : String) (r : FlacReader) : FlacReader :=
  { r with lastError := "FLAC decode error: " ++ status, decoderFailed := true }

def processSingle (single : Single) (r : FlacReader) : FlacReader :=
  let r := single.frame.elim r r.writeCallback
  single.error.elim r r.errorCallback

def decodeFailure (r : FlacReader) : String :=
  if r.lastError = "" then "The FLAC stream could not be decoded" else r.lastError

/-- The loop of `Read`; a decoder that has nothing more to come to fails. -/
def decode (maxSamples : Nat) : List Single → FlacReader → Except String FlacReader
  | [], r =>
    if r.decoded.length < maxSamples ∧ r.decoderEndOfStream = false then .error r.decodeFailure
    else .ok { r with decoder := [] }
  | single :: rest, r =>
    if r.decoded.length < maxSamples ∧ r.decoderEndOfStream = false then
      let r := r.processSingle single
      if single.returned = false ∨ r.decoderFailed then .error r.decodeFailure
      else decode maxSamples rest { r with decoderEndOfStream := single.endOfStream }
    else .ok { r with decoder := single :: rest }

def read (maxSamples : Nat) (r : FlacReader) : Except String (Answer Nat × FlacReader) :=
  match decode maxSamples r.decoder r with
  | .error message => .error message
  | .ok r =>
    let rest := r.decoded.drop maxSamples
    .ok (⟨r.decoded.take maxSamples, r.decoderEndOfStream && rest.isEmpty⟩,
      { r with decoded := rest })

end FlacReader

def rawReadChunkSamples : Nat := 65536

/-- A signed 16-bit sample of the file. -/
def signedSample (w : Word) : BitVec 16 := w.high ++ w.low

/-- `std::ifstream`: the bytes from its position on, and whether a read has come short. -/
structure RawReader where
  remaining : List Byte
  failed : Bool
  deriving DecidableEq, Repr

namespace RawReader

/-- `file.read`, with what it has read. -/
def fileRead (count : Nat) (r : RawReader) : List Byte × RawReader :=
  if r.failed then ([], r)
  else
    (r.remaining.take count,
      ⟨r.remaining.drop count, (r.remaining.take count).length < count⟩)

def read (maxSamples : Nat) (r : RawReader) : Except String (Answer Nat × RawReader) :=
  let wanted := min maxSamples rawReadChunkSamples
  let (got, r) := r.fileRead (wanted * bytesPerSample)
  if got = [] then .ok (⟨[], true⟩, r)
  else
    .ok (⟨(samples got).map fun w => toTenBit (signedSample w),
      got.length < wanted * bytesPerSample⟩, r)

end RawReader

/-- The decoder of a FLAC file that has just been opened. -/
def openFlac (decoder : List Single) : FlacReader := ⟨decoder, [], false, false, ""⟩

/-- A 16-bit file that has just been opened. -/
def openRaw (file : List Byte) : RawReader := ⟨file, false⟩

/-! ## libFLAC -/

def Single.samples (single : Single) : List Int := single.frame.elim [] Frame.buffer

/-- A call that succeeds, with a mono frame if it has one. -/
structure Clean (single : Single) : Prop where
  returned : single.returned = true
  quiet : single.error = none
  mono : ∀ frame, single.frame = some frame → frame.channels = flacChannels

/-- The decoder delivers these samples, in frames of any sizes, and then reports the end
of the stream. -/
inductive Delivers : List Single → List Int → Prop
  | last (single : Single) (clean : Clean single) (ends : single.endOfStream = true) :
      Delivers [single] single.samples
  | more (single : Single) (clean : Clean single) (goes : single.endOfStream = false)
      {rest : List Single} {later : List Int} (delivers : Delivers rest later) :
      Delivers (single :: rest) (single.samples ++ later)

/-! ## The FLAC file -/

/-- The samples a list of calls delivers. -/
def upcoming (decoder : List Single) : List Int := decoder.flatMap Single.samples

theorem Delivers.samples {decoder : List Single} {values : List Int}
    (h : Delivers decoder values) : values = upcoming decoder := by
  induction h with
  | last single clean ends => simp [upcoming]
  | more single clean goes delivers ih => rw [ih, upcoming, upcoming, List.flatMap_cons]

/-- A reader whose decoder delivers what is upcoming, or has reported the end. -/
def Ready (r : FlacReader) : Prop :=
  r.decoderFailed = false ∧
    (r.decoderEndOfStream = true ∧ r.decoder = [] ∨
      r.decoderEndOfStream = false ∧ Delivers r.decoder (upcoming r.decoder))

def readSample (value : Int) : Nat := toTenBit (BitVec.ofInt 16 value)

def flacLeft (r : FlacReader) : List Nat := r.decoded ++ (upcoming r.decoder).map readSample

theorem processSingle_clean {single : Single} (clean : Clean single) (r : FlacReader) :
    r.processSingle single = { r with decoded := r.decoded ++ single.samples.map readSample } := by
  cases frame : single.frame with
  | none => simp [FlacReader.processSingle, Single.samples, frame, clean.quiet]
  | some f =>
    have mono := clean.mono f frame
    simp only [FlacReader.processSingle, Single.samples, frame, clean.quiet, Option.elim_some,
      Option.elim_none, FlacReader.writeCallback, mono, ne_eq, not_true_eq_false, if_false]
    rfl

/-- The loop leaves what is left as it is, and stops with enough or at the end. -/
theorem decode_ready (maxSamples : Nat) {decoder : List Single} {r : FlacReader}
    (ready : Ready { r with decoder }) :
    ∃ t, r.decode maxSamples decoder = .ok t ∧ Ready t ∧ flacLeft t = flacLeft { r with decoder } ∧
      (t.decoderEndOfStream = false → maxSamples ≤ t.decoded.length) := by
  induction decoder generalizing r with
  | nil =>
    obtain ⟨fine, ⟨ended, -⟩ | ⟨-, delivers⟩⟩ := ready
    · have ended : r.decoderEndOfStream = true := ended
      refine ⟨{ r with decoder := [] }, ?_, ⟨fine, Or.inl ⟨ended, rfl⟩⟩, rfl, ?_⟩
      · simp [FlacReader.decode, ended]
      · simp [ended]
    · nomatch delivers
  | cons single rest ih =>
    obtain ⟨fine, ⟨-, none⟩ | ⟨going, delivers⟩⟩ := ready
    · nomatch none
    have going : r.decoderEndOfStream = false := going
    by_cases short : r.decoded.length < maxSamples
    · obtain ⟨values, delivers⟩ : ∃ values, Delivers (single :: rest) values := ⟨_, delivers⟩
      have clean : Clean single := by
        cases delivers with
        | last _ clean _ => exact clean
        | more _ clean _ _ => exact clean
      have next : Ready { r with
          decoded := r.decoded ++ single.samples.map readSample
          decoderEndOfStream := single.endOfStream
          decoder := rest } := by
        refine ⟨fine, ?_⟩
        cases delivers with
        | last _ _ ends => exact Or.inl ⟨ends, rfl⟩
        | more _ _ goes delivers =>
          exact Or.inr ⟨goes, delivers.samples ▸ delivers⟩
      obtain ⟨t, runs, ready, left, enough⟩ := ih (r := { r with
        decoded := r.decoded ++ single.samples.map readSample
        decoderEndOfStream := single.endOfStream }) next
      refine ⟨t, ?_, ready, ?_, enough⟩
      · have unfailed : ¬ (single.returned = false ∨ r.decoderFailed = true) := by
          simp [clean.returned, show r.decoderFailed = false from fine]
        rw [FlacReader.decode, if_pos ⟨short, going⟩, processSingle_clean clean]
        exact (if_neg unfailed).trans runs
      · rw [left, flacLeft, flacLeft, upcoming, upcoming, List.flatMap_cons, List.map_append,
          List.append_assoc]
    · refine ⟨{ r with decoder := single :: rest }, ?_, ⟨fine, Or.inr ⟨going, delivers⟩⟩, rfl, ?_⟩
      · rw [FlacReader.decode, if_neg (fun both => short both.1)]
      · exact fun _ => Nat.le_of_not_lt short

theorem flac_faithful : Faithful FlacReader.read Ready flacLeft := by
  constructor
  intro r n ready positive
  obtain ⟨t, decoded, ready, left, enough⟩ := decode_ready n (r := r) ready
  refine ⟨⟨t.decoded.take n, t.decoderEndOfStream && (t.decoded.drop n).isEmpty⟩,
    { t with decoded := t.decoded.drop n }, ?_, ready, ?_, ?_, ?_⟩
  · rw [FlacReader.read, decoded]
  · rw [← left, flacLeft, flacLeft, ← List.append_assoc, List.take_append_drop]
  · intro ended
    rw [Bool.and_eq_true, List.isEmpty_iff] at ended
    obtain ⟨-, ⟨-, none⟩ | ⟨going, -⟩⟩ := ready
    · simp [flacLeft, ended.2, none, upcoming]
    · exact absurd (going.symm.trans ended.1) Bool.false_ne_true
  · intro goes none
    have some : t.decoded ≠ [] := by
      cases ended : t.decoderEndOfStream with
      | false => exact List.ne_nil_of_length_pos (Nat.lt_of_lt_of_le positive (enough ended))
      | true =>
        intro empty
        simp [ended, empty] at goes
    rcases List.take_eq_nil_iff.mp none with zero | empty
    · omega
    · exact some empty

theorem open_ready {decoder : List Single} {values : List Int} (h : Delivers decoder values) :
    Ready (openFlac decoder) := ⟨rfl, Or.inr ⟨rfl, h.samples ▸ h⟩⟩

/-! ## The 16-bit file -/

/-- Whole samples are left, none of them once a read has come short. -/
def Aligned (r : RawReader) : Prop :=
  2 ∣ r.remaining.length ∧ (r.failed = true → r.remaining = [])

def rawLeft (r : RawReader) : List Nat :=
  (samples r.remaining).map fun w => toTenBit (signedSample w)

/-- Nothing is left once a read has come short. -/
def Spent (r : RawReader) : Prop := r.failed = true → r.remaining = []

/-- A read of the file takes what it asks for, or what there is. -/
theorem fileRead_spent {r : RawReader} (spent : Spent r) (count : Nat) :
    r.fileRead count = (r.remaining.take count, ⟨r.remaining.drop count,
      r.failed || decide ((r.remaining.take count).length < count)⟩) := by
  rw [RawReader.fileRead]
  cases failed : r.failed with
  | false => rfl
  | true =>
    have none := spent failed
    rw [if_pos rfl, Bool.true_or, none, List.take_nil, List.drop_nil, ← none, ← failed]

/-- What one call comes to. It takes whole samples, and a byte that is left alone at the end
with the last of them. -/
theorem raw_reads {r : RawReader} (spent : Spent r) {n : Nat} (positive : 0 < n) :
    ∃ answer t, RawReader.read n r = .ok (answer, t) ∧ Spent t ∧
      (∃ count, t.remaining = r.remaining.drop (count * bytesPerSample)) ∧
      rawLeft r = answer.chunk ++ rawLeft t ∧ (answer.ended = true → rawLeft t = []) ∧
      (answer.ended = false → answer.chunk ≠ []) := by
  have wanted : 0 < min n rawReadChunkSamples := by
    rw [rawReadChunkSamples]
    omega
  rw [RawReader.read]
  generalize min n rawReadChunkSamples = w at wanted
  dsimp only
  rw [fileRead_spent spent]
  have short : (r.remaining.take (w * bytesPerSample)).length < w * bytesPerSample →
      r.remaining.drop (w * bytesPerSample) = [] := by
    rw [List.length_take, List.drop_eq_nil_iff]
    omega
  have split : samples r.remaining = samples (r.remaining.take (w * bytesPerSample)) ++
      samples (r.remaining.drop (w * bytesPerSample)) := by
    by_cases full : (r.remaining.take (w * bytesPerSample)).length < w * bytesPerSample
    · have all := List.take_append_drop (w * bytesPerSample) r.remaining
      have nothing := short full
      rw [nothing, List.append_nil] at all
      rw [nothing, all]
      exact (List.append_nil _).symm
    · have even : 2 ∣ (r.remaining.take (w * bytesPerSample)).length := by
        rw [List.length_take, bytesPerSample] at full ⊢
        omega
      rw [← samples_append even, List.take_append_drop]
  by_cases none : r.remaining.take (w * bytesPerSample) = []
  · rw [if_pos none]
    have nothing : r.remaining.drop (w * bytesPerSample) = [] := by
      apply short
      rw [none, bytesPerSample, List.length_nil]
      omega
    refine ⟨_, _, rfl, fun _ => nothing, ⟨w, rfl⟩, ?_, fun _ => ?_, fun goes => ?_⟩
    · simp only [rawLeft, split, none, nothing]
      rfl
    · simp only [rawLeft, nothing]
      rfl
    · cases goes
  · rw [if_neg none]
    refine ⟨_, _, rfl, ?_, ⟨w, rfl⟩, ?_, fun ended => ?_, fun goes => ?_⟩
    · intro failed
      rcases Bool.or_eq_true _ _ |>.mp failed with before | now
      · rw [spent before, List.take_nil] at none
        exact absurd rfl none
      · exact short (of_decide_eq_true now)
    · simp only [rawLeft, split, List.map_append]
    · simp only [rawLeft, short (of_decide_eq_true ended)]
      rfl
    · intro empty
      have count := length_samples (r.remaining.take (w * bytesPerSample))
      have full : ¬ (r.remaining.take (w * bytesPerSample)).length < w * bytesPerSample :=
        of_decide_eq_false goes
      rw [List.map_eq_nil_iff.mp empty, List.length_nil, bytesPerSample] at count
      rw [bytesPerSample] at full
      omega

theorem raw_faithful : Faithful RawReader.read Aligned rawLeft := by
  constructor
  intro r n aligned positive
  obtain ⟨answer, t, reads, spent, ⟨count, rest⟩, split, ended, goes⟩ :=
    raw_reads aligned.2 positive
  refine ⟨answer, t, reads, ⟨?_, spent⟩, split, ended, goes⟩
  have even := aligned.1
  rw [rest, List.length_drop, bytesPerSample]
  omega

/-- So too where a byte is left over. -/
theorem raw_faithful_odd : Faithful RawReader.read Spent rawLeft := by
  constructor
  intro r n spent positive
  obtain ⟨answer, t, reads, spent, -, split, ended, goes⟩ := raw_reads spent positive
  exact ⟨answer, t, reads, spent, split, ended, goes⟩

/-! ## The sample that was written -/

theorem signedSample_fileWord (sample : BitVec 16) : signedSample (fileWord sample) = sample := by
  apply BitVec.eq_of_toNat_eq
  have bound := sample.isLt
  rw [signedSample, fileWord, BitVec.toNat_append, BitVec.toNat_setWidth, BitVec.toNat_setWidth,
    BitVec.toNat_ushiftRight, Nat.shiftRight_eq_div_pow, Nat.shiftLeft_eq, Nat.or_comm,
    Nat.mul_comm, Nat.or_comm, ← Nat.two_pow_add_eq_or_of_lt (Nat.mod_lt _ (by decide))]
  omega

/-- A sample of ten bits has room in sixteen. -/
theorem toSigned16Bit_toInt {v : Nat} (ten : v < 1024) :
    (toSigned16Bit v).toInt = ((v : Int) - 512) * 64 := by
  rw [toSigned16Bit, BitVec.toInt_ofInt, sampleZeroOffset, sampleScale]
  exact Int.bmod_eq_of_le (by omega) (by omega)

theorem toTenBit_encoded {w : Word} (stripped : w.strip = w) : toTenBit (encoded w) = w.value := by
  have ten : w.value < 1024 := by
    have value := StripAndTally.value_strip w
    rw [stripped] at value
    omega
  rw [toTenBit, encoded, toSigned16Bit_toInt ten, sampleScale, sampleZeroOffset,
    Int.mul_tdiv_cancel _ (by decide)]
  omega

/-- Both files are read back as the samples that were written. -/
theorem flac_left {decoder : List Single} {words : List Word}
    (delivers : Delivers decoder (words.map (BitVec.toInt ∘ encoded)))
    (stripped : ∀ w ∈ words, w.strip = w) :
    flacLeft (openFlac decoder) = words.map Word.value := by
  have upcoming := delivers.samples
  rw [flacLeft, openFlac, List.nil_append, ← upcoming, List.map_map]
  refine List.map_congr_left fun w among => ?_
  simp only [Function.comp_apply, readSample, BitVec.ofInt_toInt]
  exact toTenBit_encoded (stripped w among)

theorem raw_left {words : List Word} (stripped : ∀ w ∈ words, w.strip = w) :
    rawLeft (openRaw (bytes (words.map (fileWord ∘ encoded)))) = words.map Word.value := by
  rw [rawLeft, openRaw, samples_bytes, List.map_map]
  refine List.map_congr_left fun w among => ?_
  simp only [Function.comp_apply, signedSample_fileWord]
  exact toTenBit_encoded (stripped w among)

end CaptureReader
