import DomesdayDuplicator.Capture.CaptureReader
import DomesdayDuplicator.Foundations.FuelLoop

/-!
# The ramp of a finished capture

`TestPatternVerifier` and `AnalyseTestData`. What a verifier comes to depends on the
samples and not on how they are cut up, so a capture in either format gets the verdict of
the samples that were written.
-/

namespace TestDataAnalysis

open SampleFormat CaptureWriters CaptureReader ChunkedReader
open FuelLoop (Turn run)

/-! ## The verifier -/

def sequenceLength : Nat := 1021

structure Result where
  passed : Bool := true
  samplesChecked : Nat := 0
  expectedValue : Nat := 0
  actualValue : Nat := 0
  sequenceLength : Option Nat := none
  deriving DecidableEq, Repr

structure TestPatternVerifier where
  haveFirstSample : Bool := false
  currentValue : Nat := 0
  result : Result := {}
  deriving DecidableEq, Repr

namespace TestPatternVerifier

/-- `++result_.samples_checked`. -/
def checked (v : TestPatternVerifier) : TestPatternVerifier :=
  { v with result := { v.result with samplesChecked := (v.result.samplesChecked + 1) % 2 ^ 64 } }

/-- The ramp goes on by one, and from its last value to the first. -/
def advance (v : TestPatternVerifier) : TestPatternVerifier :=
  let next := (v.currentValue + 1) % 2 ^ 16
  if next ≥ TestDataAnalysis.sequenceLength then
    { v with
      currentValue := 0
      result := { v.result with sequenceLength := some TestDataAnalysis.sequenceLength } }
  else { v with currentValue := next }

def feedOne (sample : Nat) (v : TestPatternVerifier) : TestPatternVerifier × Bool :=
  if v.haveFirstSample then
    let v := v.advance
    if sample ≠ v.currentValue then
      ({ v with
        result := { v.result with
          passed := false
          expectedValue := v.currentValue
          actualValue := sample } }, false)
    else (v.checked, true)
  else ({ v with currentValue := sample, haveFirstSample := true }.checked, true)

/-- The loop of `Feed`. -/
def feedAll : List Nat → TestPatternVerifier → TestPatternVerifier × Bool
  | [], v => (v, true)
  | sample :: rest, v =>
    match v.feedOne sample with
    | (v, true) => feedAll rest v
    | (v, false) => (v, false)

def feed (samples : List Nat) (v : TestPatternVerifier) : TestPatternVerifier × Bool :=
  if v.result.passed then feedAll samples v else (v, false)

theorem feedAll_append (first second : List Nat) (v : TestPatternVerifier) :
    feedAll (first ++ second) v =
      if (feedAll first v).2 then feedAll second (feedAll first v).1 else feedAll first v := by
  induction first generalizing v with
  | nil => rfl
  | cons sample rest ih =>
    rw [List.cons_append, feedAll, feedAll]
    cases one : v.feedOne sample with
    | mk next good =>
      cases good with
      | false => rfl
      | true => exact ih next

theorem feedOne_passed (sample : Nat) {v : TestPatternVerifier} (passed : v.result.passed = true)
    (good : (v.feedOne sample).2 = true) : (v.feedOne sample).1.result.passed = true := by
  rw [feedOne] at good ⊢
  by_cases seeded : v.haveFirstSample = true
  · rw [if_pos seeded] at good ⊢
    dsimp only at good ⊢
    by_cases breaks : sample ≠ v.advance.currentValue
    · rw [if_pos breaks] at good
      cases good
    · rw [if_neg breaks]
      have kept : v.advance.result.passed = v.result.passed := by
        rw [advance]
        dsimp only
        split
        · rfl
        · rfl
      exact kept.trans passed
  · rw [if_neg seeded]
    exact passed

theorem feedAll_passed (samples : List Nat) {v : TestPatternVerifier}
    (passed : v.result.passed = true) (good : (feedAll samples v).2 = true) :
    (feedAll samples v).1.result.passed = true := by
  induction samples generalizing v with
  | nil => exact passed
  | cons sample rest ih =>
    rw [feedAll] at good ⊢
    have one := feedOne_passed sample passed
    cases fed : v.feedOne sample with
    | mk next fine =>
      rw [fed] at good one
      cases fine with
      | false => cases good
      | true => exact ih (one rfl) good

end TestPatternVerifier

/-! ## The analysis -/

def analysisChunkSamples : Nat := 4 * 2 ^ 20

inductive Outcome where
  | passed
  | failed
  | unreadable
  | cancelled
  deriving DecidableEq, Repr

structure Analysis where
  outcome : Outcome
  samplesChecked : Nat := 0
  expectedValue : Nat := 0
  actualValue : Nat := 0
  sequenceLength : Option Nat := none
  deriving DecidableEq, Repr

/-- What is said of the verdict after the loop. -/
def conclude (stoppedEarly : Bool) (v : TestPatternVerifier) : Analysis where
  outcome :=
    if ¬ v.result.passed then .failed else if stoppedEarly then .cancelled else .passed
  samplesChecked := v.result.samplesChecked
  expectedValue := v.result.expectedValue
  actualValue := v.result.actualValue
  sequenceLength := v.result.sequenceLength

section Loop

variable {ρ : Type} (read : Nat → ρ → Except String (Answer Nat × ρ))

/-- The reader, the verifier and how often `cancelled` has been asked. -/
abbrev State (ρ : Type) : Type := ρ × TestPatternVerifier × Nat

def turn (cancelled : Nat → Bool) : State ρ → Turn (State ρ) Analysis
  | (reader, verifier, turns) =>
    if cancelled turns then .done (conclude true verifier)
    else
      match read analysisChunkSamples reader with
      | .error _ => .done { outcome := .unreadable }
      | .ok (answer, reader) =>
        if answer.chunk = [] then .done (conclude false verifier)
        else
          match verifier.feed answer.chunk with
          | (verifier, false) => .done (conclude false verifier)
          | (verifier, true) =>
            if answer.ended then .done (conclude false verifier)
            else .again (reader, verifier, turns + 1)

/-- `AnalyseTestData` of an open reader, in so many turns of its loop. -/
def analyseTestData (cancelled : Nat → Bool) (fuel : Nat) (reader : ρ) : Option Analysis :=
  run (turn read cancelled) fuel (reader, {}, 0)

/-- Nobody asks for it to stop. -/
def never : Nat → Bool := fun _ => false

variable {read} {Ok : ρ → Prop} {left : ρ → List Nat}

/-- The verdict is that of all samples that are left, however they are cut up. -/
theorem run_left (faithful : Faithful read Ok left) {fuel : Nat} {reader : ρ}
    {v : TestPatternVerifier} (turns : Nat) (ok : Ok reader) (passed : v.result.passed = true)
    (enough : (left reader).length < fuel) :
    run (turn read never) fuel (reader, v, turns) =
      some (conclude false (TestPatternVerifier.feedAll (left reader) v).1) := by
  induction fuel generalizing reader v turns with
  | zero => omega
  | succ fuel ih =>
    obtain ⟨answer, next, reads, ok', split, ended, goes⟩ :=
      faithful.reads ok (show 0 < analysisChunkSamples by decide)
    have step : turn read never (reader, v, turns) =
        if answer.chunk = [] then .done (conclude false v)
        else
          match v.feed answer.chunk with
          | (verifier, false) => .done (conclude false verifier)
          | (verifier, true) =>
            if answer.ended then .done (conclude false verifier)
            else .again (next, verifier, turns + 1) := by
      rw [turn, never, if_neg Bool.false_ne_true, reads]
    by_cases none : answer.chunk = []
    · have last : answer.ended = true := by
        cases final : answer.ended with
        | true => rfl
        | false => exact absurd none (goes final)
      rw [if_pos none] at step
      rw [FuelLoop.run_done step, split, none, ended last]
      rfl
    · have feed : v.feed answer.chunk = TestPatternVerifier.feedAll answer.chunk v := by
        rw [TestPatternVerifier.feed, if_pos passed]
      rw [if_neg none, feed] at step
      rw [split, TestPatternVerifier.feedAll_append]
      have still := TestPatternVerifier.feedAll_passed answer.chunk passed
      cases fed : TestPatternVerifier.feedAll answer.chunk v with
      | mk after good =>
        rw [fed] at step still
        cases good with
        | false => exact FuelLoop.run_done step fuel
        | true =>
          cases last : answer.ended with
          | true =>
            simp only [last, if_true] at step
            rw [FuelLoop.run_done step, ended last]
            rfl
          | false =>
            simp only [last, Bool.false_eq_true, if_false] at step
            rw [FuelLoop.run_again step]
            apply ih (turns + 1) ok' (still rfl)
            have some := List.length_pos_of_ne_nil none
            rw [split, List.length_append] at enough
            omega

end Loop

/-- A capture is read back as the samples that were written, from either of its files,
however they were cut up for writing, in the frames and for the calls; and the ramp is
judged by those samples. -/
theorem captures_read_back {process : List Int → Bool} {good : List Byte → Bool}
    {buffers : List (List Word)} (stripped : ∀ w ∈ buffers.flatten, w.strip = w)
    (encodes : (writeAll (FlacWriter.writeRawDeviceSamples process) buffers newFlac).1 = true)
    (writes : (writeAll (RawSink.write good) buffers newRaw).1 = true) {decoder : List Single}
    (delivers : Delivers decoder
      (writeAll (FlacWriter.writeRawDeviceSamples process) buffers newFlac).2.given.flatten) :
    let source := buffers.flatten.map Word.value
    let flac := openFlac decoder
    let raw := openRaw (writeAll (RawSink.write good) buffers newRaw).2.file
    (∀ sizes : List Nat, (∀ n ∈ sizes, 0 < n) →
      (∃ answers r, calls FlacReader.read sizes flac = .ok (answers, r) ∧
        answers.length = sizes.length ∧ Whole source answers) ∧
      (∃ answers r, calls RawReader.read sizes raw = .ok (answers, r) ∧
        answers.length = sizes.length ∧ Whole source answers)) ∧
    (∀ fuel, source.length < fuel →
      analyseTestData FlacReader.read never fuel flac =
        analyseTestData RawReader.read never fuel raw ∧
      analyseTestData RawReader.read never fuel raw =
        some (conclude false (TestPatternVerifier.feedAll source {}).1)) := by
  rw [flac_holds encodes] at delivers
  rw [raw_holds writes]
  have flac := flac_left delivers stripped
  have raw := raw_left stripped
  have ready := open_ready delivers
  have aligned : Aligned (openRaw (bytes (buffers.flatten.map (fileWord ∘ encoded)))) :=
    ⟨bytes_even _, nofun⟩
  refine ⟨fun sizes positive => ⟨?_, ?_⟩, fun fuel enough => ?_⟩
  · have whole := flac_faithful.whole ready positive
    rwa [flac] at whole
  · have whole := raw_faithful.whole aligned positive
    rwa [raw] at whole
  · have first := run_left flac_faithful 0 ready rfl (flac ▸ enough) (v := {})
    have second := run_left raw_faithful 0 aligned rfl (raw ▸ enough) (v := {})
    rw [flac] at first
    rw [raw] at second
    exact ⟨first.trans second.symm, second⟩

/-- Three samples of the ramp, written in two calls. -/
def ramp : List (List Word) := [[⟨3, 0⟩, ⟨4, 0⟩], [⟨5, 0⟩]]

/-- And delivered in other frames, with the end reported by itself. -/
def frames : List Single :=
  [⟨some ⟨1, [-32576]⟩, none, true, false⟩, ⟨some ⟨1, [-32512, -32448]⟩, none, true, false⟩,
    ⟨none, none, true, true⟩]

theorem frames_deliver : Delivers frames [-32576, -32512, -32448] := by
  apply Delivers.more ⟨some ⟨1, [-32576]⟩, none, true, false⟩ ⟨rfl, rfl, ?_⟩ rfl
  · apply Delivers.more ⟨some ⟨1, [-32512, -32448]⟩, none, true, false⟩ ⟨rfl, rfl, ?_⟩ rfl
    · exact .last ⟨none, none, true, true⟩ ⟨rfl, rfl, nofun⟩ rfl
    · rintro frame ⟨⟩
      rfl
  · rintro frame ⟨⟩
    rfl

theorem ramp_read_back :
    (∃ answers r, calls FlacReader.read [2, 2, 2] (openFlac frames) = .ok (answers, r) ∧
      Whole [3, 4, 5] answers) ∧
    analyseTestData FlacReader.read never 4 (openFlac frames) =
      some { outcome := .passed, samplesChecked := 3 } := by
  have source : ramp.flatten.map Word.value = [3, 4, 5] := by decide
  have delivers : Delivers frames (writeAll (FlacWriter.writeRawDeviceSamples fun _ => true) ramp
      newFlac).2.given.flatten := by
    have given : (writeAll (FlacWriter.writeRawDeviceSamples fun _ => true) ramp
        newFlac).2.given.flatten = [-32576, -32512, -32448] := by decide
    rw [given]
    exact frames_deliver
  have stripped : ∀ w ∈ ramp.flatten, w.strip = w := by decide
  have encodes : (writeAll (FlacWriter.writeRawDeviceSamples fun _ => true) ramp
      newFlac).1 = true := by decide
  have writes : (writeAll (RawSink.write fun _ => true) ramp newRaw).1 = true := by decide
  obtain ⟨reads, analyses⟩ := captures_read_back stripped encodes writes delivers
  rw [source] at reads analyses
  obtain ⟨⟨answers, r, calls, -, whole⟩, -⟩ := reads [2, 2, 2] (by decide)
  refine ⟨⟨answers, r, calls, whole⟩, ?_⟩
  obtain ⟨same, verdict⟩ := analyses 4 (by decide)
  rw [same, verdict]
  decide

end TestDataAnalysis
