import DomesdayDuplicator.Capture.SampleFormat

/-!
# The sequence validator

`SequenceValidator::Process` as one pass over a buffer: lock onto the first
change of the counter, check every sample from there on, strip the markers and
measure the signal. What a call carries to the next is the validator itself.
-/

namespace SequenceValidator

open SampleFormat

inductive SequenceState
  | synchronising | running | disabled | failed
  deriving DecidableEq, Repr

structure Validator where
  state : SequenceState := .synchronising
  counterValue : Nat := 0
  runLength : Nat := 0
  /-- Zero until a complete run has been measured. -/
  samplesPerCounter : Nat := 0
  deriving DecidableEq, Repr

structure BufferTally where
  sampleCount : Nat := 0
  minimumValue : Nat := 65535
  maximumValue : Nat := 0
  clippedLowCount : Nat := 0
  clippedHighCount : Nat := 0
  sumOfSquares : Nat := 0
  deriving DecidableEq, Repr

structure Outcome where
  ok : Bool := true
  tally : BufferTally := {}
  mismatchSampleIndex : Nat := 0
  expectedCounter : Nat := 0
  actualCounter : Nat := 0
  synchronisedHere : Bool := false
  synchronisationSampleIndex : Nat := 0
  firstCounter : Nat := 0
  samplesExpectedRemaining : Nat := 0
  deriving DecidableEq, Repr

def nextCounterValue (value : Nat) : Nat :=
  if value + 1 ≥ sequenceCounterValues then 0 else value + 1

/-- The first sample whose counter is not `first`, looked for from `index` on. -/
def search (first : Nat) : Nat → List Word → Option (Nat × Nat)
  | _, [] => none
  | index, word :: rest =>
    if word.counter ≠ first then some (index, word.counter) else search first (index + 1) rest

/-- Acquire lock: the validator, the outcome so far and where checking starts. -/
def synchronise (v : Validator) (words : List Word) : Validator × Outcome × Nat :=
  match v.state, words with
  | .synchronising, opening :: _ =>
    let firstCounter := opening.counter
    let searchLimit := min words.length (maximumSamplesPerSequenceCounter + 1)
    match search firstCounter 1 ((words.take searchLimit).drop 1) with
    | some (index, counter) =>
      ({ v with counterValue := counter, runLength := 0, state := .running },
        { firstCounter, synchronisedHere := true, synchronisationSampleIndex := index }, index)
    | none => ({ v with state := .disabled }, { firstCounter }, 0)
  | _, _ => (v, {}, 0)

/-- What one turn of the loop changes besides the buffer. -/
structure Pass where
  validator : Validator
  runLimit : Nat
  outcome : Outcome

/-- The counter check of one sample: the pass to go on with, or to break with. -/
def checkCounter (index counter : Nat) (pass : Pass) : Except Pass Pass :=
  let v := pass.validator
  if counter = v.counterValue then
    if v.runLength + 1 > pass.runLimit then
      .error
        { pass with
          validator := { v with runLength := v.runLength + 1, state := .failed }
          outcome :=
            { pass.outcome with
              ok := false
              mismatchSampleIndex := index
              expectedCounter := nextCounterValue v.counterValue
              actualCounter := counter
              samplesExpectedRemaining := 0 } }
    else .ok { pass with validator := { v with runLength := v.runLength + 1 } }
  else if counter = nextCounterValue v.counterValue ∧
      (if v.samplesPerCounter ≠ 0 then v.runLength = v.samplesPerCounter
        else isKnownSamplesPerSequenceCounter v.runLength = true) then
    if v.samplesPerCounter = 0 then
      .ok
        { pass with
          validator :=
            { v with counterValue := counter, runLength := 1, samplesPerCounter := v.runLength }
          runLimit := v.runLength }
    else .ok { pass with validator := { v with counterValue := counter, runLength := 1 } }
  else
    .error
      { pass with
        validator := { v with state := .failed }
        outcome :=
          { pass.outcome with
            ok := false
            mismatchSampleIndex := index
            expectedCounter := v.counterValue
            actualCounter := counter
            samplesExpectedRemaining := pass.runLimit - v.runLength } }

def BufferTally.measure (t : BufferTally) (value : Nat) : BufferTally where
  sampleCount := t.sampleCount + 1
  minimumValue := min t.minimumValue value
  maximumValue := max t.maximumValue value
  clippedLowCount := t.clippedLowCount + if value = minimumSampleValue then 1 else 0
  clippedHighCount := t.clippedHighCount +
    if value ≠ minimumSampleValue ∧ value = maximumSampleValue then 1 else 0
  sumOfSquares := t.sumOfSquares + (((value : Int) - sampleZeroOffset) ^ 2).toNat

/-- Check, strip and measure, up to the end of the buffer or the first mismatch. -/
def loop (checking : Bool) (validateFrom : Nat) :
    Nat → Pass → List Word → Pass × List Word
  | _, pass, [] => (pass, [])
  | index, pass, word :: rest =>
    match (if checking = true ∧ index ≥ validateFrom then checkCounter index word.counter pass
      else .ok pass) with
    | .error pass => (pass, word :: rest)
    | .ok pass =>
      let stripped := word.strip
      let tally := pass.outcome.tally.measure stripped.value
      let after := loop checking validateFrom (index + 1)
        { pass with outcome := { pass.outcome with tally } } rest
      (after.1, stripped :: after.2)

def initialRunLimit (v : Validator) : Nat :=
  if v.samplesPerCounter ≠ 0 then v.samplesPerCounter else maximumSamplesPerSequenceCounter

/-- One buffer: the validator after it, the outcome and the buffer as it is left. -/
def process (v : Validator) (buffer : List Byte) : Validator × Outcome × List Byte :=
  let words := samples buffer
  if words.length = 0 then (v, {}, buffer)
  else if v.state = .failed then (v, { ok := false }, buffer)
  else
    let (v, outcome, validateFrom) := synchronise v words
    let (pass, stripped) := loop (v.state == .running) validateFrom 0
      { validator := v, runLimit := initialRunLimit v, outcome } words
    (pass.validator, pass.outcome, bytes stripped ++ buffer.drop (bytesPerSample * words.length))

/-- The calls for one buffer after another. -/
def processAll (v : Validator) : List (List Byte) → Validator × List Outcome
  | [] => (v, [])
  | buffer :: rest =>
    let called := process v buffer
    let after := processAll called.1 rest
    (after.1, called.2.1 :: after.2)

end SequenceValidator
