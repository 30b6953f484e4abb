import DomesdayDuplicator.Capture.DiskBufferRing
import DomesdayDuplicator.Capture.SinkChange

/-!
# The three threads of a capture

`TransferThread`, `ProcessingThread` and `ControlThread` of `capture_pipeline.cpp`
over the ring they share, one atomic access at a time. The source decides when its
`Run` returns and with what; a check or a sink may fail on any buffer; whoever owns
the pipeline may stop it, abort it and change its sink at any moment.
-/

namespace CapturePipeline

open DiskBufferRing (Handoff Event)
open SinkChange (Sink)

universe u v w

/-- Where `TransferThread` is; `returned` tells whether a failure is to be latched. -/
inductive Transfer where
  | running
  | returned (failed : Bool)
  | finished
  deriving DecidableEq, Repr

/-- Where `ProcessingThread` is, its place inside the ring's operations apart. -/
inductive Processing where
  | checking
  /-- In `PerformPendingSinkChange`. -/
  | changing
  /-- In `WaitForSlotFull`. -/
  | waiting
  | validating
  | verifying
  | writing
  /-- In `MarkSlotFree`. -/
  | freeing (more : Bool)
  | leaving
  | finished
  deriving DecidableEq, Repr

/-- Where `ControlThread` goes on after an abort. -/
inductive Resume where
  | finding
  | checking
  | joining
  deriving DecidableEq, Repr

/-- Where `ControlThread` is. -/
inductive Control where
  | checking
  | watching
  | requesting (resume : Resume)
  /-- At the flag of `Abort`, and in its sweep. -/
  | beginning (resume : Resume)
  | aborting (sweep : Nat) (resume : Resume)
  | finding
  /-- In `MarkEmptySlotsDumped`. -/
  | dumping
  | judging
  | closing
  | joining
  | joined
  deriving DecidableEq, Repr

def Resume.control : Resume → Control
  | .finding => .finding
  | .checking => .checking
  | .joining => .joining

structure Pipeline (α : Type u) (ν : Type v) (σ : Type w) where
  handoff : Handoff α
  transfer : Transfer
  processing : Processing
  control : Control
  sinks : SinkChange.Pipeline σ
  validator : ν
  stopRequested : Bool
  /-- `LatchResult` has been called: every result it is called with is a failure. -/
  latched : Bool
  /-- What was written, and to which sink. -/
  written : List (Option (Sink σ) × Nat × α)

inductive Action (α : Type u) (σ : Type w) where
  -- the transfer thread
  | waitForSlotFree
  | fill (visit : Nat) (data : α)
  | markSlotFull
  | producerStep (weakFails : Bool)
  | runReturns (failed : Bool)
  | transferStep
  -- the processing thread, with what the sink's end, the test pattern and the write come to
  | processingStep (finishes verifies writes : Bool)
  -- the control thread, with the word of its clock
  | controlStep (stalled : Bool)
  -- whoever owns the pipeline
  | requestStop
  | requestAbort
  | abort
  | abortNext (sweep : Nat)
  | attachSink (sink : σ)
  | detachSink
  | callerStep

/-- `validator_.Process`: the state after it, the buffer it leaves, and whether it is ok. -/
abbrev Validate (α : Type u) (ν : Type v) := ν → α → ν × α × Bool

variable {α : Type u} {ν : Type v} {σ : Type w}

/-- A capture that has just been started. -/
def start (primed : Nat) (contents : Nat → α) (validator : ν) (sink : Option (Sink σ)) :
    Pipeline α ν σ where
  handoff := DiskBufferRing.start primed contents
  transfer := .running
  processing := .checking
  control := .checking
  sinks := SinkChange.start sink
  validator := validator
  stopRequested := false
  latched := false
  written := []

section Threads

variable (slotCount : Nat) (validate : Validate α ν)

/-- An access to the ring. -/
def onRing (a : DiskBufferRing.Action α) (p : Pipeline α ν σ) : Pipeline α ν σ × Event α :=
  let next := DiskBufferRing.step slotCount p.handoff a
  ({ p with handoff := next.1 }, next.2)

def runReturns (failed : Bool) (p : Pipeline α ν σ) : Pipeline α ν σ × Event α :=
  if p.transfer = .running ∧ p.handoff.producer = .ready then
    let next := onRing slotCount .finish p
    ({ next.1 with transfer := .returned failed }, next.2)
  else (p, .quiet)

/-- What is left of `TransferThread` after `Run`. -/
def transferStep (p : Pipeline α ν σ) : Pipeline α ν σ :=
  match p.transfer with
  | .returned true => { p with latched := true, transfer := .returned false }
  | .returned false => { p with transfer := .finished }
  | .running | .finished => p

/-- Where `WaitForSlotFull` leaves the thread. -/
def awaited (consumer : DiskBufferRing.Consumer) : Processing :=
  match consumer with
  | .processing => .validating
  | .exited => .leaving
  | _ => .waiting

/-- Where `MarkSlotFree` leaves it. -/
def freed (more : Bool) (consumer : DiskBufferRing.Consumer) : Processing :=
  match consumer with
  | .looping => .checking
  | .exited => .leaving
  | _ => .freeing more

def processingStep (finishes verifies writes : Bool) (p : Pipeline α ν σ) :
    Pipeline α ν σ × Event α :=
  match p.processing with
  | .checking =>
    if p.handoff.pipelineAbortRequested then
      let next := onRing slotCount .leave p
      ({ next.1 with processing := .leaving }, next.2)
    else ({ p with processing := .changing }, .quiet)
  | .changing =>
    let sinks := SinkChange.processingStep p.sinks
    let ends := match p.sinks.pass with
      | .swapping _ _ => p.sinks.sink.isSome
      | _ => false
    ({ p with
        sinks
        latched := p.latched || ends && !finishes
        processing := match sinks.pass with
          | .idle => .waiting
          | _ => .changing }, .quiet)
  | .waiting =>
    let next := onRing slotCount
      (if p.handoff.consumer = .looping then .waitForSlotFull else .consumerStep) p
    ({ next.1 with processing := awaited next.1.handoff.consumer }, next.2)
  | .validating =>
    let (validator, data, ok) := validate p.validator
      (p.handoff.ring.slots p.handoff.slotIndex).data
    let next := onRing slotCount (.rewrite data) p
    if ok then ({ next.1 with validator, processing := .verifying }, next.2)
    else ({ next.1 with validator, latched := true, processing := .freeing false }, next.2)
  | .verifying =>
    if verifies then ({ p with processing := .writing }, .quiet)
    else ({ p with latched := true, processing := .freeing false }, .quiet)
  | .writing =>
    if p.sinks.sink.isNone ∨ writes then
      let data := (p.handoff.ring.slots p.handoff.slotIndex).data
      ({ p with
          written := p.written ++ [(p.sinks.sink, p.handoff.slotIndex, data)]
          processing := .freeing true }, .quiet)
    else ({ p with latched := true, processing := .freeing false }, .quiet)
  | .freeing more =>
    let next := onRing slotCount
      (if p.handoff.consumer = .processing then .markSlotFree more else .consumerStep) p
    ({ next.1 with processing := freed more next.1.handoff.consumer }, next.2)
  | .leaving => ({ p with processing := .finished }, .quiet)
  | .finished => (p, .quiet)

def controlStep (stalled : Bool) (p : Pipeline α ν σ) : Pipeline α ν σ × Event α :=
  match p.control with
  | .checking =>
    ({ p with control := if p.processing = .finished then .closing else .watching }, .quiet)
  | .watching =>
    if p.transfer ≠ .finished ∧ p.stopRequested = false ∧ stalled then
      ({ p with latched := true, control := .requesting .finding }, .quiet)
    else ({ p with control := .finding }, .quiet)
  | .requesting resume =>
    let next := onRing slotCount .requestAbort p
    ({ next.1 with control := .beginning resume }, next.2)
  | .beginning resume =>
    let next := onRing slotCount .abort p
    ({ next.1 with control := .aborting p.handoff.aborts.length resume }, next.2)
  | .aborting sweep resume =>
    if (p.handoff.aborts.getD sweep slotCount) < slotCount then
      onRing slotCount (.abortNext sweep) p
    else ({ p with control := resume.control }, .quiet)
  | .finding =>
    if p.transfer = .finished then
      let next := onRing slotCount .markEmptySlotsDumped p
      ({ next.1 with control := .dumping }, next.2)
    else ({ p with control := .judging }, .quiet)
  | .dumping =>
    let next := onRing slotCount .dumpNext p
    ({ next.1 with
        control := if next.1.handoff.dump = none then .judging else .dumping }, next.2)
  | .judging =>
    ({ p with control := if p.latched then .requesting .checking else .checking }, .quiet)
  | .closing =>
    if p.transfer = .finished then ({ p with control := .joining }, .quiet)
    else ({ p with stopRequested := true, control := .beginning .joining }, .quiet)
  | .joining =>
    if p.transfer = .finished ∧ p.processing = .finished then
      ({ p with control := .joined }, .quiet)
    else (p, .quiet)
  | .joined => (p, .quiet)

/-- The sweep the control thread is in, which is nobody else's. -/
def Control.sweep : Control → Option Nat
  | .aborting sweep _ => some sweep
  | _ => none

def step (p : Pipeline α ν σ) : Action α σ → Pipeline α ν σ × Event α
  | .waitForSlotFree => onRing slotCount .waitForSlotFree p
  | .fill visit data => onRing slotCount (.fill visit data) p
  | .markSlotFull => onRing slotCount .markSlotFull p
  | .producerStep weakFails => onRing slotCount (.producerStep weakFails) p
  | .runReturns failed => runReturns slotCount failed p
  | .transferStep => (transferStep p, .quiet)
  | .processingStep finishes verifies writes =>
    processingStep slotCount validate finishes verifies writes p
  | .controlStep stalled => controlStep slotCount stalled p
  | .requestStop => ({ p with stopRequested := true }, .quiet)
  | .requestAbort =>
    let next := onRing slotCount .requestAbort p
    ({ next.1 with stopRequested := true }, next.2)
  | .abort => onRing slotCount .abort p
  | .abortNext sweep =>
    if p.control.sweep = some sweep then (p, .quiet)
    else onRing slotCount (.abortNext sweep) p
  | .attachSink sink =>
    ({ p with sinks := (SinkChange.step p.sinks (.attachSink sink)).1 }, .quiet)
  | .detachSink => ({ p with sinks := (SinkChange.step p.sinks .detachSink).1 }, .quiet)
  | .callerStep => ({ p with sinks := (SinkChange.callerStep p.sinks).1 }, .quiet)

def machine : Execution.Machine (Pipeline α ν σ) (Action α σ) (Event α) :=
  ⟨step slotCount validate⟩

end Threads

end CapturePipeline
