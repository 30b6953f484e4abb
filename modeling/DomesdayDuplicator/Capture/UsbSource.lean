import DomesdayDuplicator.Capture.DiskBufferRing
import DomesdayDuplicator.Capture.TransferLayout
import Mathlib.Logic.Function.Iterate

/-!
# The two USB sources

`LibUsbSource` and `WinUsbSource` streaming into the ring. The pipe completes
transfers in the order in which they were submitted, each with a status and a
length of the device's choosing, and may complete several before the source
looks at the first. Libusb reaps whatever has completed; WinUSB walks its
requests in a circle. Telemetry reads go to another endpoint and are left out.
-/

namespace UsbSource

open DiskBufferRing TransferLayout

inductive TransferResult
  | running | success | fileCreationError | fileWriteError | bufferOverflow
  | connectionFailure | usbTransferFailure | hostUnderflow | usbMemoryLimit
  | sequenceMismatch | verificationError | sourceStalled | programError | forcedAbort
  deriving DecidableEq, Repr

inductive TransferStatus
  | completed | error | timedOut | cancelled | stall | noDevice | overflow
  deriving DecidableEq, Repr

structure Completion where
  status : TransferStatus
  actualLength : Nat
  deriving DecidableEq, Repr

inductive Submission
  | queued | noMemory | refused
  deriving DecidableEq, Repr

structure Transfer where
  slotIndex : Nat
  indexInSlot : Nat
  byteOffset : Nat
  lastInSlot : Bool
  submitted : Bool
  cancelled : Bool

inductive Phase
  | starting (next : Nat)
  | reaping
  /-- A transfer has been reaped and aimed at its next slot. -/
  | resubmitting (transfer : Nat)
  deriving DecidableEq, Repr

/-- What the two sources have in common, with the ring, the pipe and the flags
they share with the rest of the capture. -/
structure Source where
  ring : RingState (Nat → UInt8)
  /-- Slots the processing thread has released. -/
  released : Nat
  stopRequested : Bool
  abortRequested : Bool
  completedTransfers : Nat
  transfers : Nat → Transfer
  discardedTransfers : Nat
  captureComplete : Bool
  failed : Bool
  result : TransferResult
  phase : Phase
  /-- Transfers on the pipe, oldest first, and after them those the device has
  completed and the source has not yet looked at. -/
  pending : List Nat
  finished : List (Nat × Completion)
  /-- Bytes of the device's stream the pipe has moved. -/
  streamed : Nat
  reaped : Nat
  /-- A completion has been reaped without its data being kept. -/
  dropped : Bool

inductive Event
  | quiet
  | handedOver (index : Nat) (bytes : List UInt8)
  | overflow (index : Nat)
  deriving DecidableEq, Repr

inductive Action
  -- the device
  | complete (c : Completion)
  -- the processing thread
  | release
  | process (data : Nat → UInt8)
  -- whoever controls the capture
  | requestStop
  | requestAbort
  | abortRing
  | abortSlot (index : Nat)
  -- the transfer thread
  | submit (outcome : Submission)
  | reap
  | poll
  | waitFailed
  | cancel

inductive FillResult
  | handedOver | overflow | aborted
  deriving DecidableEq, Repr

/-- The outcome of `MarkSlotFull`. -/
def markSlotFull (ring : RingState (Nat → UInt8)) (index : Nat) :
    FillResult × RingState (Nat → UInt8) :=
  match ring.compareExchange index .empty .full with
  | (next, true) => (.handedOver, next)
  | (next, false) =>
    (if (ring.slots index).state = .aborted then .aborted else .overflow, next)

/-- The first `length` bytes of a slot. -/
def bytes (length : Nat) (data : Nat → UInt8) : List UInt8 := (List.range' 0 length).map data

namespace Source

def fail (result : TransferResult) (s : Source) : Source :=
  if s.failed then s else { s with failed := true, result }

/-- `Fail` for a completion whose data is not kept. -/
def drop (result : TransferResult) (s : Source) : Source :=
  { s.fail result with dropped := true }

def alter (t : Nat) (change : Transfer → Transfer) (s : Source) : Source :=
  { s with transfers := Function.update s.transfers t (change (s.transfers t)) }

end Source

section Sources

variable (layout : Layout) (slotCount : Nat) (device : Nat → UInt8)

/-! ## Preparing -/

/-- One pass of the loop that lays the transfers out slot by slot. -/
def prepareNext : Nat × Nat → Nat × Nat
  | (slotIndex, indexInSlot) =>
    if layout.transfersPerSlot ≤ indexInSlot + 1 then ((slotIndex + 1) % slotCount, 0)
    else (slotIndex, indexInSlot + 1)

def prepared (t : Nat) : Transfer :=
  let place := (prepareNext layout slotCount)^[t] (layout.firstSlotIndex, 0)
  { slotIndex := place.1
    indexInSlot := place.2
    byteOffset := place.2 * layout.transferBytes
    lastInSlot := layout.transfersPerSlot ≤ place.2 + 1
    submitted := false
    cancelled := false }

/-- A source that has been prepared, as `Run` finds it. -/
def start (contents : Nat → Nat → UInt8) : Source where
  ring :=
    { slots := fun i => ⟨contents i, .empty⟩
      slotsFilled := 0
      slotsFreed := 0
      peakSlotsInUse := 0
      abortRequested := false }
  released := 0
  stopRequested := false
  abortRequested := false
  completedTransfers := 0
  transfers := prepared layout slotCount
  discardedTransfers := 0
  captureComplete := false
  failed := false
  result := .success
  phase := .starting 0
  pending := []
  finished := []
  streamed := 0
  reaped := 0
  dropped := false

/-! ## Around the source -/

/-- What `length` bytes landing at `offset` leave in a slot. -/
def land (offset length streamed : Nat) (data : Nat → UInt8) : Nat → UInt8 := fun i =>
  if offset ≤ i ∧ i < offset + length then device (streamed + (i - offset)) else data i

def complete (c : Completion) (s : Source) : Source :=
  match s.pending with
  | [] => s
  | t :: rest =>
    if c.actualLength ≤ layout.transferBytes then
      let entry := s.transfers t
      { s with
        ring := s.ring.write entry.slotIndex
          (land device entry.byteOffset c.actualLength s.streamed
            (s.ring.slots entry.slotIndex).data)
        pending := rest
        finished := s.finished ++ [(t, c)]
        streamed := s.streamed + c.actualLength }
    else s

/-- The processing thread and the controllers, and the device. -/
def around (s : Source) : Action → Source
  | .complete c => complete layout device c s
  | .release =>
    if (s.ring.slots (s.released % slotCount)).state = .full then
      { s with
        ring := (s.ring.compareExchange (s.released % slotCount) .full .empty).1
        released := s.released + 1 }
    else s
  | .process data =>
    if (s.ring.slots (s.released % slotCount)).state = .full then
      { s with ring := s.ring.write (s.released % slotCount) data }
    else s
  | .requestStop => { s with stopRequested := true }
  | .requestAbort => { s with abortRequested := true }
  | .abortRing => { s with ring := { s.ring with abortRequested := true } }
  | .abortSlot index =>
    if s.ring.abortRequested then { s with ring := s.ring.store index .aborted } else s
  | _ => s

/-! ## What both sources do with a transfer -/

def submitTransfer (refusal : Submission → TransferResult) (outcome : Submission) (t : Nat)
    (s : Source) : Source :=
  match outcome with
  | .queued =>
    { s.alter t fun entry => { entry with submitted := true } with pending := s.pending ++ [t] }
  | denied => s.fail (refusal denied)

/-- One pass of the loop in `Run` that submits every transfer once. -/
def submitFirst (refusal : Submission → TransferResult) (outcome : Submission) (next : Nat)
    (s : Source) : Source :=
  let s := submitTransfer refusal outcome next
    (s.alter next fun entry => { entry with submitted := false, cancelled := false })
  if s.failed ∨ layout.transferCount ≤ next + 1 then { s with phase := .reaping }
  else { s with phase := .starting (next + 1) }

/-- What is done with a whole transfer: counted, and then discarded, handed over
with its slot, or left until its slot is complete. -/
def keep (t : Nat) (s : Source) : Source × Event :=
  let entry := s.transfers t
  let s := { s with completedTransfers := s.completedTransfers + 1 }
  if s.discardedTransfers < layout.discardTransfers then
    ({ s with
        discardedTransfers := s.discardedTransfers + 1
        captureComplete := s.captureComplete || (s.stopRequested && entry.lastInSlot) }, .quiet)
  else if entry.lastInSlot then
    match markSlotFull s.ring entry.slotIndex with
    | (.handedOver, ring) =>
      ({ s with ring, captureComplete := s.captureComplete || s.stopRequested },
        .handedOver entry.slotIndex
          (bytes (layout.transfersPerSlot * layout.transferBytes)
            (s.ring.slots entry.slotIndex).data))
    | (.overflow, ring) => ({ s with ring }.drop .programError, .overflow entry.slotIndex)
    | (.aborted, ring) => ({ s with ring }.drop .forcedAbort, .quiet)
  else (s, .quiet)

/-- The transfer is aimed at its next slot. -/
def advance (t : Nat) (s : Source) : Source :=
  { s.alter t fun entry =>
      { entry with slotIndex := (entry.slotIndex + layout.slotSpan) % slotCount } with
    phase := .resubmitting t }

/-- `WaitForSlotFree` where the slot is new to the transfers, then the submission. -/
def resubmit (refusal : Submission → TransferResult) (outcome : Submission) (t : Nat)
    (s : Source) : Source :=
  let entry := s.transfers t
  if entry.indexInSlot = 0 then
    match (s.ring.slots entry.slotIndex).state with
    | .empty => { submitTransfer refusal outcome t s with phase := .reaping }
    | .aborted => { s.fail .forcedAbort with phase := .reaping }
    | .full | .dumped => s
  else { submitTransfer refusal outcome t s with phase := .reaping }

def unsubmit (t : Nat) (s : Source) : Source :=
  s.alter t fun entry => { entry with submitted := false }

/-! ## libusb -/

def libUsbRefusal : Submission → TransferResult
  | .noMemory => .usbMemoryLimit
  | _ => .usbTransferFailure

/-- `OnCompletion`, up to the wait for the next slot. -/
def onCompletion (t : Nat) (c : Completion) (s : Source) : Source × Event :=
  let entry := s.transfers t
  let s := unsubmit t s
  if c.status ≠ .completed then
    if entry.cancelled ∧ c.status = .cancelled then ({ s with dropped := true }, .quiet)
    else if c.status = .noDevice then (s.drop .connectionFailure, .quiet)
    else (s.drop .usbTransferFailure, .quiet)
  else if c.actualLength ≠ layout.transferBytes then (s.drop .usbTransferFailure, .quiet)
  else if s.abortRequested then (s.drop .forcedAbort, .quiet)
  else
    let (s, report) := keep layout t s
    if s.captureComplete ∨ s.failed then (s, report)
    else (advance layout slotCount t s, report)

def libUsbStep (s : Source) : Action → Source × Event
  | .submit outcome =>
    match s.phase with
    | .starting next => (submitFirst layout libUsbRefusal outcome next s, .quiet)
    | .resubmitting t => (resubmit libUsbRefusal outcome t s, .quiet)
    | .reaping => (s, .quiet)
  | .reap =>
    match s.phase, s.finished with
    | .reaping, (t, c) :: rest =>
      onCompletion layout slotCount t c { s with finished := rest, reaped := s.reaped + 1 }
    | _, _ => (s, .quiet)
  | .poll =>
    (if s.phase = .reaping ∧ (s.abortRequested ∨ s.ring.abortRequested) then
      s.fail .forcedAbort else s, .quiet)
  | .cancel =>
    (if s.phase = .reaping ∧ s.failed then
      { s with transfers := fun t =>
          { s.transfers t with
            cancelled := (s.transfers t).cancelled || (s.transfers t).submitted } }
      else s, .quiet)
  | a => (around layout slotCount device s a, .quiet)

def libUsb : Execution.Machine Source Action Event := ⟨libUsbStep layout slotCount device⟩

/-! ## WinUSB -/

structure WinUsb where
  source : Source
  current : Nat
  drained : Bool

def winUsbRefusal : Submission → TransferResult := fun _ => .usbTransferFailure

/-- What `Run` makes of a request that has completed. -/
def examine (t : Nat) (c : Completion) (s : Source) : Source × Event :=
  let s := unsubmit t s
  if c.status ≠ .completed then
    if c.status = .cancelled then (s.drop .forcedAbort, .quiet)
    else if c.status = .noDevice then (s.drop .connectionFailure, .quiet)
    else (s.drop .usbTransferFailure, .quiet)
  else if c.actualLength ≠ layout.transferBytes then (s.drop .usbTransferFailure, .quiet)
  else if s.abortRequested then (s.drop .forcedAbort, .quiet)
  else keep layout t s

def nextCurrent (current : Nat) : Nat := (current + 1) % layout.transferCount

/-- One pass of the loop of `Run`, up to the wait for the next slot. -/
def walk (w : WinUsb) : WinUsb × Event :=
  let s := w.source
  if (s.transfers w.current).submitted then
    match s.finished.lookup w.current with
    | none => (w, .quiet)
    | some c =>
      let (s, report) := examine layout w.current c
        { s with
          finished := s.finished.eraseP fun entry => entry.1 == w.current
          reaped := s.reaped + 1 }
      if s.failed then ({ w with source := s }, report)
      else if s.captureComplete then
        ({ w with source := s, current := nextCurrent layout w.current }, report)
      else ({ w with source := advance layout slotCount w.current s }, report)
  else if s.captureComplete then ({ w with drained := true }, .quiet)
  else ({ w with source := advance layout slotCount w.current s }, .quiet)

/-- The underflow probe: the request submitted just before this one must not have
completed yet. -/
def probe (current : Nat) (s : Source) : Source :=
  let previous := (current + layout.transferCount - 1) % layout.transferCount
  if s.discardedTransfers < layout.discardTransfers then s
  else if (s.transfers previous).submitted then
    match s.finished.lookup previous with
    | none => s
    | some c =>
      s.fail (if c.status = .completed then .hostUnderflow else .usbTransferFailure)
  else s

/-- The submission that ends a pass. -/
def resubmitCurrent (outcome : Submission) (w : WinUsb) : WinUsb :=
  let s := resubmit winUsbRefusal outcome w.current w.source
  if s.failed ∨ s.phase ≠ .reaping then { w with source := s }
  else
    let s := probe layout w.current s
    if s.failed then { w with source := s }
    else { w with source := s, current := nextCurrent layout w.current }

/-- The wait for what is outstanding after a failure. -/
def recover (s : Source) : Source :=
  match s.finished with
  | [] => s
  | (t, _) :: rest =>
    { unsubmit t s with finished := rest, reaped := s.reaped + 1, dropped := true }

def winUsbStep (w : WinUsb) : Action → WinUsb × Event
  | .submit outcome =>
    match w.source.phase with
    | .starting next =>
      ({ w with source := submitFirst layout winUsbRefusal outcome next w.source }, .quiet)
    | .resubmitting _ => (resubmitCurrent layout outcome w, .quiet)
    | .reaping => (w, .quiet)
  | .reap =>
    if w.source.phase ≠ .reaping ∨ w.drained then (w, .quiet)
    else if w.source.failed then ({ w with source := recover w.source }, .quiet)
    else walk layout slotCount w
  | .poll =>
    (if w.source.phase = .reaping ∧ ¬ w.drained ∧
        (w.source.abortRequested ∨ w.source.ring.abortRequested) then
      { w with source := w.source.fail .forcedAbort } else w, .quiet)
  | .waitFailed =>
    (if w.source.phase = .reaping ∧ ¬ w.drained then
      { w with source := w.source.fail .usbTransferFailure } else w, .quiet)
  | a => ({ w with source := around layout slotCount device w.source a }, .quiet)

def winUsb : Execution.Machine WinUsb Action Event := ⟨winUsbStep layout slotCount device⟩

def winUsbStart (contents : Nat → Nat → UInt8) : WinUsb where
  source := start layout slotCount contents
  current := 0
  drained := false

end Sources

end UsbSource
