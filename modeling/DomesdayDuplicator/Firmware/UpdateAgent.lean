import DomesdayDuplicator.Foundations.Execution
import DomesdayDuplicator.Firmware.Medium

/-!
# The update agent and the two threads that reach it

`fx3/firmware/src/update-agent.c` with the vendor requests of
`domesday-duplicator.c`. The setup callback answers one request at a time; the
application thread runs `updateAgentVerify` one shared access at a time, so any
request may come between any two of them. SHA-256 is a parameter: the running
contexts are the bytes written to them.
-/

namespace UpdateAgent

open UpdateProtocol Medium PagedMemory

/-- Where the application thread is in `updateAgentVerify`, with its locals. -/
inductive Thread where
  | idle
  | called
  | cleared
  | epcsReading (offset : Nat) (hashed : List Byte) (imageCrc : BitVec 32)
  | epcsProved (imageCrc : BitVec 32)
  | epcsErasing (block : List Byte)
  | epcsProgramming (block : List Byte)
  | epcsWritten (block : List Byte)
  | epcsRereading (block : List Byte)
  | epcsComparing (block readback : List Byte)
  | eepromReading (address : Nat) (hashed : List Byte)
  | eepromCommitting
  | eepromWritten
  | eepromRereading
  | eepromComparing (readback : List Byte)
  | failing (error : UpdateError)
  | failed (error : UpdateError)
  | returning
  deriving DecidableEq

structure Device where
  i2cReady : Bool
  update : UpdateState
  verifyPending : Bool
  firstPage : List Byte
  streamHash : List Byte
  dataCollection : Bool
  applicationActive : Bool
  thread : Thread
  media : Media

/-- What the flash answers when a BEGIN asks whether it can be reached. -/
structure FlashProbe where
  hasFlashBridge : Bool
  identify : Option Byte

inductive Event where
  | quiet
  | stalled
  | status (packet : List Byte)
  | beginAdmitted
  | beginRefused
  | chunkAccepted (data : List Byte)
  | chunkRefused
  | finishAccepted
  | finishRefused
  | reset
  | reconfigured
  | captureStarted
  | captureStopped
  | verifyReturned
  deriving DecidableEq

/-- The payload an event adds to the transfer. -/
def Event.payload : Event → List Byte
  | .chunkAccepted data => data
  | _ => []

/-- A vendor request and what the USB and flash hardware answer while it is served.
A `payload` of `none` is a data stage that failed. -/
inductive Request where
  | status (wLength : Nat)
  | begin (wIndex wLength : Nat) (payload : Option (List Byte)) (probe : FlashProbe)
  | data (wIndex wValue wLength : Nat) (payload : Option (List Byte))
  | finish (wIndex : Nat)
  | reset (i2cComesUp : Bool)
  | fpgaReconfig (triggered : Bool)
  | capture (wValue : Nat)

inductive Action where
  | request (r : Request)
  | thread
  | startApplication
  | stopApplication

def updateReadbackSize : Nat := 512

/-- The state after `updateAgentStart`, with whatever the two memories hold. -/
def powerOn (i2cComesUp : Bool) (media : Media) : Device where
  i2cReady := i2cComesUp
  update := updateStateReset
  verifyPending := false
  firstPage := List.replicate updateEepromPageSize 0
  streamHash := []
  dataCollection := false
  applicationActive := false
  thread := .idle
  media := media

def Device.fail (d : Device) (error : UpdateError) : Device :=
  { d with update := updateStateFail d.update error }

def Device.refuse (d : Device) (error : UpdateError) : Device :=
  { d with update := updateStateFail updateStateReset error }

def updateAgentMediumIsReady (d : Device) (probe : FlashProbe) (target : Byte) (length : Nat) :
    UpdateError :=
  if target = updateTargetEeprom then
    if d.i2cReady then .none else .hardware
  else if ¬ probe.hasFlashBridge then .hardware
  else match probe.identify with
    | none => .hardware
    | some siliconId =>
      if updateEpcsDeviceIsUsable siliconId (updateEpcsTargetBase target) length then .none
      else .length

/-- The refusal `updateAgentBegin` works out for a decoded BEGIN. -/
def updateAgentBeginRefusal (d : Device) (probe : FlashProbe) (target : Byte)
    (begin : UpdateBegin) : UpdateError :=
  let refusal := updateBeginIsAllowed d.update target begin.length begin.flags d.dataCollection
  if refusal = .none then updateAgentMediumIsReady d probe target begin.length else refusal

def Device.open (d : Device) (target : Byte) (begin : UpdateBegin) : Device :=
  { d with
    update := { updateStateReset with
      phase := .receiving, target := target, length := begin.length, digest := begin.digest }
    firstPage := List.replicate updateEepromPageSize 0
    streamHash := [] }

def updateAgentBegin (d : Device) (probe : FlashProbe) (target : Byte) (data : List Byte) :
    Device × Bool :=
  match updateBeginDecode data with
  | none => if updateIsInProgress d.update then (d, false) else (d.refuse .length, false)
  | some begin =>
    let refusal := updateAgentBeginRefusal d probe target begin
    if refusal ≠ .none then
      if updateIsInProgress d.update then (d, false) else (d.refuse refusal, false)
    else (d.open target begin, true)

section Data

variable (faults : Faults)

/-- One turn of the loop of `updateAgentDataEpcs`: the sector is erased when the
write first enters it. -/
def writeEpcsSpan (address : Nat) (data : List Byte) (m : Media) : Media × Bool :=
  let erased := if updateEpcsSectorStartsHere address then
    epcsFlashEraseSector faults address m else (m, true)
  if erased.2 then epcsFlashProgramPage faults address data erased.1 else erased

/-- The loop over the bytes of the chunk not yet consumed, `imageOffset` bytes into
the image. Every turn consumes a byte, so a fuel of the chunk's length is never
used up. -/
def updateAgentDataEpcs : Nat → Nat → List Byte → UpdateState → Media →
    UpdateState × Media × Bool
  | 0, _, _, u, m => (u, m, true)
  | fuel + 1, imageOffset, data, u, m =>
    if data = [] then (u, m, true)
    else
      let address := updateEpcsTargetBase u.target + imageOffset
      let span := updateEpcsWriteSpan address data.length
      if span = 0 then (updateStateFail u .write, m, false)
      else
        let wrote := writeEpcsSpan faults address (data.take span) m
        if ¬ wrote.2 then (updateStateFail u .write, wrote.1, false)
        else updateAgentDataEpcs fuel (imageOffset + span) (data.drop span)
          { u with written := imageOffset + span } wrote.1

/-- The first loop of the EEPROM half of `updateAgentData`: bytes below the page
size go to RAM. Returns the page, the offset and the bytes left. -/
def holdFirstPage (page : List Byte) (offset : Nat) : List Byte → List Byte × Nat × List Byte
  | [] => (page, offset, [])
  | b :: rest =>
    if offset < updateEepromPageSize then holdFirstPage (page.set offset b) (offset + 1) rest
    else (page, offset, b :: rest)

/-- The page one turn of the second loop writes. -/
def eepromPage (length offset span : Nat) (data : List Byte) : List Byte :=
  if offset + span = length ∧ span % updateEepromPageSize ≠ 0 then
    data.take span ++ List.replicate
      (updateEepromPageSize - offset % updateEepromPageSize - span) 0
  else data.take span

/-- The second loop of the EEPROM half of `updateAgentData`. -/
def writeEepromPages : Nat → Nat → List Byte → UpdateState → Media →
    UpdateState × Media × Bool
  | 0, _, _, u, m => (u, m, true)
  | fuel + 1, offset, data, u, m =>
    if data = [] then (u, m, true)
    else
      let span := updateEepromWriteSpan offset data.length
      if span = 0 then (updateStateFail u .write, m, false)
      else
        let wrote := updateEepromWritePage faults offset
          (eepromPage u.length offset span data) m
        if ¬ wrote.2 then (updateStateFail u .write, wrote.1, false)
        else writeEepromPages fuel (offset + span) (data.drop span)
          { u with written := offset + span } wrote.1

def Device.advance (d : Device) (length : Nat) : Device :=
  { d with update := { d.update with
      received := d.update.received + length
      nextChunk := (d.update.nextChunk + 1) % 2 ^ 16 } }

def updateAgentData (d : Device) (target : Byte) (index : Nat) (data : List Byte) :
    Device × Bool :=
  let refusal := updateChunkIsAllowed d.update target index data.length
  if refusal ≠ .none then (d.fail refusal, false)
  else if d.update.target = updateTargetEeprom ∧ d.update.received = 0 ∧
      ¬ updateImageIsPlausible data d.update.length then (d.fail .image, false)
  else
    let d := { d with streamHash := d.streamHash ++ data }
    if updateTargetIsEpcs d.update.target then
      let wrote := updateAgentDataEpcs faults data.length d.update.received data
        d.update d.media
      let d := { d with update := wrote.1, media := wrote.2.1 }
      if wrote.2.2 then (d.advance data.length, true) else (d, false)
    else
      let held := holdFirstPage d.firstPage d.update.received data
      let wrote := writeEepromPages faults held.2.2.length held.2.1 held.2.2 d.update d.media
      let d := { d with firstPage := held.1, update := wrote.1, media := wrote.2.1 }
      if wrote.2.2 then (d.advance data.length, true) else (d, false)

end Data

/-- An accepted FINISH: the thread finds `verifyPending` and takes the transfer over. -/
def Device.handOver (d : Device) : Device :=
  { d with
    update := { d.update with phase := .verifying, verified := 0 }
    verifyPending := true }

section Agent

variable (sha256 : List Byte → Digest) (faults : Faults)

def updateAgentFinish (d : Device) (target : Byte) : Device × Bool :=
  let refusal := updateFinishIsAllowed d.update target
  if refusal ≠ .none then (d.fail refusal, false)
  else if sha256 d.streamHash ≠ d.update.digest then (d.fail .streamDigest, false)
  else (d.handOver, true)

/-- `domDupHandleUpdateRequest` and the capture request of `domDupUSBSetupCB`. -/
def serve (d : Device) : Request → Device × Event
  | .status wLength =>
    if wLength < updateStatusLength then (d, .stalled)
    else (d, .status (updateStatusEncode d.update))
  | .begin wIndex wLength payload probe =>
    if wLength ≠ updateBeginLength then (d, .stalled)
    else match payload with
      | none => (d, .stalled)
      | some data =>
        let opened := updateAgentBegin d probe (BitVec.ofNat 8 wIndex) data
        (opened.1, if opened.2 then .beginAdmitted else .beginRefused)
  | .data wIndex wValue wLength payload =>
    if wLength = 0 ∨ wLength > updateMaxChunk then (d, .stalled)
    else
      -- `updateAgentChunkRefusal`, on the length the request declares
      let refusal := updateChunkIsAllowed d.update (BitVec.ofNat 8 wIndex) wValue wLength
      if refusal ≠ .none then (d.fail refusal, .stalled)
      else match payload with
        | none => (d, .stalled)
        | some data =>
          let chunk := data.take wLength
          let taken := updateAgentData faults d (BitVec.ofNat 8 wIndex) wValue chunk
          (taken.1, if taken.2 then .chunkAccepted chunk else .chunkRefused)
  | .finish wIndex =>
    let finished := updateAgentFinish sha256 d (BitVec.ofNat 8 wIndex)
    (finished.1, if finished.2 then .finishAccepted else .finishRefused)
  | .reset i2cComesUp => (powerOn i2cComesUp d.media, .reset)
  | .fpgaReconfig triggered =>
    if updateIsInProgress d.update ∨ ¬ triggered then (d, .stalled) else (d, .reconfigured)
  | .capture wValue =>
    if ¬ d.applicationActive then (d, .stalled)
    else if wValue = 1 then
      if updateIsInProgress d.update then (d, .stalled)
      else ({ d with dataCollection := true }, .captureStarted)
    else if wValue = 0 then ({ d with dataCollection := false }, .captureStopped)
    else (d, .quiet)

def Device.goto (d : Device) (t : Thread) : Device := { d with thread := t }

def Device.phase (d : Device) (p : Phase) (t : Thread) : Device :=
  { d with update := { d.update with phase := p }, thread := t }

/-- The last stores of a verification that succeeded. -/
def Device.complete (d : Device) (written : Nat) : Device :=
  { d with
    update := { d.update with
      phase := .complete, written := written, verified := d.update.length }
    thread := .returning }

/-- One shared access of the application thread. -/
def threadStep (d : Device) : Device × Event :=
  match d.thread with
  | .idle => (if d.verifyPending then d.goto .called else d, .quiet)
  | .called => ({ d with verifyPending := false, thread := .cleared }, .quiet)
  | .cleared =>
    if d.update.phase ≠ .verifying then (d.goto .returning, .quiet)
    else if updateTargetIsEpcs d.update.target then
      (d.goto (.epcsReading 0 [] updateCrc32Initial), .quiet)
    else
      ({ d with
          update := { d.update with verified := updateEepromPageSize }
          thread := .eepromReading updateEepromPageSize d.firstPage }, .quiet)
  | .epcsReading offset hashed imageCrc =>
    if offset < d.update.length then
      let span := min (d.update.length - offset) updateReadbackSize
      let got := epcsFlashRead faults (updateEpcsTargetBase d.update.target + offset)
        span d.media
      let d := { d with media := got.1 }
      match got.2 with
      | none => (d.goto (.failing .read), .quiet)
      | some data =>
        ({ d with
            update := { d.update with verified := offset + span }
            thread := .epcsReading (offset + span) (hashed ++ data)
              (updateCrc32Update imageCrc data) }, .quiet)
    else if sha256 hashed ≠ d.update.digest then (d.goto (.failing .mediumDigest), .quiet)
    else if d.update.target = updateTargetEpcsFactory then
      (d.complete d.update.length, .quiet)
    else (d.phase .writing (.epcsProved imageCrc), .quiet)
  | .epcsProved imageCrc =>
    (d.goto (.epcsErasing (bootBlockBytes updateEpcsApplicationAddress d.update.length
      (updateCrc32Final imageCrc))), .quiet)
  | .epcsErasing block =>
    let erased := epcsFlashEraseSector faults updateEpcsBootBlockAddress d.media
    let d := { d with media := erased.1 }
    (d.goto (if erased.2 then .epcsProgramming block else .failing .write), .quiet)
  | .epcsProgramming block =>
    let wrote := epcsFlashProgramPage faults updateEpcsBootBlockAddress block d.media
    let d := { d with media := wrote.1 }
    (d.goto (if wrote.2 then .epcsWritten block else .failing .write), .quiet)
  | .epcsWritten block => (d.phase .verifying (.epcsRereading block), .quiet)
  | .epcsRereading block =>
    let got := epcsFlashRead faults updateEpcsBootBlockAddress updateBootBlockLength d.media
    let d := { d with media := got.1 }
    match got.2 with
    | none => (d.goto (.failing .read), .quiet)
    | some readback => (d.goto (.epcsComparing block readback), .quiet)
  | .epcsComparing block readback =>
    if readback ≠ block then (d.goto (.failing .mediumDigest), .quiet)
    else (d.complete d.update.length, .quiet)
  | .eepromReading address hashed =>
    if address < d.update.length then
      let span := updateEepromReadSpan address (d.update.length - address) updateReadbackSize
      if span = 0 then (d.goto (.failing .read), .quiet)
      else
        let got := updateEepromRead faults address span d.media
        let d := { d with media := got.1 }
        match got.2 with
        | none => (d.goto (.failing .read), .quiet)
        | some data =>
          ({ d with
              update := { d.update with verified := address + span }
              thread := .eepromReading (address + span) (hashed ++ data) }, .quiet)
    else if sha256 hashed ≠ d.update.digest then (d.goto (.failing .mediumDigest), .quiet)
    else (d.phase .writing .eepromCommitting, .quiet)
  | .eepromCommitting =>
    let wrote := updateEepromWritePage faults 0 d.firstPage d.media
    let d := { d with media := wrote.1 }
    (d.goto (if wrote.2 then .eepromWritten else .failing .write), .quiet)
  | .eepromWritten => (d.phase .verifying .eepromRereading, .quiet)
  | .eepromRereading =>
    let got := updateEepromRead faults 0 updateEepromPageSize d.media
    let d := { d with media := got.1 }
    match got.2 with
    | none => (d.goto (.failing .read), .quiet)
    | some readback => (d.goto (.eepromComparing readback), .quiet)
  | .eepromComparing readback =>
    if readback ≠ d.firstPage then (d.goto (.failing .mediumDigest), .quiet)
    else (d.complete (updateEepromPadToPage d.update.length), .quiet)
  -- `updateStateFail` is two stores, and a request can come between them
  | .failing error =>
    if d.update.phase = .failed then (d.goto .returning, .quiet)
    else (d.phase .failed (.failed error), .quiet)
  | .failed error =>
    ({ d with update := { d.update with error := error }, thread := .returning }, .quiet)
  | .returning => (d.goto .idle, .verifyReturned)

def step (d : Device) : Action → Device × Event
  | .request r => serve sha256 faults d r
  | .thread => threadStep sha256 faults d
  | .startApplication => ({ d with dataCollection := false, applicationActive := true }, .quiet)
  | .stopApplication => ({ d with dataCollection := false, applicationActive := false }, .quiet)

def machine : Execution.Machine Device Action Event := ⟨step sha256 faults⟩

end Agent

end UpdateAgent
