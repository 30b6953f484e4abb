import DomesdayDuplicator.Firmware.HostTransfer
import DomesdayDuplicator.Foundations.CallingProgram
import DomesdayDuplicator.Update.FirmwareVersion
import DomesdayDuplicator.Update.UpdateBundle

/-!
# The update orchestrator

`ddd-gui/src/capture/update_orchestrator.cpp` as a program over the calls of
`IDeviceUpdater`, the user's cancel callback and the clock. The one loop without a bound
of its own, `AwaitCompletion`, is given a number of polls and is cut off after them. The
progress reports return nothing and are left out.
-/

namespace UpdateOrchestrator

open CallingProgram HostTransfer Manifest Bundle FirmwareVersion
open UpdateProtocol (Digest UpdateError)
open ManifestReader (decimalText)

inductive UpdateTarget where
  | firmware | gateware | epcsFactory
  deriving DecidableEq

/-- What the orchestrator reads of a device's identity. -/
structure DeviceIdentity where
  productString : Text
  gatewareCommit : Text
  deriving DecidableEq

inductive Call where
  | readStatus
  | begin (target : UpdateTarget) (length : Nat) (digest : Digest)
  | sendChunk (target : UpdateTarget) (chunk : Chunk)
  | finish (target : UpdateTarget)
  | reset
  | reconfigureFpga
  | waitForReturn
  /-- `Cancelled()`. -/
  | cancelled
  /-- Whether more than the stall timeout has passed since the last movement. -/
  | stallElapsed
  deriving DecidableEq

@[reducible] def Answer : Call → Type
  | .readStatus => Option DeviceUpdateStatus
  | .waitForReturn => Option DeviceIdentity
  | .begin _ _ _ | .sendChunk _ _ | .finish _ | .reset | .reconfigureFpga | .cancelled
  | .stallElapsed => Bool

abbrev Session := Program Call Answer

abbrev Log := List (Exchange Answer)

abbrev query (c : Call) : Session (Answer c) := ask c

inductive UpdateStage where
  | checking | preparing | transferring | writing | verifying | restarting | confirming
  | complete | failed
  deriving DecidableEq

/-! ## Messages -/

def deviceUpdateErrorText : UpdateError → Text
  | .none => text "No error."
  | .busy => text "The device is capturing. Stop the capture and try again."
  | .target => text "This device's firmware cannot update that part of itself yet."
  | .length => text
    "The device refused the update's size. The file may not be a firmware image for this device."
  | .sequence => text
    "The device and the application lost step with each other. Nothing was changed on the device; try again."
  | .chunk => text
    "The device refused a block of the update. Nothing was changed on the device; try again."
  | .overrun => text
    "More data arrived than the update said it would send. Nothing was changed on the device."
  | .short => text
    "The update finished before all of it had been sent. Nothing was changed on the device."
  | .streamDigest => text
    "The update did not arrive at the device intact. Nothing was written; try again, and try a different USB port or cable if it happens twice."
  | .mediumDigest => text
    "The device could not confirm what it had written. The update was not completed, and the device will start in recovery mode so it can be repaired."
  | .write => text
    "The device could not write to its own memory. The update was not completed."
  | .read => text
    "The device could not read back what it had written. The update was not completed."
  | .image => text "That file is not firmware this device can run."
  | .hardware => text
    "This device cannot update its own firmware — the part of it that writes the firmware did not start."

/-- Why an update stopped. -/
inductive Problem where
  | nothingToInstall
  | cannotUpdate
  | noChunkSize
  | wouldNotStart
  | stoppedAccepting
  | wouldNotFinish
  /-- What the device said, and where it got to. -/
  | refusal (error : UpdateError) (written total : Nat)
  | stoppedSending
  | stoppedWaiting
  | stoppedAnswering
  | stoppedMoving
  | wouldNotReload
  | didNotReappear
  | firmwareDiffers (running : Option Text) (expected : Text)
  | gatewareDiffers (running expected : Text)
  deriving DecidableEq

def couldNotName : Text := text "it could not name"

def Problem.text : Problem → Text
  | .nothingToInstall => Manifest.text "This update file contains nothing to install."
  | .cannotUpdate => Manifest.text
    "This device's firmware cannot update itself. It has to be programmed with the bench procedure once before it can be updated from here."
  | .noChunkSize => Manifest.text "The device did not say how much data it can take."
  | .wouldNotStart => Manifest.text "The device would not start the update."
  | .stoppedAccepting => Manifest.text
    "The device stopped accepting the update. Leave it plugged in, then try again."
  | .wouldNotFinish => Manifest.text
    "The device would not finish the update. Nothing was committed."
  | .refusal error written total => deviceUpdateErrorText error ++
    if 0 < written then Manifest.text " It stopped after writing " ++ decimalText written ++
      Manifest.text " of " ++ decimalText total ++ Manifest.text " bytes."
    else []
  | .stoppedSending => Manifest.text
    "The update was stopped. Nothing was committed to the device — it still has the firmware it started with."
  | .stoppedWaiting => Manifest.text
    "The update was stopped. The device was not left half-written — it still has the firmware it started with."
  | .stoppedAnswering => Manifest.text
    "The device stopped answering part way through the update. Leave it plugged in, then try again."
  | .stoppedMoving => Manifest.text
    "The device stopped making progress. Leave it plugged in, unplug and replug it, then try again."
  | .wouldNotReload => Manifest.text
    "The device would not reload its gateware. Unplug it and plug it back in."
  | .didNotReappear => Manifest.text
    "The device did not reappear after restarting. Unplug it, plug it back in, and open this window again to see what it is running."
  | .firmwareDiffers running expected => Manifest.text
    "The update was written and checked, but the device reports firmware " ++
      running.getD couldNotName ++ Manifest.text " rather than " ++ expected ++
      Manifest.text ". Try the update again."
  | .gatewareDiffers running expected => Manifest.text
    "The update was written and checked, but the device reports gateware " ++
      (if running = [] then couldNotName else running) ++ Manifest.text " rather than " ++
      expected ++ Manifest.text ". Try the update again."

/-! ## One component -/

def describeRefusal (status : DeviceUpdateStatus) (total : Nat) : Problem :=
  .refusal status.error status.bytesWritten total

def deviceRefusal (total : Nat) (fallback : Problem) : Session Problem := do
  match ← query .readStatus with
  | none => return fallback
  | some refused =>
    if refused.error = .none then return fallback else return describeRefusal refused total

/-- The loop of `AwaitCompletion`, with the counters it saw last. -/
def awaitCompletion (total : Nat) : Nat → Nat → Nat → Session (Option Problem)
  | 0, _, _ => .cutOff
  | polls + 1, lastWritten, lastVerified => do
    if ← query .cancelled then return some .stoppedWaiting
    else
      match ← query .readStatus with
      | none => return some .stoppedAnswering
      | some status =>
        if status.phase = .failed then return some (describeRefusal status total)
        else if status.phase = .complete then return none
        else if status.bytesWritten ≠ lastWritten ∨ status.bytesVerified ≠ lastVerified then
          awaitCompletion total polls status.bytesWritten status.bytesVerified
        else if ← query .stallElapsed then return some .stoppedMoving
        else awaitCompletion total polls lastWritten lastVerified

/-- The loop of `WriteComponent` over the chunks not yet sent. -/
def sendAll (target : UpdateTarget) (total : Nat) : List Chunk → Session (Option Problem)
  | [] => return none
  | chunk :: rest => do
    if ← query .cancelled then return some .stoppedSending
    else if ← query (.sendChunk target chunk) then sendAll target total rest
    else return some (← deviceRefusal total .stoppedAccepting)

/-- What `WriteComponent` does once the transfer is open. -/
def transfer (target : UpdateTarget) (total : Nat) (chunks : List Chunk) (polls : Nat) :
    Session (Option Problem) := do
  match ← sendAll target total chunks with
  | some problem => return some problem
  | none =>
    if ← query (.finish target) then awaitCompletion total polls 0 0
    else return some (← deviceRefusal total .wouldNotFinish)

/-- No problem is the `true` of the source. -/
def writeComponent (target : UpdateTarget) (component : UpdateComponent) (payload : List Byte)
    (polls : Nat) : Session (Option Problem) := do
  match ← query .readStatus with
  | none => return some .cannotUpdate
  | some initial =>
    match HostTransfer.writeComponent initial payload with
    | none => return some .noChunkSize
    | some chunks =>
      if ← query (.begin target payload.length component.sha256) then
        transfer target payload.length chunks polls
      else return some (← deviceRefusal payload.length .wouldNotStart)

structure Settings where
  /-- Whether there is a logger, which has the status read once more after a failure. -/
  logger : Bool
  deferRestart : Bool

def installComponent (settings : Settings) (target : UpdateTarget) (component : UpdateComponent)
    (payload : List Byte) (polls : Nat) : Session (Option Problem) := do
  match ← writeComponent target component payload polls with
  | none => return none
  | some problem =>
    if settings.logger then
      let _ ← query .readStatus
    return some problem

/-! ## The update -/

structure UpdateOutcome where
  succeeded : Bool
  stage : UpdateStage
  problem : Option Problem
  identity : DeviceIdentity
  identityConfirmed : Bool
  deriving DecidableEq

def UpdateOutcome.start : UpdateOutcome := ⟨false, .checking, none, ⟨[], []⟩, false⟩

def UpdateOutcome.fail (outcome : UpdateOutcome) (problem : Problem) : UpdateOutcome :=
  { outcome with stage := .failed, problem := some problem }

/-- `has_firmware` and `has_gateware`, with the component they are about. -/
def present (component : Option UpdateComponent) (payload : List Byte) : Option UpdateComponent :=
  if payload = [] then none else component

/-- One of the two components, where it is there at all. -/
def installPresent (component : Option UpdateComponent)
    (install : UpdateComponent → Session (Option Problem)) : Session (Option Problem) :=
  match component with
  | none => return none
  | some component => install component

/-- Gateware is loaded again as soon as it is written. -/
def installGateware (settings : Settings) (payload : List Byte) (polls : Nat)
    (component : UpdateComponent) : Session (Option Problem) := do
  match ← installComponent settings .gateware component payload polls with
  | some problem => return some problem
  | none =>
    if settings.deferRestart then return none
    else if ← query .reconfigureFpga then return none
    else return some .wouldNotReload

/-- A component's identity against what the device reports. -/
def checkIdentity (component : Option UpdateComponent) (running : Text)
    (differs : Text → Problem) (outcome : UpdateOutcome) : UpdateOutcome :=
  match component with
  | none => outcome
  | some component =>
    if component.identity ≠ [] ∧ commitsMatch running component.identity = false then
      { outcome with identityConfirmed := false, problem := some (differs component.identity) }
    else outcome

def confirm (firmware gateware : Option UpdateComponent) (returned : DeviceIdentity) :
    UpdateOutcome :=
  let running := parseFirmwareCommit returned.productString
  let outcome := { UpdateOutcome.start with identity := returned, identityConfirmed := true }
  let outcome := checkIdentity firmware (running.getD []) (.firmwareDiffers running) outcome
  let outcome := checkIdentity gateware returned.gatewareCommit
    (.gatewareDiffers returned.gatewareCommit) outcome
  if outcome.identityConfirmed then { outcome with succeeded := true, stage := .complete }
  else { outcome with stage := .failed }

/-- From the last write on. -/
def restart (settings : Settings) (firmware gateware : Option UpdateComponent) :
    Session UpdateOutcome := do
  if settings.deferRestart then
    return { UpdateOutcome.start with succeeded := true, stage := .complete }
  else
    let _ ← query .reset
    match ← query .waitForReturn with
    | none => return UpdateOutcome.start.fail .didNotReappear
    | some returned => return confirm firmware gateware returned

/-- The payload bytes of a bundle's span; one that was never set is empty. -/
def spanBytes (archive : List Byte) (span : Option UstarArchive.Span) : List Byte :=
  (span.map (UstarArchive.Span.bytes archive)).getD []

def runUpdate (settings : Settings) (polls : Nat) (archive : List Byte) (bundle : UpdateBundle) :
    Session UpdateOutcome := do
  let firmwarePayload := spanBytes archive bundle.firmware
  let gatewarePayload := spanBytes archive bundle.gateware
  let firmware := present bundle.manifest.firmware firmwarePayload
  let gateware := present bundle.manifest.gateware gatewarePayload
  if firmware.isNone ∧ gateware.isNone then return UpdateOutcome.start.fail .nothingToInstall
  else
    match ← installPresent firmware fun component =>
      installComponent settings .firmware component firmwarePayload polls with
    | some problem => return UpdateOutcome.start.fail problem
    | none =>
      match ← installPresent gateware (installGateware settings gatewarePayload polls) with
      | some problem => return UpdateOutcome.start.fail problem
      | none => restart settings firmware gateware

end UpdateOrchestrator
