import DomesdayDuplicator.Firmware.BootFormat
import DomesdayDuplicator.Jtag.SvfPlayer
import DomesdayDuplicator.Update.UpdateOrchestrator

/-!
# Bringing a board up

`ddd-gui/src/capture/bringup_orchestrator.cpp` with the parts of `device_recovery.cpp` and
`update_orchestrator.cpp` it drives, as programs over the calls to the cable's factory, the
boot ROM's programmer, the device's updater and the user. A cable that could be opened is
its whole behaviour for the play that follows.
-/

namespace BringUp

open CallingProgram Manifest Bundle
open UpdateOrchestrator (UpdateStage UpdateTarget spanBytes)
open ManifestReader (decimalText)

/-- An opened cable, with what the stop callback answers while it is played through. -/
structure JtagPort where
  cable : Svf.Cable
  stop : Nat → Bool

inductive Call where
  | openCable
  | openProgrammer
  | writeRam (address : BitVec 32) (data : List Byte)
  | start (entryAddress : BitVec 32)
  | waitForApplication
  /-- Whether the bus has the device under its application identifiers. -/
  | applicationPresent
  | openUpdater (path : Text)
  /-- `Cancelled()` of the installer. -/
  | cancelled
  /-- What the update orchestrator asks of the device, the user and the clock. -/
  | update (c : UpdateOrchestrator.Call)
  deriving DecidableEq

@[reducible] def Answer : Call → Type
  | .openCable => Except Text JtagPort
  | .waitForApplication => Option Text
  | .openProgrammer | .writeRam _ _ | .start _ | .applicationPresent | .openUpdater _
  | .cancelled => Bool
  | .update c => UpdateOrchestrator.Answer c

abbrev Session := Program Call Answer

abbrev Log := List (Exchange Answer)

abbrev query (c : Call) : Session (Answer c) := ask c

/-- Which of the factories the caller has set. -/
structure Access where
  openCable : Bool
  openProgrammer : Bool
  openUpdater : Bool

/-- A bundle with the archive its payloads are in. -/
structure Source where
  archive : List Byte
  bundle : UpdateBundle

def Source.payload (s : Source) (span : UpdateBundle → Option UstarArchive.Span) : List Byte :=
  spanBytes s.archive (span s.bundle)

/-- A payload the manifest declares and the archive holds. -/
def Source.carries (s : Source) (component : UpdateManifest → Option UpdateComponent)
    (span : UpdateBundle → Option UstarArchive.Span) : Option UpdateComponent :=
  UpdateOrchestrator.present (component s.bundle.manifest) (s.payload span)

def Source.firmware (s : Source) : Option UpdateComponent := s.carries (·.firmware) (·.firmware)

def Source.gateware (s : Source) : Option UpdateComponent := s.carries (·.gateware) (·.gateware)

def Source.factoryGateware (s : Source) : Option UpdateComponent :=
  s.carries (·.factoryGateware) (·.factoryGateware)

def Source.provisioning (s : Source) : Option UpdateComponent :=
  s.carries (·.provisioning) (·.provisioning)

/-! ## The FPGA over JTAG -/

section Configure

variable {D : Type} (d : Svf.Doubles D) (access : Access)

structure ConfigureOutcome (D : Type) where
  succeeded : Bool
  stopped : Bool
  problem : Text
  play : Option (Svf.Played D)
  attempts : Nat

def configureFailure (problem : Text) : ConfigureOutcome D := ⟨false, false, problem, none, 0⟩

def kConfigureAttempts : Nat := 2

/-- The player's own words, and where in the file to look. -/
def describeEnding : Svf.Ending → Text
  | .succeeded => []
  | .stopped _ => Svf.Problem.stopped.text
  | .failed failure keyword => failure.problem.text ++
    if 0 < failure.line then
      text " (Programming file line " ++ decimalText failure.line ++
        (if keyword = [] then [] else text ", " ++ keyword) ++ text ".)"
    else []

def playOutcome (played : Svf.Played D) : ConfigureOutcome D where
  succeeded := played.ending = .succeeded
  stopped := match played.ending with
    | .stopped _ => true
    | _ => false
  problem := describeEnding played.ending
  play := some played
  attempts := 0

/-- `PlayVectors`, with whether the cable could be opened. -/
def playVectors (contents : Text) : Session (ConfigureOutcome D × Bool) := do
  match ← query .openCable with
  | .error problem =>
    return (configureFailure
      (if problem = [] then text "The USB-Blaster could not be opened." else problem), false)
  | .ok port => return (playOutcome (Svf.play d port.cable true port.stop contents), true)

/-- The attempts that are left. -/
def playAttempts (contents : Text) : Nat → Nat → Session (ConfigureOutcome D)
  | 0, _ => return configureFailure []
  | left + 1, attempt => do
    let (outcome, cableOpened) ← playVectors d contents
    let outcome := { outcome with attempts := attempt }
    if outcome.succeeded ∨ outcome.stopped ∨ ¬ cableOpened ∨ left = 0 then return outcome
    else playAttempts contents left (attempt + 1)

def configureFpga (s : Source) : Session (ConfigureOutcome D) :=
  match s.provisioning with
  | none =>
    return configureFailure (text "This file carries no JTAG vectors, so there is no way to " ++
      text "give this board a gateware to be reached through.")
  | some _ =>
    if ¬ access.openCable then
      return configureFailure (text "No JTAG cable is available in this build.")
    else playAttempts d (s.payload (·.provisioning)) kConfigureAttempts 1

end Configure

/-! ## The board out of its boot ROM -/

structure UpdateOutcome where
  succeeded : Bool
  stage : UpdateStage
  problem : Text
  deriving DecidableEq

/-- `Failure` of the recovery. -/
def failure (problem : Text) : UpdateOutcome := ⟨false, .preparing, problem⟩

def failed (problem : Text) : UpdateOutcome := ⟨false, .failed, problem⟩

/-- The sections sent into the device's memory. -/
def sendSections (firmware : List Byte) :
    List BootFormat.BootImageSection → Session (Option UpdateOutcome)
  | [] => return none
  | s :: rest => do
    if ← query .cancelled then
      return some (failure
        (text "Stopped before anything was written. The device is in the same state it was in " ++
          text "before."))
    else if ← query (.writeRam s.address ((firmware.drop s.offset).take s.length)) then
      sendSections firmware rest
    else
      return some (failure
        (text "The device stopped accepting the firmware. Nothing was written permanently; " ++
          text "unplug it, plug it back in, and try again."))

/-- The device once it has been started: its path, or why it cannot be had. -/
def awaitApplication : Session (Except UpdateOutcome Text) := do
  match ← query .waitForApplication with
  | some path => return .ok path
  | none =>
    if ← query .applicationPresent then
      return .error (failure
        (text "The device restarted with the firmware it was given and is attached as a " ++
          text "Duplicator (1209:2347), but this application cannot open it under that " ++
          text "identifier. On Windows that is the driver binding: bind 1209:2347 to WinUSB " ++
          text "with Zadig — the device is on the bus now, which is what Zadig needs — and " ++
          text "run this again. Nothing has been written; the firmware it is running is in " ++
          text "memory and goes when the power does."))
    else
      return .error (failure
        (text "The device did not come back after being given its firmware. Unplug it, plug " ++
          text "it back in, and try again."))

/-- `Wake` from the programmer on. -/
def wakeWith (firmware : List Byte) (image : BootFormat.BootImage) :
    Session (Except UpdateOutcome Text) := do
  if ← query .openProgrammer then
    match ← sendSections firmware image.sections with
    | some outcome => return .error outcome
    | none =>
      if ← query (.start image.entryAddress) then awaitApplication
      else
        return .error (failure
          (text "The device did not start the firmware it was given. Unplug it, plug it back " ++
            text "in, and try again."))
  else
    return .error (failure
      (text "The device in recovery mode could not be opened. Unplug it, plug it back in, and " ++
        text "try again."))

def wake (access : Access) (s : Source) : Session (Except UpdateOutcome Text) :=
  let firmware := s.payload (·.firmware)
  if firmware = [] then
    return .error (failure
      (text "This device has no working firmware, and this update file does not contain any. " ++
        text "Choose an update that includes firmware."))
  else
    match BootFormat.parseBootImage firmware with
    | .error problem => return .error (failure (text problem))
    | .ok image =>
      if ¬ access.openProgrammer then
        return .error (failure (text "This device cannot be reached for programming."))
      else wakeWith firmware image

/-- `WakeAndOpen`: nothing, or why there is no updater. -/
def wakeAndOpen (access : Access) (s : Source) : Session (Option UpdateOutcome) := do
  match ← wake access s with
  | .error outcome => return some outcome
  | .ok path =>
    if ¬ access.openUpdater then
      return some (failure (text "This device cannot be reached for updating."))
    else if ← query (.openUpdater path) then return none
    else
      return some (failure
        (text "The device came back but could not be opened. Unplug it, plug it back in, and " ++
          text "try again."))

section Writes

variable (settings : UpdateOrchestrator.Settings) (polls : Nat)

/-- One component after another, up to the first that does not go well. -/
def installAll :
    List (UpdateTarget × UpdateComponent × List Byte) →
      UpdateOrchestrator.Session (Option UpdateOrchestrator.Problem)
  | [] => return none
  | (target, component, payload) :: rest => do
    match ← UpdateOrchestrator.installComponent settings target component payload polls with
    | some problem => return some problem
    | none => installAll rest

/-- `RunBringUpWrites`. -/
def runBringUpWrites (s : Source) : UpdateOrchestrator.Session UpdateOutcome :=
  match s.firmware, s.factoryGateware, s.gateware with
  | some firmware, some factory, some gateware => do
    match ← installAll settings polls
        [(.firmware, firmware, s.payload (·.firmware)),
          (.epcsFactory, factory, s.payload (·.factoryGateware)),
          (.gateware, gateware, s.payload (·.gateware))] with
    | some problem => return failed problem.text
    | none => return ⟨true, .complete, []⟩
  | _, _, _ =>
    return failed (text "This file cannot bring a board up: it needs the firmware, the factory " ++
      text "image and the gateware, and it does not carry all three.")

/-- `RecoveryInstaller::RunBringUp`. -/
def runBringUp (access : Access) (s : Source) : Session UpdateOutcome := do
  match ← wakeAndOpen access s with
  | some outcome => return outcome
  | none => lift Call.update (runBringUpWrites settings polls s)

/-- `configured` is `fpga_configured_`. -/
def programDevice (access : Access) (configured : Bool) (s : Source) : Session UpdateOutcome :=
  if ¬ configured then
    return failed
      (text "The FPGA has to be configured before anything can be written. Bring-up loads the " ++
        text "gateware over the JTAG cable first, so that the firmware has a flash bridge to " ++
        text "write through.")
  else if s.firmware.isNone then
    return failed
      (text "This file carries no firmware, and a board being brought up needs firmware before " ++
        text "anything else can be done to it.")
  else if s.factoryGateware.isNone then
    return failed (text "This file carries no factory image for the FPGA's flash.")
  else if s.gateware.isNone then
    return failed (text "This file carries no gateware for the FPGA's flash.")
  else runBringUp settings polls access s

end Writes

/-! ## The object -/

inductive Method where
  | configureFpga (s : Source)
  | programDevice (s : Source)

inductive Outcome (D : Type) where
  | configured (outcome : ConfigureOutcome D)
  | programmed (outcome : UpdateOutcome)

/-- A call on the object: what it returns, and `fpga_configured_` after it. -/
def Method.body {D : Type} (d : Svf.Doubles D) (access : Access)
    (settings : UpdateOrchestrator.Settings) (polls : Nat) (configured : Bool) :
    Method → Session (Outcome D × Bool)
  | .configureFpga s => do
    let outcome ← BringUp.configureFpga d access s
    return (.configured outcome, outcome.succeeded)
  | .programDevice s => do
    let outcome ← BringUp.programDevice settings polls access configured s
    return (.programmed outcome, configured)

end BringUp
