import DomesdayDuplicator.Foundations.Execution

/-!
# A capture with no window around it

`HeadlessCaptureRunner` and the part of `CaptureController` it hears from, on the GUI
thread. A signal of the controller calls the runner's slot before the function that emits
it goes on; what is queued runs when the event loop comes to it. Of the pipeline each tick
is told what it finds: whether the limit is reached, whether the detach is counted, whether
the stream has ended.
-/

namespace HeadlessCapture

/-- The exit codes of `capture_cli.h` that a run can end with. -/
inductive ExitCode where
  | success
  | noDevice
  | captureFailed
  deriving DecidableEq, Repr

inductive RunnerState where
  | idle
  | waitingForDevice
  | starting
  | capturing
  | finishing
  | done
  deriving DecidableEq, Repr

/-- What waits for its turn of the event loop. -/
inductive Queued where
  | lookForDevice
  | finish
  | emitFinished (code : ExitCode)
  deriving DecidableEq, Repr

inductive Signal where
  | devicesChanged (devices : Nat)
  | capturingChanged (capturing : Bool) (path : String)
  | captureFinished (path : String) (bytes : Nat)
  | failed (title detail : String)
  | captureRenamed (requested written : String)
  | metadataWriteFailed (detail : String)
  | lowSpaceWarning (message : String)
  deriving DecidableEq, Repr

structure Options where
  deviceWaitMilliseconds : Int
  finishWaitMilliseconds : Int

structure Runner where
  state : RunnerState
  connected : Bool
  deviceTimer : Bool
  finishTimer : Bool
  exitCode : ExitCode
  finishScheduled : Bool
  deriving DecidableEq, Repr

structure Controller where
  /-- `device_` is not null. -/
  usable : Bool
  devices : Nat
  monitoring : Bool
  capturing : Bool
  /-- `pending_sink_change_` is not 0. -/
  pendingSinkChange : Bool
  capturePath : String
  deriving DecidableEq, Repr

structure World where
  options : Options
  runner : Runner
  /-- `controller_` of the runner is not null. -/
  present : Bool
  controller : Controller
  queue : List Queued
  out : List String
  error : List String
  /-- The codes `Finished` was emitted with. -/
  finished : List ExitCode
  /-- The signals the runner has heard before it was done. -/
  heard : List Signal

namespace World

/-! ## The runner -/

def say (line : String) (w : World) : World := { w with error := w.error ++ [line] }

def finish (code : ExitCode) (w : World) : World :=
  if w.runner.state = .done then w
  else
    { w with
      runner := { w.runner with state := .done, deviceTimer := false, finishTimer := false }
      queue := w.queue ++ [.emitFinished code] }

def scheduleFinish (w : World) : World :=
  if w.runner.finishScheduled then w
  else
    { w with
      runner := { w.runner with finishScheduled := true }
      queue := w.queue ++ [.finish] }

/-- A signal comes to a runner that is connected; it is put down unless that is done. -/
def hear (signal : Signal) (w : World) : World :=
  if w.runner.connected ∧ w.runner.state ≠ .done then { w with heard := w.heard ++ [signal] }
  else w

def onCapturingChanged (capturing : Bool) (path : String) (w : World) : World :=
  if w.runner.state = .done then w
  else if capturing then
    { w with runner := { w.runner with state := .capturing } }.say ("Capturing to " ++ path)
  else if w.runner.state ≠ .capturing ∧ w.runner.state ≠ .starting then w
  else
    { w with
      runner := { w.runner with
        state := .finishing
        finishTimer := w.runner.finishTimer || 0 < w.options.finishWaitMilliseconds } }.say
      "Stopped. Finishing the file."

def onCaptureFinished (path : String) (bytes : Nat) (w : World) : World :=
  if w.runner.state = .done then w
  else
    ({ w with
      runner := { w.runner with state := .finishing, finishTimer := false }
      out := w.out ++ [path] }.say
        ("Finished. " ++ toString bytes ++ " bytes written.")).scheduleFinish

/-- A signal that only leads to a line for whoever is watching. -/
def onRemark (signal : Signal) (line : String) (w : World) : World :=
  if w.runner.connected then (w.hear signal).say line else w

/-! ## What the controller emits and does -/

def emitCapturingChanged (capturing : Bool) (path : String) (w : World) : World :=
  if w.runner.connected then
    (w.hear (.capturingChanged capturing path)).onCapturingChanged capturing path
  else w

def emitCaptureFinished (path : String) (bytes : Nat) (w : World) : World :=
  if w.runner.connected then
    (w.hear (.captureFinished path bytes)).onCaptureFinished path bytes
  else w

def stopCapture (w : World) : World :=
  if w.controller.capturing then
    { w with
      controller := { w.controller with pendingSinkChange := true, capturing := false }
      }.emitCapturingChanged false ""
  else w

def onFailed (title detail : String) (w : World) : World :=
  if w.runner.state = .done then w
  else
    let w := { w with runner := { w.runner with exitCode := .captureFailed } }.say
      ("Error: " ++ title ++ ". " ++ detail)
    if w.runner.finishScheduled then w
    else if w.runner.state = .capturing then w.stopCapture
    else if w.runner.state = .finishing then w
    else w.finish .captureFailed

def emitFailed (title detail : String) (w : World) : World :=
  if w.runner.connected then (w.hear (.failed title detail)).onFailed title detail else w

def emitCaptureRenamed (requested written : String) (w : World) : World :=
  w.onRemark (.captureRenamed requested written)
    ("'" ++ requested ++ "' was already taken, so this capture is '" ++ written ++ "'.")

/-- What came of `StartMonitoring` past its first check. -/
inductive Monitoring where
  | fails (title detail : String)
  | works

def startMonitoring (outcome : Monitoring) (w : World) : World :=
  if w.controller.monitoring ∨ w.controller.usable = false then w
  else
    match outcome with
    | .fails title detail => w.emitFailed title detail
    | .works => { w with controller := { w.controller with monitoring := true } }

/-- What came of `OpenCaptureFile`: the names of a capture that is not called as it was
to be, and the path of its file, or why there is none. -/
structure Opening where
  renamed : Option (String × String)
  file : Except (String × String) String

/-- `StartCapture`, with what came of the monitoring, where it was to be started, and of
the file. -/
def startCapture (monitoring : Monitoring) (opening : Opening) (w : World) : World :=
  if w.controller.capturing then w
  else
    let w := if w.controller.monitoring then w else w.startMonitoring monitoring
    if w.controller.monitoring = false then w
    else
      let w := opening.renamed.elim w fun names => w.emitCaptureRenamed names.1 names.2
      match opening.file with
      | .error (title, detail) => w.emitFailed title detail
      | .ok path =>
        { w with controller := { w.controller with capturePath := path, capturing := true }
          }.emitCapturingChanged true path

/-- What came of `FinishCaptureFile`: a rename for the duration, with the names that are
said where it is another than was asked for, and a sidecar that was not written. -/
structure Finishing where
  path : Option String
  renamed : Option (String × String)
  sidecarFailure : Option String
  bytes : Nat

def finishCaptureFile (finishing : Finishing) (w : World) : World :=
  let w := finishing.renamed.elim w fun names => w.emitCaptureRenamed names.1 names.2
  let w := { w with
    controller := { w.controller with
      capturePath := finishing.path.getD w.controller.capturePath } }
  let w := finishing.sidecarFailure.elim w fun detail =>
    w.onRemark (.metadataWriteFailed detail)
      ("The metadata file could not be written: " ++ detail)
  w.emitCaptureFinished w.controller.capturePath finishing.bytes

/-- What a tick finds. -/
structure Findings where
  limitReached : Bool
  lowSpace : Option String
  counted : Bool
  collected : Finishing
  ended : Bool
  finishing : Finishing
  failure : Option (String × String)

def collectFinishedCapture (found : Findings) (w : World) : World :=
  if w.controller.pendingSinkChange = false ∨ found.counted = false then w
  else
    { w with controller := { w.controller with pendingSinkChange := false }
      }.finishCaptureFile found.collected

def finishRun (found : Findings) (w : World) : World :=
  let wasCapturing := w.controller.capturing
  let w := { w with controller := { w.controller with monitoring := false } }
  let w :=
    if wasCapturing then
      { w with controller := { w.controller with capturing := false } }.emitCapturingChanged
        false ""
    else w
  let w := { w with controller := { w.controller with pendingSinkChange := false } }
  let w := if wasCapturing then w.finishCaptureFile found.finishing else w
  found.failure.elim w fun failure => w.emitFailed failure.1 failure.2

/-- `Tick`, on the timer that runs while the stream is monitored. -/
def tick (found : Findings) (w : World) : World :=
  if w.controller.monitoring = false then w
  else
    let w := if w.controller.capturing ∧ found.limitReached then w.stopCapture else w
    let w :=
      if w.controller.capturing then
        found.lowSpace.elim w fun message => w.onRemark (.lowSpaceWarning message) message
      else w
    let w := w.collectFinishedCapture found
    if w.controller.monitoring ∧ found.ended then w.finishRun found else w

/-! ## What the runner asks for -/

/-- `HeadlessCaptureRunner::StartCapture`. -/
def runCapture (monitoring : Monitoring) (opening : Opening) (w : World) : World :=
  let w := { w with runner := { w.runner with deviceTimer := false, state := .starting } }
  let w := w.startCapture monitoring opening
  if w.runner.state = .starting then
    (w.say "The capture did not start.").finish .captureFailed
  else w

def begin (w : World) : World :=
  if w.present = false then (w.say "There is no capture controller to run.").finish .captureFailed
  else if w.runner.state ≠ .idle then w
  else
    { w with
      runner := { w.runner with
        state := .waitingForDevice
        connected := true
        deviceTimer := 0 < w.options.deviceWaitMilliseconds }
      queue := w.queue ++ [.lookForDevice] }

/-- The controller's own slot for the reports of the monitor, and then the runner's. -/
def devicesChanged (devices : Nat) (monitoring : Monitoring) (opening : Opening) (w : World) :
    World :=
  let w := { w with controller := { w.controller with devices } }
  if w.runner.connected = false then w
  else
    let w := w.hear (.devicesChanged devices)
    if w.runner.state ≠ .waitingForDevice ∨ devices = 0 then w
    else w.runCapture monitoring opening

def requestStop (w : World) : World :=
  match w.runner.state with
  | .done => w
  | .finishing =>
    w.say ("Still finishing the file. Interrupting again will not make it quicker, and " ++
      "stopping here would leave it unreadable.")
  | .capturing => (w.say "Interrupted. Stopping the capture.").stopCapture
  | _ =>
    (w.say "Interrupted before a device appeared. Nothing was captured.").finish .noDevice

def deviceTimeout (w : World) : World :=
  if w.runner.deviceTimer = false then w
  else
    let w := { w with runner := { w.runner with deviceTimer := false } }
    if w.runner.state ≠ .waitingForDevice then w
    else
      (w.say ("No Domesday Duplicator was found within " ++
        toString (w.options.deviceWaitMilliseconds / 1000) ++
        " seconds. Nothing was captured.")).finish .noDevice

def finishTimeout (w : World) : World :=
  if w.runner.finishTimer = false then w
  else
    let w := { w with runner := { w.runner with finishTimer := false } }
    if w.runner.state = .done then w
    else
      (w.say ("The capture was stopped but the file was never reported as finished. " ++
        "Whatever was written is on disk and may be incomplete.")).finish .captureFailed

/-- The event loop runs what was queued first. -/
def runQueued (monitoring : Monitoring) (opening : Opening) (w : World) : World :=
  match w.queue with
  | [] => w
  | .lookForDevice :: rest =>
    let w := { w with queue := rest }
    if w.runner.state ≠ .waitingForDevice ∨ w.present = false then w
    else if w.controller.devices = 0 then w
    else w.runCapture monitoring opening
  | .finish :: rest => { w with queue := rest }.finish w.runner.exitCode
  | .emitFinished code :: rest => { w with queue := rest, finished := w.finished ++ [code] }

/-- `CaptureController::Start`, which says so where there is no USB support. -/
def start (w : World) : World :=
  if w.controller.usable then w
  else
    w.emitFailed "No USB support"
      ("The USB subsystem could not be started, so no device can be found. " ++
        "Check that libusb is installed.")

end World

open World

inductive Action where
  | begin
  | start
  | devicesChanged (devices : Nat) (monitoring : Monitoring) (opening : Opening)
  | runQueued (monitoring : Monitoring) (opening : Opening)
  | deviceTimeout
  | finishTimeout
  | requestStop
  -- a client of the control server
  | stopCapture
  | tick (found : Findings)

def World.step (w : World) : Action → World
  | .begin => w.begin
  | .start => w.start
  | .devicesChanged devices monitoring opening => w.devicesChanged devices monitoring opening
  | .runQueued monitoring opening => w.runQueued monitoring opening
  | .deviceTimeout => w.deviceTimeout
  | .finishTimeout => w.finishTimeout
  | .requestStop => w.requestStop
  | .stopCapture => w.stopCapture
  | .tick found => w.tick found

/-- Before `Begin`, with a controller that has not been asked for anything. -/
def launch (options : Options) (present usable : Bool) : World where
  options := options
  runner := ⟨.idle, false, false, false, .success, false⟩
  present := present
  controller := ⟨usable, 0, false, false, false, ""⟩
  queue := []
  out := []
  error := []
  finished := []
  heard := []

def machine : Execution.Machine World Action Unit := ⟨fun w a => (w.step a, ())⟩

end HeadlessCapture
