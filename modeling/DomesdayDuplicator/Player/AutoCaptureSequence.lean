import DomesdayDuplicator.Foundations.Dialogue
import DomesdayDuplicator.Player.AutoCapturePlan
import DomesdayDuplicator.Player.ResponseParser

/-!
# The automatic capture

`AutoCaptureSequence`, one step at a time: the run proper up to the watch, and the
tail that whatever ended the run goes through. What the constructor settles and
nothing changes is `Settings`.
-/

namespace AutoCapture

open Player

inductive AutoCaptureStage where
  | idle | lockingFrontPanel | confirmingDisc | checkingTransport | spinningDown | seekingStart
  | startingCapture | spinningUp | watching | checkingStall | checkingBeforeStopping
  | stoppingCapture | stoppingPlayer | unlockingFrontPanel | finished
  deriving DecidableEq, Repr

inductive AutoCaptureOutcome where
  | inProgress | completed | invalidPlan | unsupportedPlayer | discChanged | playerRefused
  | stalled | playerStopped | captureFailed | linkFailed | cancelled
  deriving DecidableEq, Repr

inductive AutoCaptureAction where
  | sendCommand | startCapture | stopCapture
  deriving DecidableEq, Repr

structure AutoCaptureStep where
  stage : AutoCaptureStage
  action : AutoCaptureAction := .sendCommand
  command : PlayerCommand := .queryActiveMode
  argument : Option Int := none
  /-- Milliseconds. -/
  delay : Nat := 0
  deriving DecidableEq, Repr

structure StepResult where
  reply : Reply := {}
  captureOk : Bool := true
  deriving DecidableEq

structure Settings where
  definition : PlayerDefinition
  firmware : Text
  plan : AutoCapturePlan
  disc : DiscProfile

def Settings.has (c : Settings) (command : PlayerCommand) : Bool :=
  (controlsFor c.definition c.firmware).has command

structure AutoCaptureSequence where
  stage : AutoCaptureStage := .idle
  outcome : AutoCaptureOutcome := .inProgress
  pendingOutcome : AutoCaptureOutcome := .completed
  pending : Option AutoCaptureStep := none
  finishing : Bool := false
  cancelRequested : Bool := false
  keyLockTaken : Bool := false
  transportStarted : Bool := false
  discTurning : Bool := false
  captureStarted : Bool := false
  captureStopped : Bool := false
  linkFailed : Bool := false
  lastAddress : Option Int := none
  readingsWithoutAdvance : Nat := 0
  deriving DecidableEq

def AutoCaptureSequence.isFinished (s : AutoCaptureSequence) : Bool :=
  s.outcome != .inProgress

def AutoCaptureSequence.captureRunning (s : AutoCaptureSequence) : Bool :=
  s.captureStarted && !s.captureStopped

def AutoCaptureSequence.captureLeftRunning (s : AutoCaptureSequence) : Bool :=
  s.isFinished && s.captureRunning

def watchInterval : Nat := 500

def stallReadings : Nat := 5

variable (c : Settings)

def seekCommand : PlayerCommand :=
  if c.plan.addressing = .timeCode then .seekTimeCode else .seekFrame

def playCommand : PlayerCommand :=
  if c.plan.addressing = .frame ∧ c.has .playWithoutStopCodes then .playWithoutStopCodes
  else .play

/-- The constructor. -/
def begin : AutoCaptureSequence :=
  if validateAutoCapturePlan c.plan c.disc ≠ .none then
    { stage := .finished, outcome := .invalidPlan }
  else
    let needsSeek := !beginsWithSpinUp c.plan.shape
    if !c.has .play || (needsSeek && !c.has (seekCommand c)) then
      { stage := .finished, outcome := .unsupportedPlayer }
    else { stage := .lockingFrontPanel }

def stepFor (stage : AutoCaptureStage) : AutoCaptureStep :=
  match stage with
  | .lockingFrontPanel => { stage := stage, command := .keyLockOn }
  | .confirmingDisc => { stage := stage, command := .queryDiscStatus }
  | .checkingTransport | .checkingBeforeStopping => { stage := stage, command := .queryActiveMode }
  | .spinningDown => { stage := stage, command := .stop }
  | .seekingStart =>
    { stage := stage, command := seekCommand c, argument := some c.plan.startAddress }
  | .startingCapture => { stage := stage, action := .startCapture }
  | .spinningUp => { stage := stage, command := playCommand c }
  | .watching =>
    { stage := stage, command := addressQueryFor c.definition c.plan.addressing
      delay := watchInterval }
  | .checkingStall => { stage := stage, command := .queryActiveMode }
  | .stoppingCapture => { stage := stage, action := .stopCapture }
  | .stoppingPlayer => { stage := stage, command := .stop }
  | .unlockingFrontPanel => { stage := stage, command := .keyLockOff }
  | .idle | .finished => { stage := stage }

/-- The next stage of the run proper. -/
def stageAfter : AutoCaptureStage → AutoCaptureStage
  | .lockingFrontPanel => .confirmingDisc
  | .confirmingDisc =>
    if beginsWithSpinUp c.plan.shape then .checkingTransport else .seekingStart
  | .checkingTransport => .spinningDown
  | .spinningDown | .seekingStart => .startingCapture
  | .startingCapture => .spinningUp
  | .spinningUp => .watching
  | stage => stage

def advance (s : AutoCaptureSequence) : AutoCaptureSequence :=
  { s with stage := stageAfter c s.stage }

/-! ## The tail -/

def firstTeardownStage : AutoCaptureStage :=
  if endsWithSpinDown c.plan.shape then .checkingBeforeStopping else .stoppingCapture

def teardownSuccessor : AutoCaptureStage → AutoCaptureStage
  | .checkingBeforeStopping => .stoppingPlayer
  | .stoppingPlayer =>
    if endsWithSpinDown c.plan.shape then .stoppingCapture else .unlockingFrontPanel
  | .stoppingCapture =>
    if endsWithSpinDown c.plan.shape then .unlockingFrontPanel else .checkingBeforeStopping
  | _ => .finished

def wouldStopPlayer (s : AutoCaptureSequence) : Bool :=
  s.transportStarted && !s.linkFailed && c.has .stop

def teardownStepApplies (s : AutoCaptureSequence) : AutoCaptureStage → Bool
  | .stoppingCapture => s.captureRunning && s.pendingOutcome != .linkFailed
  | .checkingBeforeStopping => wouldStopPlayer c s && c.has .queryActiveMode
  | .stoppingPlayer => wouldStopPlayer c s && s.discTurning
  | .unlockingFrontPanel => s.keyLockTaken && !s.linkFailed && c.has .keyLockOff
  | _ => false

/-- The loop of `AdvanceTeardown`, for as many turns as the tail has stages. -/
def walk : Nat → AutoCaptureSequence → AutoCaptureSequence
  | 0, s => s
  | fuel + 1, s =>
    if s.stage = .finished then { s with outcome := s.pendingOutcome }
    else if teardownStepApplies c s s.stage then s
    else walk fuel { s with stage := teardownSuccessor c s.stage }

def advanceTeardown (s : AutoCaptureSequence) : AutoCaptureSequence :=
  walk c 5 s

def completeTeardownStep (s : AutoCaptureSequence) (stage : AutoCaptureStage) :
    AutoCaptureSequence :=
  advanceTeardown c { s with stage := teardownSuccessor c stage }

def finish (s : AutoCaptureSequence) (outcome : AutoCaptureOutcome) : AutoCaptureSequence :=
  if s.finishing then s
  else
    advanceTeardown c
      { s with
        finishing := true
        pendingOutcome := outcome
        pending := none
        -- the tail asks again, and until it has an answer the answer is no
        discTurning := false
        linkFailed := s.linkFailed || outcome == .linkFailed
        stage := firstTeardownStage c }

/-- A cancel that arrived between steps, or while one was in flight. -/
def honourCancel (s : AutoCaptureSequence) : AutoCaptureSequence :=
  if s.cancelRequested && !s.finishing then finish c s .cancelled else s

/-! ## Next -/

def skipLock (s : AutoCaptureSequence) : AutoCaptureSequence :=
  if s.stage = .lockingFrontPanel ∧ (!c.plan.keyLock || !c.has .keyLockOn) then
    { s with stage := .confirmingDisc }
  else s

/-- A stage the model has no command for, or that this run must not take, is passed over. -/
def skipUnless (stage : AutoCaptureStage) (able : AutoCaptureSequence → Bool)
    (s : AutoCaptureSequence) : AutoCaptureSequence :=
  if s.stage = stage ∧ !able s then advance c s else s

def skips (s : AutoCaptureSequence) : AutoCaptureSequence :=
  let s := skipLock c s
  let s := skipUnless c .confirmingDisc (fun _ => c.has .queryDiscStatus) s
  let s := skipUnless c .checkingTransport (fun _ => c.has .queryActiveMode) s
  skipUnless c .spinningDown (fun s => c.has .stop && s.discTurning) s

def hand (s : AutoCaptureSequence) : AutoCaptureSequence :=
  { s with
    pending := some (stepFor c s.stage)
    -- recorded when the command goes out: a refused seek may still have spun the disc up
    transportStarted :=
      s.transportStarted || decide (s.stage = .seekingStart ∨ s.stage = .spinningUp) }

def next (s : AutoCaptureSequence) : Option AutoCaptureStep × AutoCaptureSequence :=
  if s.isFinished then (none, s)
  else
    match s.pending with
    | some step => (some step, s)
    | none =>
      let s := honourCancel c s
      if s.isFinished then (none, s)
      else
        let s := hand c (skips c s)
        (s.pending, s)

/-! ## Apply -/

def applyLockingFrontPanel (s : AutoCaptureSequence) (reply : Reply) : AutoCaptureSequence :=
  advance c { s with keyLockTaken := reply.ok }

/-- The disc in the player is not the one the plan was built for. -/
def discChanged (status : DiscStatus) : Bool :=
  let gone := status.loaded == some false
  let wrongType := status.type != .unknown && c.disc.discType.known &&
    status.type != c.disc.discType.value
  let wrongSide := match status.side with
    | some side => c.disc.discSide.known && side != c.disc.discSide.value
    | none => false
  let wrongSize := status.size != .unknown && c.disc.discSize.known &&
    status.size != c.disc.discSize.value
  gone || wrongType || wrongSide || wrongSize

def applyConfirmingDisc (s : AutoCaptureSequence) (reply : Reply) : AutoCaptureSequence :=
  if !reply.ok then advance c s
  else
    let status := parseDiscStatus reply.text c.definition.discStatus
    if !status.valid then advance c s
    else if discChanged c status then finish c s .discChanged
    else advance c s

def applyCheckingTransport (s : AutoCaptureSequence) (reply : Reply) : AutoCaptureSequence :=
  if !reply.ok then s
  else
    { s with
      discTurning := isSpinning (parsePlayerState reply.text c.definition.stateDecode) }

def applyCheckingTransportAndAdvance (s : AutoCaptureSequence) (reply : Reply) :
    AutoCaptureSequence :=
  advance c (applyCheckingTransport c s reply)

def applySpinningDown (s : AutoCaptureSequence) (_reply : Reply) : AutoCaptureSequence :=
  advance c s

def applySeekingStart (s : AutoCaptureSequence) (reply : Reply) : AutoCaptureSequence :=
  if !reply.ok then finish c s .playerRefused else advance c s

def applySpinningUp (s : AutoCaptureSequence) (reply : Reply) : AutoCaptureSequence :=
  if !reply.ok then finish c s .playerRefused else advance c s

/-- A reading that does not show movement. -/
def countReading (s : AutoCaptureSequence) : AutoCaptureSequence :=
  let readings := s.readingsWithoutAdvance + 1
  { s with
    readingsWithoutAdvance := readings
    stage := if stallReadings ≤ readings then .checkingStall else s.stage }

def applyWatching (s : AutoCaptureSequence) (reply : Reply) : AutoCaptureSequence :=
  if !reply.ok then countReading s
  else
    let address := parseAddress reply.text c.plan.addressing c.definition.timeCodeFormat
    if address.inLeadOut then finish c s .completed
    else if address.inLeadIn then { s with readingsWithoutAdvance := 0 }
    else if !address.valid then countReading s
    else if c.plan.endAddress ≤ address.value then
      finish c { s with lastAddress := some address.value } .completed
    else if s.lastAddress.all fun last => decide (last < address.value) then
      { s with lastAddress := some address.value, readingsWithoutAdvance := 0 }
    else countReading s

def applyCheckingStall (s : AutoCaptureSequence) (reply : Reply) : AutoCaptureSequence :=
  let state :=
    if reply.ok then parsePlayerState reply.text c.definition.stateDecode else .unknown
  match state with
  | .settingUp | .searching => { s with readingsWithoutAdvance := 0, stage := .watching }
  | .playing | .scanning | .multiSpeed => finish c s .stalled
  | .stillFrame | .paused | .parked | .unloading | .doorOpen => finish c s .playerStopped
  | .unknown => finish c s .stalled

/-- The answer to a command of the run proper. -/
def applyReply (s : AutoCaptureSequence) (stage : AutoCaptureStage) (reply : Reply) :
    AutoCaptureSequence :=
  match stage with
  | .lockingFrontPanel => applyLockingFrontPanel c s reply
  | .confirmingDisc => applyConfirmingDisc c s reply
  | .checkingTransport => applyCheckingTransportAndAdvance c s reply
  | .spinningDown => applySpinningDown c s reply
  | .seekingStart => applySeekingStart c s reply
  | .spinningUp => applySpinningUp c s reply
  | .watching => applyWatching c s reply
  | .checkingStall => applyCheckingStall c s reply
  | _ => s

def applyCommand (s : AutoCaptureSequence) (stage : AutoCaptureStage) (reply : Reply) :
    AutoCaptureSequence :=
  if reply.linkDown then
    if s.finishing then completeTeardownStep c { s with linkFailed := true } stage
    else finish c s .linkFailed
  else
    match stage with
    | .checkingBeforeStopping => completeTeardownStep c (applyCheckingTransport c s reply) stage
    | .stoppingPlayer | .unlockingFrontPanel => completeTeardownStep c s stage
    | _ => honourCancel c (applyReply c s stage reply)

def applyStart (s : AutoCaptureSequence) (captureOk : Bool) : AutoCaptureSequence :=
  if !captureOk then finish c s .captureFailed
  else advance c { s with captureStarted := true }

def applyStop (s : AutoCaptureSequence) (captureOk : Bool) : AutoCaptureSequence :=
  completeTeardownStep c
    { s with
      -- a detach that reports a failure has still detached
      captureStopped := true
      pendingOutcome :=
        if !captureOk && s.pendingOutcome == .completed then .captureFailed
        else s.pendingOutcome }
    .stoppingCapture

def apply (s : AutoCaptureSequence) (result : StepResult) : AutoCaptureSequence :=
  if s.isFinished then s
  else
    match s.pending with
    | none => s
    | some step =>
      let s := { s with pending := none }
      match step.action with
      | .startCapture => applyStart c s result.captureOk
      | .stopCapture => applyStop c s result.captureOk
      | .sendCommand => applyCommand c s step.stage result.reply

def cancel (s : AutoCaptureSequence) : AutoCaptureSequence :=
  if s.isFinished then s
  else
    let s := { s with cancelRequested := true }
    if s.pending.isNone && !s.finishing then finish c s .cancelled else s

end AutoCapture
