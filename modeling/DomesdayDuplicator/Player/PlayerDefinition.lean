import Mathlib.Data.Option.Basic

/-!
# Player definitions

What the application knows about one player model, as far as the examination and
the automatic capture read it, and the controls that come of it.
-/

namespace Player

/-- Bytes of the serial line, each as the character with its code. -/
abbrev Text := List Char

inductive PlayerCommand where
  | trayOpen | trayClose
  | play | playWithoutStopCodes | pause | stillFrame | stop
  | stepForward | stepReverse | scanForward | scanReverse
  | multiSpeedForward | multiSpeedReverse | setSpeed
  | seekFrame | seekTimeCode | seekChapter
  | displayOn | displayOff | setAudio
  | keyLockOn | keyLockOff
  | queryActiveMode | queryAddress | queryTimeCode | queryDiscStatus
  | queryStandardUserCode | queryPioneerUserCode
  | queryTvSystem | queryPhysicalPosition
  deriving DecidableEq, Repr

inductive AudioMode where
  | off | analogChannel1 | analogChannel2 | analogStereo
  | digitalChannel1 | digitalChannel2 | digitalStereo
  deriving DecidableEq, Repr

inductive PlaybackSpeed where
  | sixth | quarter | third | half | normal | double | triple | quadruple
  deriving DecidableEq, Repr

inductive PlayerState where
  | unknown | doorOpen | parked | settingUp | unloading | playing
  | stillFrame | paused | searching | scanning | multiSpeed
  deriving DecidableEq, Repr

def isSpinning : PlayerState → Bool
  | .settingUp | .playing | .stillFrame | .paused | .searching | .scanning | .multiSpeed => true
  | .unknown | .doorOpen | .parked | .unloading => false

inductive TrayState where
  | unknown | open | closed
  deriving DecidableEq, Repr

def trayStateFor : PlayerState → TrayState
  | .unknown => .unknown
  | .doorOpen => .open
  | _ => .closed

inductive DiscType where
  | unknown | cav | clv
  deriving DecidableEq, Repr

inductive DiscSize where
  | unknown | cm30 | cm20
  deriving DecidableEq, Repr

inductive VideoStandard where
  | unknown | ntsc | pal
  deriving DecidableEq, Repr

inductive AddressMode where
  | frame | timeCode
  deriving DecidableEq, Repr

def addressModeFor (type : DiscType) : AddressMode :=
  if type = .clv then .timeCode else .frame

inductive PhysicalPositionSupport where
  | unsupported | firmwareGated | supported
  deriving DecidableEq, Repr

structure PlayerCapabilities where
  trayControl : Bool := true
  stopCodesDisabledPlay : Bool := true
  step : Bool := true
  scan : Bool := true
  multiSpeed : Bool := true
  speedSelection : Bool := true
  frameSearch : Bool := true
  timeCodeSearch : Bool := true
  chapterSearch : Bool := true
  onScreenDisplay : Bool := true
  audioSelection : Bool := true
  digitalAudio : Bool := true
  keyLock : Bool := true
  standardUserCode : Bool := true
  pioneerUserCode : Bool := true
  physicalPosition : PhysicalPositionSupport := .unsupported

/-- The wire form of a command; empty when the model has none. -/
structure CommandSpec where
  start : Text := []
  suffix : Text := []

def CommandSpec.present (spec : CommandSpec) : Bool :=
  !spec.start.isEmpty || !spec.suffix.isEmpty

structure StateMapping where
  code : Text
  state : PlayerState

structure StateDecode where
  start : Text
  mappings : List StateMapping

/-- Where a field stands in a reply; `none` for `kReplyFieldAbsent`. -/
abbrev ReplyField := Option Nat

structure DiscStatusDecode where
  discLoaded : ReplyField := some 0
  discType : ReplyField := some 1
  discSize : ReplyField := some 2
  discSide : ReplyField := some 3
  chapters : ReplyField := some 4

structure TvSystemDecode where
  output : ReplyField := some 0
  disc : ReplyField := some 1
  externalSync : ReplyField := some 2

inductive TimeCodeFormat where
  | hmmssff | hmmss
  deriving DecidableEq, Repr

inductive UserCodeErrorPolicy where
  | notEncoded | unsupported
  deriving DecidableEq, Repr

def parameterUnsupported : Int := -1

structure PlayerDefinition where
  capabilities : PlayerCapabilities := {}
  physicalPositionFirmware : Text := []
  commands : PlayerCommand → CommandSpec
  audioParameters : AudioMode → Int := fun _ => 0
  speedParameters : PlaybackSpeed → Int := fun _ => 0
  stateDecode : StateDecode
  discStatus : DiscStatusDecode := {}
  tvSystem : TvSystemDecode := {}
  timeCodeFormat : TimeCodeFormat := .hmmssff
  userCodeErrorPolicy : UserCodeErrorPolicy := .notEncoded

def addressQueryFor (definition : PlayerDefinition) (mode : AddressMode) : PlayerCommand :=
  if mode = .timeCode ∧ definition.timeCodeFormat = .hmmss then .queryTimeCode else .queryAddress

def supportsPhysicalPosition (definition : PlayerDefinition) (firmware : Text) : Bool :=
  match definition.capabilities.physicalPosition with
  | .unsupported => false
  | .supported => true
  | .firmwareGated =>
    !definition.physicalPositionFirmware.isEmpty && firmware == definition.physicalPositionFirmware

/-! ## Controls -/

structure PlayerControls where
  commands : PlayerCommand → Bool
  audioModes : AudioMode → Bool
  speeds : PlaybackSpeed → Bool

def PlayerControls.has (controls : PlayerControls) (command : PlayerCommand) : Bool :=
  controls.commands command

/-- What the model says it lacks, by the capability that would allow it. -/
def withheld (able : PlayerCapabilities) : PlayerCommand → Bool
  | .trayOpen | .trayClose => !able.trayControl
  | .playWithoutStopCodes => !able.stopCodesDisabledPlay
  | .stepForward | .stepReverse => !able.step
  | .scanForward | .scanReverse => !able.scan
  | .multiSpeedForward | .multiSpeedReverse => !able.multiSpeed
  | .setSpeed => !able.speedSelection
  | .seekFrame => !able.frameSearch
  | .seekTimeCode => !able.timeCodeSearch
  | .seekChapter => !able.chapterSearch
  | .displayOn | .displayOff => !able.onScreenDisplay
  | .setAudio => !able.audioSelection
  | .keyLockOn | .keyLockOff => !able.keyLock
  | .queryStandardUserCode => !able.standardUserCode
  | .queryPioneerUserCode => !able.pioneerUserCode
  | _ => false

def controlsFor (definition : PlayerDefinition) (firmware : Text) : PlayerControls :=
  let able := definition.capabilities
  let commands := fun command =>
    (definition.commands command).present && !withheld able command &&
      !(command == .queryPhysicalPosition && !supportsPhysicalPosition definition firmware)
  { commands := commands
    audioModes := fun mode =>
      commands .setAudio && definition.audioParameters mode != parameterUnsupported &&
        !(!able.digitalAudio &&
          (mode == .digitalChannel1 || mode == .digitalChannel2 || mode == .digitalStereo))
    speeds := fun speed =>
      commands .setSpeed && definition.speedParameters speed != parameterUnsupported }

/-- A control there is nothing to send for is not offered. -/
theorem present_of_has {definition : PlayerDefinition} {firmware : Text} {command : PlayerCommand}
    (h : (controlsFor definition firmware).has command = true) :
    (definition.commands command).present = true := by
  simp only [PlayerControls.has, controlsFor, Bool.and_eq_true] at h
  exact h.1.1

end Player
