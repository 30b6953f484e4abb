import DomesdayDuplicator.Firmware.UpdateAgent

/-!
# The capture path under USB events and control requests

`fx3/firmware/src/domesday-duplicator.c`: the setup callback, the event callback, what starts
and stops the application, and the input interrupts, around the update agent and its thread.
The calls into the SDK succeed; what they do to the hardware is in `Hardware`. A DMA call
the channel cannot take leaves it `misused`, for good.
-/

namespace CapturePath

open UpdateProtocol Medium UpdateAgent

inductive Speed where
  | notConnected
  | full
  | high
  | superSpeed
  deriving DecidableEq

inductive Channel where
  | absent
  /-- Created or reset, without a transfer. -/
  | parked
  | running
  | misused
  deriving DecidableEq

def Channel.create : Channel → Channel
  | .absent => .parked
  | _ => .misused

def Channel.setXfer : Channel → Channel
  | .parked => .running
  | _ => .misused

def Channel.reset : Channel → Channel
  | .parked | .running => .parked
  | _ => .misused

def Channel.destroy : Channel → Channel
  | .parked | .running => .absent
  | _ => .misused

structure EndpointConfig where
  burstLen : Nat
  pcktSize : Nat
  deriving DecidableEq

structure Hardware where
  /-- GPIO 19. -/
  collectData : Bool
  /-- The USB driver may take the link to U1 and U2. -/
  lpmEnabled : Bool
  channel : Channel
  consumer : Option EndpointConfig
  gpifRunning : Bool
  connected : Bool

/-- `dataCollectionFlag` and `glIsApplnActive` are with the update agent, which reads them. -/
structure Firmware where
  agent : Device
  forceLinkU2 : Bool
  usbInitComplete : Bool
  inputFlag : Fin 4 → Bool
  inputHandledFlag : Fin 4 → Bool
  hardware : Hardware

def epConsumer : BitVec 16 := 0x81
def epBurstLength : Nat := 16

/-- The state in which the application thread finds the device. -/
def powerOn (i2cComesUp : Bool) (media : Media) : Firmware where
  agent := UpdateAgent.powerOn i2cComesUp media
  forceLinkU2 := false
  usbInitComplete := false
  inputFlag := fun _ => false
  inputHandledFlag := fun _ => false
  hardware :=
    { collectData := false
      lpmEnabled := true
      channel := .absent
      consumer := none
      gpifRunning := false
      connected := false }

/-! ## Starting and stopping the application -/

def domDupClearInputFlags (f : Firmware) : Firmware :=
  { f with inputFlag := fun _ => false, inputHandledFlag := fun _ => false }

/-- GPIO 19 and `dataCollectionFlag`, with the input flags cleared. -/
def collecting (on : Bool) (f : Firmware) : Firmware :=
  domDupClearInputFlags
    { f with
      hardware := { f.hardware with collectData := on }
      agent := { f.agent with dataCollection := on } }

def setActive (active : Bool) (f : Firmware) : Firmware :=
  { f with agent := { f.agent with applicationActive := active } }

def setLpm (enabled : Bool) (f : Firmware) : Firmware :=
  { f with hardware := { f.hardware with lpmEnabled := enabled } }

def onChannel (call : Channel → Channel) (f : Firmware) : Firmware :=
  { f with hardware := { f.hardware with channel := call f.hardware.channel } }

def setConsumer (config : Option EndpointConfig) (f : Firmware) : Firmware :=
  { f with hardware := { f.hardware with consumer := config } }

def setGpif (running : Bool) (f : Firmware) : Firmware :=
  { f with hardware := { f.hardware with gpifRunning := running } }

def setConnected (connected : Bool) (f : Firmware) : Firmware :=
  { f with hardware := { f.hardware with connected := connected } }

def endpointSize : Speed → Nat
  | .full => 64
  | .high => 512
  | .superSpeed => 1024
  | .notConnected => 0

def domDupStartApplication (usbSpeed : Speed) (f : Firmware) : Firmware :=
  if usbSpeed ≠ .superSpeed then f
  else
    let f := collecting false f
    let f := setConsumer (some ⟨epBurstLength, endpointSize usbSpeed⟩) f
    let f := onChannel Channel.create f
    let f := onChannel Channel.setXfer f
    let f := setGpif true f
    setActive true f

def domDupStopApplication (f : Firmware) : Firmware :=
  let f := setActive false f
  let f := collecting false f
  let f := setLpm true f
  let f := setGpif false f
  let f := onChannel Channel.destroy f
  setConsumer none f

def stopIfActive (f : Firmware) : Firmware :=
  if f.agent.applicationActive then domDupStopApplication f else f

/-- `domDupInitialiseApplication`; `noRenum` is the SDK's answer that the host still holds
the connection from before. -/
def domDupInitialiseApplication (noRenum : Bool) (usbSpeed : Speed) (f : Firmware) : Firmware :=
  let f := if ¬ noRenum then setConnected true f
    else domDupStartApplication usbSpeed (stopIfActive f)
  { f with usbInitComplete := true }

/-! ## Control requests -/

structure SetupPacket where
  bReqType : BitVec 8
  bRequest : BitVec 8
  wValue : BitVec 16
  wIndex : BitVec 16
  wLength : BitVec 16

namespace SetupPacket

def bType (s : SetupPacket) : BitVec 8 := s.bReqType &&& 0x60
def bTarget (s : SetupPacket) : BitVec 8 := s.bReqType &&& 0x03

def standardRequest : BitVec 8 := 0x00
def vendorRequest : BitVec 8 := 0x40
def targetInterface : BitVec 8 := 0x01
def targetEndpoint : BitVec 8 := 0x02
def clearFeature : BitVec 8 := 0x01
def setFeature : BitVec 8 := 0x03
def endpointHalt : BitVec 16 := 0
def dataCollection : BitVec 8 := 0xB5
def readRegisters : BitVec 8 := 0xB7
def writeRegister : BitVec 8 := 0xB8

def isUpdate (s : SetupPacket) : Bool := 0xD0#8 ≤ s.bRequest && s.bRequest ≤ 0xD5#8

end SetupPacket

open SetupPacket

/-- What the USB and FPGA hardware answer while a request is served. -/
structure Answers where
  payload : Option (List Byte)
  probe : FlashProbe
  i2cComesUp : Bool
  reconfigures : Bool
  registersPresent : Bool
  registersAnswer : Bool

/-- The request behind one of the six numbers of the update protocol. -/
def updateRequest (s : SetupPacket) (a : Answers) : Request :=
  if s.bRequest = 0xD0 then .status s.wLength.toNat
  else if s.bRequest = 0xD1 then .begin s.wIndex.toNat s.wLength.toNat a.payload a.probe
  else if s.bRequest = 0xD2 then .data s.wIndex.toNat s.wValue.toNat s.wLength.toNat a.payload
  else if s.bRequest = 0xD3 then .finish s.wIndex.toNat
  else if s.bRequest = 0xD4 then .reset a.i2cComesUp
  else .fpgaReconfig a.reconfigures

def fpgaRegisterAddressMax : Nat := 0x7F
def fpgaRegisterReadMax : Nat := 64
def fpgaRegisterTestMode : Nat := 0x10
def fpgaRegisterDecimation : Nat := 0x12

def fpgaReadRequestIsValid (address length : BitVec 16) : Bool :=
  !(address.toNat > fpgaRegisterAddressMax) &&
    !(length.toNat = 0 || length.toNat > fpgaRegisterReadMax)

def fpgaWriteRequestIsValid (value : BitVec 16) : Bool :=
  let address := (value >>> 8).toNat
  !(address > fpgaRegisterAddressMax) &&
    (address = fpgaRegisterTestMode || address = fpgaRegisterDecimation)

inductive UsbEvent where
  | connect (eventData : Nat)
  | setConf (eventData : Nat)
  | suspend
  | resume
  | reset
  | disconnect
  | vbusRemoved
  | vbusValid
  | epUnderrun (eventData : Nat)
  | lnkRecovery
  | ssCompEntry
  | ssCompExit
  | usb3LnkFail
  | lmpExchFail
  | other
  deriving DecidableEq

inductive Report where
  | agent (e : Event)
  | setup (isHandled : Bool)
  | usb (usbSpeed : Speed) (e : UsbEvent)
  | silent
  deriving DecidableEq

/-- The 0xB5 request of an active application. -/
def domDupDataCollection (wValue : BitVec 16) (f : Firmware) : Firmware × Report :=
  if wValue = 1 ∧ updateIsInProgress f.agent.update then (f, .agent .stalled)
  else if wValue = 1 then (setLpm false (collecting true f), .agent .captureStarted)
  else if wValue = 0 then (setLpm true (collecting false f), .agent .captureStopped)
  else (f, .agent .quiet)

def domDupStandardRequest (s : SetupPacket) (f : Firmware) : Firmware × Report :=
  if s.bTarget = targetInterface ∧ (s.bRequest = setFeature ∨ s.bRequest = clearFeature) ∧
      s.wValue = 0 then
    if f.agent.applicationActive then
      ({ f with forceLinkU2 := s.bRequest = setFeature }, .setup true)
    else (f, .setup true)
  else if s.bTarget = targetEndpoint ∧ s.bRequest = clearFeature ∧ s.wValue = endpointHalt then
    if f.agent.applicationActive ∧ s.wIndex = epConsumer then
      (onChannel Channel.setXfer (onChannel Channel.reset f), .setup true)
    else (f, .setup false)
  else (f, .setup false)

section Machine

variable (sha256 : List Byte → Digest) (faults : Faults)

/-- A device reset takes the whole firmware back to its start. -/
def domDupHandleUpdateRequest (r : Request) (f : Firmware) : Firmware × Report :=
  match r with
  | .reset i2cComesUp => (powerOn i2cComesUp f.agent.media, .agent .reset)
  | r =>
    let served := serve sha256 faults f.agent r
    ({ f with agent := served.1 }, .agent served.2)

def domDupUSBSetupCB (s : SetupPacket) (a : Answers) (f : Firmware) : Firmware × Report :=
  if s.bType = vendorRequest then
    if s.isUpdate then domDupHandleUpdateRequest sha256 faults (updateRequest s a) f
    else if f.agent.applicationActive then
      if s.bRequest = dataCollection then domDupDataCollection s.wValue f
      else if s.bRequest = readRegisters then
        (f, .setup (a.registersPresent && fpgaReadRequestIsValid s.wValue s.wLength &&
          a.registersAnswer))
      else if s.bRequest = writeRegister then
        (f, .setup (a.registersPresent && fpgaWriteRequestIsValid s.wValue && a.registersAnswer))
      else (f, .setup false)
    else (f, .setup false)
  else if s.bType = standardRequest then domDupStandardRequest s f
  else (f, .setup false)

/-! ## Events and interrupts -/

def domDupUSBEventCB (usbSpeed : Speed) (e : UsbEvent) (f : Firmware) : Firmware :=
  match e with
  | .connect _ => setLpm true f
  | .setConf eventData =>
    let f := stopIfActive f
    if eventData ≠ 0 then domDupStartApplication usbSpeed f else f
  | .suspend =>
    let f := collecting false f
    if f.agent.applicationActive then onChannel Channel.reset f else f
  | .resume =>
    if f.agent.applicationActive then domDupStartApplication usbSpeed (domDupStopApplication f)
    else f
  | .reset => setLpm true (stopIfActive { f with forceLinkU2 := false })
  | .disconnect => stopIfActive { f with forceLinkU2 := false }
  | .vbusRemoved => if f.usbInitComplete then setConnected false (stopIfActive f) else f
  | .vbusValid => if f.usbInitComplete then setConnected true f else f
  | _ => f

def inputOfPin : Nat → Option (Fin 4)
  | 20 => some 0
  | 21 => some 1
  | 28 => some 2
  | 29 => some 3
  | _ => none

def gpioInterruptCallback (gpioTriggerPin : Nat) (gpioValue : Bool) (f : Firmware) : Firmware :=
  match inputOfPin gpioTriggerPin with
  | none => f
  | some input =>
    if gpioValue then
      if f.agent.dataCollection then
        { f with inputFlag := Function.update f.inputFlag input true }
      else f
    else { f with inputFlag := Function.update f.inputFlag input false }

/-- The application loop reports each input once. -/
def reportInputs (f : Firmware) : Firmware :=
  { f with inputHandledFlag := fun input => f.inputHandledFlag input || f.inputFlag input }

inductive Action where
  | setup (s : SetupPacket) (a : Answers)
  | usb (usbSpeed : Speed) (e : UsbEvent)
  | initialise (noRenum : Bool) (usbSpeed : Speed)
  | interrupt (gpioTriggerPin : Nat) (gpioValue : Bool)
  | loop
  | thread

def step (f : Firmware) : Action → Firmware × Report
  | .setup s a => domDupUSBSetupCB sha256 faults s a f
  | .usb usbSpeed e => (domDupUSBEventCB usbSpeed e f, .usb usbSpeed e)
  | .initialise noRenum usbSpeed => (domDupInitialiseApplication noRenum usbSpeed f, .silent)
  | .interrupt gpioTriggerPin gpioValue =>
    (gpioInterruptCallback gpioTriggerPin gpioValue f, .silent)
  | .loop => (reportInputs f, .silent)
  | .thread =>
    let next := threadStep sha256 faults f.agent
    ({ f with agent := next.1 }, .agent next.2)

def machine : Execution.Machine Firmware Action Report := ⟨step sha256 faults⟩

end Machine

/-- The capture request is the one the update agent's model serves. -/
theorem dataCollection_agent (sha256 : List Byte → Digest) (faults : Faults) (wValue : BitVec 16)
    {f : Firmware} (active : f.agent.applicationActive = true) :
    (domDupDataCollection wValue f).1.agent = (serve sha256 faults f.agent (.capture wValue.toNat)).1 ∧
      (domDupDataCollection wValue f).2 =
        .agent (serve sha256 faults f.agent (.capture wValue.toNat)).2 := by
  have one : wValue.toNat = 1 ↔ wValue = 1 := by bv_omega
  have zero : wValue.toNat = 0 ↔ wValue = 0 := by bv_omega
  simp only [domDupDataCollection, serve, one, zero]
  by_cases start : wValue = 1
  · cases progress : updateIsInProgress f.agent.update <;>
      simp [active, start, progress, collecting, setLpm, domDupClearInputFlags]
  · by_cases stop : wValue = 0
    · simp [active, stop, collecting, setLpm, domDupClearInputFlags]
    · rw [if_neg fun both => start both.1, if_neg start, if_neg stop, if_neg (by simp [active]),
        if_neg start, if_neg stop]
      exact ⟨rfl, rfl⟩

end CapturePath
