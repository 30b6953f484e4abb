import DomesdayDuplicator.Foundations.ClockedCircuit

/-!
# Arming a remote update

`remoteUpdate.v`, clock by clock, with the remote update block beside it. Of the block only
the handshake is fixed: it takes a write on an edge of the divided clock that finds it free,
raises busy then or later, and is free again when busy falls. When it does these things is up
to the `Timing` of each clock, and so is whether an edge of the divided clock meets the
signals launched by the same system clock or those before them.
-/

namespace RemoteUpdate

abbrev Param := BitVec 3

def paramMsmMode : Param := 0b000#3
def paramCdEarly : Param := 0b001#3
def paramWatchdogValue : Param := 0b010#3
def paramWatchdogEnable : Param := 0b011#3
def paramBootAddress : Param := 0b100#3
def paramOscInt : Param := 0b110#3
def paramTriggerCondition : Param := 0b111#3

def watchdogTimeout : BitVec 12 := 0xFFF#12
def watchdogEnable : BitVec 1 := 1#1
def holdClocks : Nat := 64
def readAssertClocks : Nat := 8
def readSettleClocks : Nat := 1000

def sourceCurrent : BitVec 2 := 0b00#2
def sourcePrevious1 : BitVec 2 := 0b01#2
def sourceInput : BitVec 2 := 0b11#2

inductive State where
  | idle
  | writeTimeout
  | writeEnable
  | writeOscInt
  | writeCdEarly
  | writeAddress
  | readMode
  | readTrigger
  | readBoot
  | readTimer
  | readWdEn
  | readOscInt
  | readCdEarly
  | holdOff
  | armed
  deriving DecidableEq, Repr

structure Diagnostics where
  mode : BitVec 2
  trigger : BitVec 5
  bootAddress : BitVec 24
  timer : BitVec 12
  wdEn : BitVec 1
  oscInt : BitVec 1
  cdEarly : BitVec 1
  complete : Bool
  deriving DecidableEq, Repr

/-- The registers; the counters never leave the ranges they are loaded from. -/
structure Registers where
  updateClockPhase : Bool
  updateClock : Bool
  blockBusySync0 : Bool
  blockBusySync1 : Bool
  state : State
  paramSelect : Param
  paramData : BitVec 24
  armed : Bool
  writePending : Bool
  readSourceSelect : BitVec 2
  readAssert : Nat
  readTimer : Nat
  holdOff : Nat
  reconfigureHold : Nat
  tickleHold : Nat
  diagnostics : Diagnostics
  deriving DecidableEq, Repr

structure Pins where
  windowWrite : Bool
  windowWriteData : BitVec 8
  transactionDecoded : Bool
  armRequest : Bool
  bootAddress : BitVec 24
  reconfigureRequest : Bool

def reset : Registers where
  updateClockPhase := false
  updateClock := false
  blockBusySync0 := false
  blockBusySync1 := false
  state := .idle
  paramSelect := 0
  paramData := 0
  armed := false
  writePending := false
  readSourceSelect := 0
  readAssert := 0
  readTimer := 0
  holdOff := 0
  reconfigureHold := 0
  tickleHold := 0
  diagnostics := ⟨0, 0, 0, 0, 0, 0, 0, false⟩

namespace Registers

def blockBusy (r : Registers) : Bool := r.blockBusySync1

def blockIdle (r : Registers) : Bool := !r.blockBusy && !r.writePending

def issueWrite (param : Param) (data : BitVec 24) (state : State) (r : Registers) : Registers :=
  { r with paramSelect := param, paramData := data, writePending := true, state }

def issueRead (param : Param) (source : BitVec 2) (state : State) (r : Registers) : Registers :=
  { r with
    paramSelect := param
    readSourceSelect := source
    readAssert := readAssertClocks
    readTimer := readSettleClocks
    state }

def note (change : Diagnostics → Diagnostics) (r : Registers) : Registers :=
  { r with diagnostics := change r.diagnostics }

/-- The divided clock, the synchroniser and the counters, whatever the state. -/
def advance (pins : Pins) (blockBusyRaw : Bool) (r : Registers) : Registers :=
  { r with
    updateClockPhase := !r.updateClockPhase
    updateClock := if r.updateClockPhase then !r.updateClock else r.updateClock
    blockBusySync0 := blockBusyRaw
    blockBusySync1 := r.blockBusySync0
    writePending := r.writePending && !r.blockBusy
    readAssert := r.readAssert - 1
    readTimer := r.readTimer - 1
    reconfigureHold :=
      if pins.reconfigureRequest || pins.windowWrite && pins.windowWriteData.getLsbD 1 then
        holdClocks
      else r.reconfigureHold - 1
    tickleHold :=
      if pins.transactionDecoded || pins.windowWrite && pins.windowWriteData.getLsbD 0 then
        holdClocks
      else r.tickleHold - 1 }

/-- One edge of the system clock. -/
def clock (handOverDelayClocks : Nat) (pins : Pins) (blockBusyRaw : Bool)
    (blockDataOut : BitVec 29) (r : Registers) : Registers :=
  let next := r.advance pins blockBusyRaw
  match r.state with
  | .idle =>
    if pins.armRequest then
      next.issueWrite paramWatchdogValue (watchdogTimeout.setWidth 24) .writeTimeout
    else next
  | .writeTimeout =>
    if r.blockIdle then
      next.issueWrite paramWatchdogEnable (watchdogEnable.setWidth 24) .writeEnable
    else next
  | .writeEnable => if r.blockIdle then next.issueWrite paramOscInt 1 .writeOscInt else next
  | .writeOscInt => if r.blockIdle then next.issueWrite paramCdEarly 1 .writeCdEarly else next
  | .writeCdEarly =>
    if r.blockIdle then next.issueWrite paramBootAddress pins.bootAddress .writeAddress else next
  | .writeAddress =>
    if r.blockIdle then next.issueRead paramMsmMode sourceCurrent .readMode else next
  | .readMode =>
    if r.readTimer = 0 then
      (next.note ({ · with mode := blockDataOut.setWidth 2 })).issueRead
        paramTriggerCondition sourcePrevious1 .readTrigger
    else next
  | .readTrigger =>
    if r.readTimer = 0 then
      (next.note ({ · with trigger := blockDataOut.setWidth 5 })).issueRead
        paramBootAddress sourceInput .readBoot
    else next
  | .readBoot =>
    if r.readTimer = 0 then
      (next.note ({ · with bootAddress := blockDataOut.setWidth 24 })).issueRead
        paramWatchdogValue sourceInput .readTimer
    else next
  | .readTimer =>
    if r.readTimer = 0 then
      (next.note ({ · with timer := blockDataOut.setWidth 12 })).issueRead
        paramWatchdogEnable sourceInput .readWdEn
    else next
  | .readWdEn =>
    if r.readTimer = 0 then
      (next.note ({ · with wdEn := blockDataOut.setWidth 1 })).issueRead
        paramOscInt sourceInput .readOscInt
    else next
  | .readOscInt =>
    if r.readTimer = 0 then
      (next.note ({ · with oscInt := blockDataOut.setWidth 1 })).issueRead
        paramCdEarly sourceInput .readCdEarly
    else next
  | .readCdEarly =>
    if r.readTimer = 0 then
      { next.note ({ · with cdEarly := blockDataOut.setWidth 1, complete := true }) with
        holdOff := handOverDelayClocks
        state := .holdOff }
    else next
  | .holdOff =>
    if r.holdOff = 0 then { next with armed := true, state := .armed }
    else { next with holdOff := r.holdOff - 1 }
  | .armed => next

end Registers

/-! ## The remote update block -/

abbrev Write := Param × BitVec 24

structure Block where
  busy : Bool
  /-- A write has been accepted, or busy was high to begin with, and busy has not fallen. -/
  handling : Bool
  accepted : List Write

structure Timing where
  /-- The divided clock meets what this system clock launches, not what stood before. -/
  early : Bool
  busyRises : Bool
  busyFalls : Bool
  dataOut : BitVec 29

/-- An edge of the divided clock, with the fabric's registers as it meets them. -/
def Block.edge (timing : Timing) (r : Registers) (b : Block) : Block :=
  if b.busy then
    if timing.busyFalls then { b with busy := false, handling := false } else b
  else if b.handling then { b with busy := timing.busyRises }
  else if r.writePending then
    { busy := timing.busyRises
      handling := true
      accepted := b.accepted ++ [(r.paramSelect, r.paramData)] }
  else if r.readAssert ≠ 0 then { b with busy := timing.busyRises, handling := timing.busyRises }
  else b

structure World where
  fabric : Registers
  block : Block

/-- The divided clock rises on this edge of the system clock. -/
def World.rises (w : World) : Bool := w.fabric.updateClockPhase && !w.fabric.updateClock

def World.clock (handOverDelayClocks : Nat) (i : Pins × Timing) (w : World) : World :=
  let fabric := w.fabric.clock handOverDelayClocks i.1 w.block.busy i.2.dataOut
  { fabric
    block := if w.rises then w.block.edge i.2 (if i.2.early then fabric else w.fabric) else w.block }

/-- Out of reset, with a block that may still be busy. -/
def launch (busy : Bool) : World := ⟨reset, ⟨busy, busy, []⟩⟩

end RemoteUpdate
