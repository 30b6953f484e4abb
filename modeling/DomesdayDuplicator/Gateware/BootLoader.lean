import DomesdayDuplicator.Foundations.ByteLanes
import DomesdayDuplicator.Gateware.Crc32
import DomesdayDuplicator.Gateware.FlashBridge

/-!
# The boot loader

`bootLoader.v`, clock by clock: the boot block is read and checked, then the image
it describes, and the device is handed over or left where it is. The checksum
register is the instance inside the module.
-/

namespace BootLoader

open ByteLanes
open FlashBridge (Byte Window)

def bootBlockAddress : BitVec 24 := 0x100000
def bootBlockMagic : BitVec 32 := 0x44444242
def supportedLayoutVersion : BitVec 16 := 1
def bootBlockBytes : BitVec 5 := 24
def headerCrcBytes : BitVec 5 := 20
def commandRead : Byte := 0x03
def bridgeUnlock : BitVec 2 := 0
def bridgeControl : BitVec 2 := 1
def bridgeData : BitVec 2 := 2
def unlockSequence : BitVec 32 := 0x444455AA
def settleClocks : BitVec 8 := 200

inductive State where
  | settle | unlock | selectHeader | headerCommand | headerData | headerSettle | headerCheck
  | selectImage | imageCommand | imageData | imageSettle | imageCheck | relock | arm
  | handOver | recovery
  deriving DecidableEq, Repr

/-- The boot block's fields, filled as the bytes arrive. -/
structure Header where
  magic : BitVec 32
  layoutVersion : BitVec 16
  applicationAddress : BitVec 32
  applicationLength : BitVec 32
  applicationCrc : BitVec 32
  headerCrc : BitVec 32
  deriving DecidableEq, Repr

structure Registers where
  state : State
  settleCount : BitVec 8
  byteIndex : BitVec 5
  byteCount : BitVec 32
  window : Window
  shiftStarted : Bool
  header : Header
  imageValid : Bool
  crcRestart : Bool
  crcValid : Bool
  crcData : Byte
  readAddress : BitVec 24
  crc : BitVec 32
  deriving DecidableEq, Repr

def reset : Registers :=
  { state := .settle, settleCount := 0, byteIndex := 0, byteCount := 0
    window := ⟨false, 0, 0⟩, shiftStarted := false, header := ⟨0, 0, 0, 0, 0, 0⟩
    imageValid := false, crcRestart := false, crcValid := false, crcData := 0
    readAddress := 0, crc := Crc32.initialValue }

def armRequest (l : Registers) : Bool := l.state == .arm
def reconfigureRequest (l : Registers) : Bool := l.state == .handOver
def bootAddress (l : Registers) : BitVec 24 := l.header.applicationAddress.setWidth 24
def bootActive (l : Registers) : Bool := l.state != .recovery && l.state != .handOver

def headerValid (h : Header) (crcValue : BitVec 32) : Bool :=
  h.magic == bootBlockMagic && h.layoutVersion == supportedLayoutVersion &&
    h.applicationLength != 0 && h.applicationAddress.extractLsb' 23 9 == 0 &&
    decide (h.applicationAddress + h.applicationLength ≤ 0x00800000#32) &&
    h.headerCrc == crcValue

/-- The fields after byte `index` of the block; bytes 6 and 7 are the reserved field. -/
def Header.capture (index : BitVec 5) (b : Byte) (h : Header) : Header :=
  match index.toNat with
  | 0 => { h with magic := setLane h.magic 3 b }
  | 1 => { h with magic := setLane h.magic 2 b }
  | 2 => { h with magic := setLane h.magic 1 b }
  | 3 => { h with magic := setLane h.magic 0 b }
  | 4 => { h with layoutVersion := setLane h.layoutVersion 0 b }
  | 5 => { h with layoutVersion := setLane h.layoutVersion 1 b }
  | 8 => { h with applicationAddress := setLane h.applicationAddress 0 b }
  | 9 => { h with applicationAddress := setLane h.applicationAddress 1 b }
  | 10 => { h with applicationAddress := setLane h.applicationAddress 2 b }
  | 11 => { h with applicationAddress := setLane h.applicationAddress 3 b }
  | 12 => { h with applicationLength := setLane h.applicationLength 0 b }
  | 13 => { h with applicationLength := setLane h.applicationLength 1 b }
  | 14 => { h with applicationLength := setLane h.applicationLength 2 b }
  | 15 => { h with applicationLength := setLane h.applicationLength 3 b }
  | 16 => { h with applicationCrc := setLane h.applicationCrc 0 b }
  | 17 => { h with applicationCrc := setLane h.applicationCrc 1 b }
  | 18 => { h with applicationCrc := setLane h.applicationCrc 2 b }
  | 19 => { h with applicationCrc := setLane h.applicationCrc 3 b }
  | 20 => { h with headerCrc := setLane h.headerCrc 0 b }
  | 21 => { h with headerCrc := setLane h.headerCrc 1 b }
  | 22 => { h with headerCrc := setLane h.headerCrc 2 b }
  | 23 => { h with headerCrc := setLane h.headerCrc 3 b }
  | _ => h

/-- The byte a command state writes: the read command, then its address. -/
def commandByte (index : BitVec 5) (address : BitVec 24) : Byte :=
  if index = 0 then commandRead
  else if index = 1 then lane address 2
  else if index = 2 then lane address 1
  else lane address 0

def unlockByte (index : BitVec 5) : Byte :=
  if index = 0 then lane unlockSequence 3
  else if index = 1 then lane unlockSequence 2
  else if index = 2 then lane unlockSequence 1
  else lane unlockSequence 0

/-- What every clock does before the state is looked at: the pulses fall, and a
byte handed over is in flight once the bridge is busy with it. -/
def settled (bridgeBusy : Bool) (l : Registers) : Registers :=
  { l with
    window := { l.window with write := false }, crcRestart := false, crcValid := false
    shiftStarted := l.shiftStarted && !bridgeBusy
    crc := Crc32.clock l.crcRestart l.crcValid l.crcData l.crc }

/-- The command states hand over one byte of the read command and move on to `next`. -/
def command (next : State) (s : Registers) : Registers :=
  let s := { s with
    window := ⟨true, bridgeData, commandByte s.byteIndex s.readAddress⟩, shiftStarted := true }
  if s.byteIndex = 3 then { s with byteIndex := 0, state := next }
  else { s with byteIndex := s.byteIndex + 1 }

def headerByte (bridgeDataRead : Byte) (s : Registers) : Registers :=
  let s :=
    if s.byteIndex ≠ 0 then
      { s with
        crcValid := decide (s.byteIndex ≤ headerCrcBytes)
        crcData := if s.byteIndex ≤ headerCrcBytes then bridgeDataRead else s.crcData
        header := s.header.capture (s.byteIndex - 1) bridgeDataRead }
    else s
  if s.byteIndex = bootBlockBytes then
    { s with window := ⟨true, bridgeControl, 0x00⟩, state := .headerSettle }
  else
    { s with
      window := ⟨true, bridgeData, 0xFF⟩, shiftStarted := true, byteIndex := s.byteIndex + 1 }

def imageByte (bridgeDataRead : Byte) (s : Registers) : Registers :=
  let s :=
    if s.byteCount ≠ 0 then { s with crcValid := true, crcData := bridgeDataRead } else s
  if s.byteCount = s.header.applicationLength then
    { s with window := ⟨true, bridgeControl, 0x00⟩, state := .imageSettle }
  else
    { s with
      window := ⟨true, bridgeData, 0xFF⟩, shiftStarted := true, byteCount := s.byteCount + 1 }

/-- One edge of the clock. -/
def clock (bridgeDataRead : Byte) (bridgeBusy reconfigurationArmed : Bool) (l : Registers) :
    Registers :=
  let bridgeIdle := !bridgeBusy && !l.shiftStarted
  let s := settled bridgeBusy l
  match l.state with
  | .settle =>
    if l.settleCount = settleClocks then { s with state := .unlock }
    else { s with settleCount := l.settleCount + 1 }
  | .unlock =>
    let s := { s with window := ⟨true, bridgeUnlock, unlockByte l.byteIndex⟩ }
    if l.byteIndex = 3 then { s with byteIndex := 0, state := .selectHeader }
    else { s with byteIndex := l.byteIndex + 1 }
  | .selectHeader =>
    { s with
      window := ⟨true, bridgeControl, 0x01⟩, readAddress := bootBlockAddress
      crcRestart := true, byteIndex := 0, state := .headerCommand }
  | .headerCommand => if bridgeIdle then command .headerData s else s
  | .headerData => if bridgeIdle then headerByte bridgeDataRead s else s
  | .headerSettle => { s with state := .headerCheck }
  | .headerCheck =>
    { s with state := if headerValid l.header (Crc32.crc l.crc) then .selectImage else .recovery }
  | .selectImage =>
    { s with
      window := ⟨true, bridgeControl, 0x01⟩, readAddress := l.header.applicationAddress.setWidth 24
      crcRestart := true, byteIndex := 0, byteCount := 0, state := .imageCommand }
  | .imageCommand => if bridgeIdle then command .imageData s else s
  | .imageData => if bridgeIdle then imageByte bridgeDataRead s else s
  | .imageSettle => { s with state := .imageCheck }
  | .imageCheck =>
    { s with imageValid := l.header.applicationCrc == Crc32.crc l.crc, state := .relock }
  | .relock =>
    { s with
      window := ⟨true, bridgeUnlock, 0x00⟩
      state := if l.imageValid then .arm else .recovery }
  | .arm => if reconfigurationArmed then { s with state := .handOver } else s
  | .handOver => s
  | .recovery => s

end BootLoader
