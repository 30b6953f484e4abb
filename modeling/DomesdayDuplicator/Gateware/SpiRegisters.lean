import DomesdayDuplicator.Foundations.InputFilter
import DomesdayDuplicator.Foundations.SerialBits

/-!
# The SPI register bank

`spiRegisters.v`: the synchronisers and the input filter, the shift register, and the registers
it reaches. The window and the telemetry come in from outside the module.
-/

namespace SpiRegisters

open InputFilter
open SerialBits (Byte)

abbrev Address := BitVec 7

structure Parameters where
  commitText : BitVec 64
  buildFlags : Byte
  imageRole : Byte
  telemetryPresent : Bool
  decimationPresent : Bool

def mapVersion : Byte := 0x02
def bridgeDataAddress : Address := 0x22
def telemetryIdAddress : Address := 0x40
def telemetryIdValue : Byte := 0xBD
def everySample : Byte := 0x01
def everySecondSample : Byte := 0x02

structure Pins where
  spiClock : Bool
  spiMosi : Bool
  spiChipSelectN : Bool
  deriving DecidableEq

/-- What the module is given to answer reads with. -/
structure Surroundings where
  windowReadData : BitVec 32
  diagnostics : BitVec 64
  telemetry : BitVec 128
  telemetryGeometry : BitVec 48

structure Bank where
  testMode : Byte
  decimation : Byte
  led : Byte
  deriving DecidableEq, Repr

def Bank.reset : Bank := ⟨0x00, everySample, 0x01⟩

def lane {w : Nat} (word : BitVec w) (k : Nat) : Byte := word.extractLsb' (8 * k) 8

def readRegister (p : Parameters) (around : Surroundings) (bank : Bank) (a : Address) : Byte :=
  let place := a.toNat
  if place = 0x00 then 0x44
  else if place = 0x01 then mapVersion
  else if place = 0x02 then p.buildFlags
  -- the first character is the most significant byte
  else if 0x03 ≤ place ∧ place ≤ 0x0A then lane p.commitText (0x0A - place)
  else if place = 0x0B then p.imageRole
  else if place = 0x10 then bank.testMode
  else if place = 0x11 then bank.led
  else if place = 0x12 then if p.decimationPresent then bank.decimation else 0x00
  else if 0x20 ≤ place ∧ place ≤ 0x23 then lane around.windowReadData (place - 0x20)
  else if 0x30 ≤ place ∧ place ≤ 0x37 then lane around.diagnostics (place - 0x30)
  else if place = 0x40 then if p.telemetryPresent then telemetryIdValue else 0x00
  else if 0x41 ≤ place ∧ place ≤ 0x50 then
    if p.telemetryPresent then lane around.telemetry (place - 0x41) else 0x00
  else if 0x51 ≤ place ∧ place ≤ 0x56 then
    if p.telemetryPresent then lane around.telemetryGeometry (place - 0x51) else 0x00
  else 0x00

def addressNext (a : Address) : Address := if a = bridgeDataAddress then a else a + 1

def addressInWindow (a : Address) : Bool := a.extractLsb' 2 5 == 0b01000#5

structure Transfer where
  shiftIn : BitVec 7
  shiftOut : Byte
  bitCount : BitVec 3
  commandReceived : Bool
  readTransfer : Bool
  address : Address
  misoOut : Bool
  bank : Bank
  windowWritePulse : Bool
  windowWriteAddress : BitVec 2
  windowWriteByte : Byte
  dataByteComplete : Bool
  telemetryLatchPulse : Bool

def Transfer.reset : Transfer :=
  ⟨0, 0, 0, false, false, 0, false, Bank.reset, false, 0, 0, false, false⟩

/-- Chip select is deasserted. -/
def Transfer.release (t : Transfer) : Transfer :=
  { t with shiftIn := 0, shiftOut := 0, bitCount := 0, commandReceived := false,
           misoOut := false, windowWritePulse := false, dataByteComplete := false,
           telemetryLatchPulse := false }

def Transfer.lower (t : Transfer) : Transfer :=
  { t with windowWritePulse := false, dataByteComplete := false, telemetryLatchPulse := false }

def shiftInNext (mosi : Bool) (t : Transfer) : Byte :=
  (t.shiftIn ++ BitVec.ofBool mosi).cast rfl

/-- The first byte of a transfer. -/
def takeCommand (p : Parameters) (around : Surroundings) (byte : Byte) (t : Transfer) :
    Transfer :=
  let address : Address := byte.setWidth 7
  { t with
    commandReceived := true
    readTransfer := byte.msb
    address := address
    shiftOut := if byte.msb then readRegister p around t.bank address else 0x00
    telemetryLatchPulse := p.telemetryPresent && byte.msb && address == telemetryIdAddress }

def writeRegister (p : Parameters) (byte : Byte) (t : Transfer) : Transfer :=
  if t.address = 0x10 then { t with bank := { t.bank with testMode := byte } }
  else if t.address = 0x11 then { t with bank := { t.bank with led := byte } }
  else if t.address = 0x12 then
    if p.decimationPresent then
      { t with bank := { t.bank with
          decimation := if byte = everySecondSample then everySecondSample else everySample } }
    else t
  else if addressInWindow t.address then
    { t with windowWritePulse := true, windowWriteAddress := t.address.setWidth 2,
             windowWriteByte := byte }
  else t

/-- A byte of data. The register it reads next is read as it stood before this edge. -/
def takeData (p : Parameters) (around : Surroundings) (byte : Byte) (t : Transfer) : Transfer :=
  let next := addressNext t.address
  let written := if t.readTransfer then t else writeRegister p byte t
  { written with
    dataByteComplete := true
    address := next
    shiftOut := if t.readTransfer then readRegister p around t.bank next else 0x00 }

/-- The rising edge of the SPI clock. -/
def takeBit (p : Parameters) (around : Surroundings) (mosi : Bool) (t : Transfer) : Transfer :=
  let byte := shiftInNext mosi t
  let shifted := { t with shiftIn := byte.setWidth 7, bitCount := t.bitCount + 1 }
  if t.bitCount = 7 then
    if t.commandReceived then takeData p around byte shifted
    else takeCommand p around byte shifted
  else shifted

/-- The falling edge. -/
def putBit (t : Transfer) : Transfer :=
  { t with misoOut := t.shiftOut.msb, shiftOut := t.shiftOut.shiftConcat false }

structure Registers where
  spiClock : Channel
  spiChipSelectN : Channel
  spiMosiSync0 : Bool
  spiMosiSync1 : Bool
  spiClockLevelPrevious : Bool
  transfer : Transfer

def reset : Registers :=
  ⟨Channel.reset false, Channel.reset true, false, false, false, Transfer.reset⟩

def spiClockRising (r : Registers) : Bool := r.spiClock.level && !r.spiClockLevelPrevious
def spiClockFalling (r : Registers) : Bool := !r.spiClock.level && r.spiClockLevelPrevious

def clockTransfer (p : Parameters) (around : Surroundings) (r : Registers) : Transfer :=
  if r.spiChipSelectN.level then r.transfer.release
  else
    let lowered := r.transfer.lower
    if spiClockRising r then takeBit p around r.spiMosiSync1 lowered
    else if spiClockFalling r then putBit lowered
    else lowered

structure Inputs where
  pins : Pins
  around : Surroundings

/-- One edge of the clock. -/
def clock (p : Parameters) (i : Inputs) (r : Registers) : Registers where
  spiClock := r.spiClock.clock i.pins.spiClock
  spiChipSelectN := r.spiChipSelectN.clock i.pins.spiChipSelectN
  spiMosiSync0 := i.pins.spiMosi
  spiMosiSync1 := r.spiMosiSync0
  spiClockLevelPrevious := r.spiClock.level
  transfer := clockTransfer p i.around r

def spiMiso (r : Registers) : Bool := r.transfer.misoOut
def testMode (r : Registers) : Bool := r.transfer.bank.testMode != 0x00

end SpiRegisters
