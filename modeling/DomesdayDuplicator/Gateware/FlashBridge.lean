import Mathlib.Data.BitVec

/-!
# The flash bridge

`flashBridge.v`, clock by clock: the unlock matcher, the chip select and the byte
shifter behind the three registers of the window, and the pins they drive through
`asmiBlock.v`.
-/

namespace FlashBridge

abbrev Byte := BitVec 8

/-- One clock of the register window. -/
structure Window where
  write : Bool
  address : BitVec 2
  writeData : Byte
  deriving DecidableEq, Repr

def addressUnlock : BitVec 2 := 0
def addressControl : BitVec 2 := 1
def addressData : BitVec 2 := 2

def unlockByte0 : Byte := 0x44
def unlockByte1 : Byte := 0x44
def unlockByte2 : Byte := 0x55
def unlockByte3 : Byte := 0xAA

def halfPeriod : BitVec 2 := 3

structure Registers where
  unlockProgress : BitVec 2
  unlocked : Bool
  chipSelectAsserted : Bool
  phaseCount : BitVec 2
  flashClockLevel : Bool
  bitsRemaining : BitVec 4
  shiftOut : Byte
  shiftIn : Byte
  receivedByte : Byte
  busy : Bool
  deriving DecidableEq, Repr

def reset : Registers := ⟨0, false, false, 0, false, 0, 0, 0, 0, false⟩

def Window.writeUnlock (w : Window) : Bool := w.write && w.address == addressUnlock
def Window.writeControl (w : Window) : Bool := w.write && w.address == addressControl
def Window.writeDataRegister (w : Window) : Bool := w.write && w.address == addressData

def startShift (w : Window) (r : Registers) : Bool :=
  w.writeDataRegister && r.unlocked && r.chipSelectAsserted && !r.busy

/-- The next step of the matcher on a write to the unlock register. -/
def matched (progress : BitVec 2) (data : Byte) : BitVec 2 :=
  if progress = 0 then if data = unlockByte0 then 1 else 0
  else if progress = 1 then if data = unlockByte1 then 2 else 0
  else if progress = 2 then if data = unlockByte2 then 3 else 0
  else 0

/-- The byte shifter's half of the clock. -/
def shift (w : Window) (flashDataIn : Bool) (r : Registers) : Registers :=
  if startShift w r then
    { r with
      shiftOut := w.writeData, shiftIn := 0, bitsRemaining := 8, phaseCount := 0,
      flashClockLevel := false, busy := true }
  else if r.busy then
    if r.phaseCount = halfPeriod then
      if !r.flashClockLevel then
        { r with phaseCount := 0, flashClockLevel := true,
                 shiftIn := r.shiftIn.shiftConcat flashDataIn }
      else
        { r with
          phaseCount := 0, flashClockLevel := false,
          shiftOut := r.shiftOut.shiftConcat false,
          bitsRemaining := r.bitsRemaining - 1,
          busy := !(r.bitsRemaining == 1),
          receivedByte := if r.bitsRemaining = 1 then r.shiftIn else r.receivedByte }
    else { r with phaseCount := r.phaseCount + 1 }
  else r

/-- One edge of the clock. The lock and the chip select are decided on the
registers as they were, like the shifter. -/
def clock (w : Window) (flashDataIn : Bool) (r : Registers) : Registers :=
  { shift w flashDataIn r with
    unlockProgress :=
      if w.writeUnlock then matched r.unlockProgress w.writeData else r.unlockProgress
    unlocked :=
      if w.writeUnlock then r.unlockProgress == 3 && w.writeData == unlockByte3
      else r.unlocked
    chipSelectAsserted :=
      if w.writeControl && r.unlocked then w.writeData.getLsbD 0
      else if w.writeUnlock then false
      else r.chipSelectAsserted }

def unlockRead (r : Registers) : Byte := 0#7 ++ BitVec.ofBool r.unlocked
def controlRead (r : Registers) : Byte :=
  0#6 ++ BitVec.ofBool r.busy ++ BitVec.ofBool r.chipSelectAsserted
def dataRead (r : Registers) : Byte := r.receivedByte

/-- The pins of the configuration flash. -/
structure Pins where
  dclk : Bool
  chipSelectN : Bool
  dataIn : Bool
  deriving DecidableEq, Repr

/-- What the flash is shown: the block lets the pins go while the bridge is locked. -/
def pins (r : Registers) : Pins :=
  if r.unlocked then ⟨r.flashClockLevel, !r.chipSelectAsserted, r.shiftOut.msb⟩
  else ⟨false, true, false⟩

/-! ## What a clock does -/

/-- No write this clock. -/
def Window.Silent (w : Window) : Prop := w.write = false

theorem clock_silent {w : Window} (h : w.Silent) (flashDataIn : Bool) (r : Registers) :
    clock w flashDataIn r = shift w flashDataIn r := by
  have silent : w.write = false := h
  have unlock : w.writeUnlock = false := by simp [Window.writeUnlock, silent]
  have control : w.writeControl = false := by simp [Window.writeControl, silent]
  have start : startShift w r = false := by
    simp [startShift, Window.writeDataRegister, silent]
  unfold clock
  rw [unlock, control]
  unfold shift
  rw [start]
  cases r
  simp only [Bool.false_eq_true, if_false, Bool.false_and]
  split_ifs <;> rfl

end FlashBridge
