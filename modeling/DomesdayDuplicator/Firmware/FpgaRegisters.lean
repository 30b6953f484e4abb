import DomesdayDuplicator.Gateware.SpiTransfer

/-!
# The firmware's side of the register link

`fpga-registers.c`: the SPI port driven by hand, one pin at a time, against the port itself. The
two run on clocks of their own, so every statement may take any time; only a busy wait has a
least one.
-/

namespace FpgaRegisters

open SpiRegisters SpiTransfer SerialBits

/-- How many clocks of the gateware the firmware's statements take. -/
structure Pace where
  edge : Nat → Nat
  wait : Nat → Nat
  settles : ∀ n, 6 ≤ wait n

structure Board where
  pins : Pins
  statements : Nat
  time : Nat
  port : Registers
  /-- What has left the port by the window, and when. -/
  window : List (Nat × BitVec 2 × Byte)
  latches : List Nat

def registerAddressMax : Byte := 0x7F

/-- What the port is given to answer with: it may depend on the time and on all that has left the
port so far, and so on anything the port is connected to. -/
abbrev Around := Nat → List (Nat × BitVec 2 × Byte) → List Nat → Surroundings

section

variable (p : Parameters) (around : Around) (pace : Pace)

def seen (b : Board) : Surroundings := around b.time b.window b.latches

def tick (b : Board) : Board :=
  let port := clock p ⟨b.pins, seen around b⟩ b.port
  { b with
    time := b.time + 1
    port := port
    window := b.window ++ (windowOf port.transfer).toList.map fun w => (b.time + 1, w)
    latches := b.latches ++ if port.transfer.telemetryLatchPulse then [b.time + 1] else [] }

def clocks : Nat → Board → Board
  | 0, b => b
  | n + 1, b => clocks n (tick p around b)

/-- `CyU3PGpioSimpleSetValue`. -/
def setValue (pins : Pins) (b : Board) : Board :=
  clocks p around (pace.edge b.statements)
    { b with pins := pins, statements := b.statements + 1 }

/-- `CyU3PBusyWait`. -/
def busyWait (b : Board) : Board :=
  clocks p around (pace.wait b.statements) { b with statements := b.statements + 1 }

def transferBit (send : Byte) (bit : Nat) (s : Byte × Board) : Byte × Board :=
  let b := setValue p around pace { s.2.pins with spiMosi := send.getLsbD bit } s.2
  let b := busyWait p around pace b
  let b := setValue p around pace { b.pins with spiClock := true } b
  let received := if spiMiso b.port then s.1 ||| (1#8 <<< bit) else s.1
  let b := busyWait p around pace b
  (received, setValue p around pace { b.pins with spiClock := false } b)

/-- The bits below the `n`-th, from the top down. -/
def transferBits (send : Byte) : Nat → Byte × Board → Byte × Board
  | 0, s => s
  | bit + 1, s => transferBits send bit (transferBit p around pace send bit s)

def transferByte (send : Byte) (b : Board) : Byte × Board :=
  transferBits p around pace send 8 (0, b)

def selectFpga (b : Board) : Board :=
  busyWait p around pace (setValue p around pace { b.pins with spiChipSelectN := false } b)

def deselectFpga (b : Board) : Board :=
  let b := busyWait p around pace b
  busyWait p around pace (setValue p around pace { b.pins with spiChipSelectN := true } b)

/-- Chip select first, so that the clock line moves while the port is not listening. -/
def fpgaRegistersInitialise (b : Board) : Board :=
  let b := setValue p around pace { b.pins with spiChipSelectN := true } b
  let b := setValue p around pace { b.pins with spiClock := false } b
  setValue p around pace { b.pins with spiMosi := false } b

def readBytes : Nat → Board → List Byte × Board
  | 0, b => ([], b)
  | n + 1, b =>
    let first := transferByte p around pace 0x00 b
    let rest := readBytes n first.2
    (first.1 :: rest.1, rest.2)

def writeBytes (data : List Byte) (b : Board) : Board :=
  data.foldl (fun b byte => (transferByte p around pace byte b).2) b

/-- The lock is one that was made before and is free. -/
def fpgaRegistersRead (lockReady : Bool) (address length : Byte) (b : Board) :
    Option (List Byte) × Board :=
  if length = 0 ∨ registerAddressMax < address ∨ lockReady = false then (none, b)
  else
    let b := selectFpga p around pace b
    let b := (transferByte p around pace (0x80 ||| address) b).2
    let (received, b) := readBytes p around pace length.toNat b
    (some received, deselectFpga p around pace b)

def fpgaRegistersWrite (lockReady : Bool) (address value : Byte) (b : Board) : Bool × Board :=
  if registerAddressMax < address ∨ lockReady = false then (false, b)
  else
    let b := selectFpga p around pace b
    let b := (transferByte p around pace address b).2
    let b := (transferByte p around pace value b).2
    (true, deselectFpga p around pace b)

def fpgaRegistersWriteBurst (lockReady : Bool) (address : Byte) (data : List Byte) (b : Board) :
    Bool × Board :=
  if data = [] ∨ registerAddressMax < address ∨ lockReady = false then (false, b)
  else
    let b := selectFpga p around pace b
    let b := (transferByte p around pace address b).2
    let b := writeBytes p around pace data b
    (true, deselectFpga p around pace b)

/-- What the firmware asks of the link. -/
inductive Request where
  | read (address length : Byte)
  | write (address value : Byte)
  | writeBurst (address : Byte) (data : List Byte)

inductive Reply where
  | bytes (received : Option (List Byte))
  | done (ok : Bool)

def perform (lockReady : Bool) : Request → Board → Reply × Board
  | .read address length, b =>
    let r := fpgaRegistersRead p around pace lockReady address length b
    (.bytes r.1, r.2)
  | .write address value, b =>
    let r := fpgaRegistersWrite p around pace lockReady address value b
    (.done r.1, r.2)
  | .writeBurst address data, b =>
    let r := fpgaRegistersWriteBurst p around pace lockReady address data b
    (.done r.1, r.2)

def performAll (lockReady : Bool) : List Request → Board → List Reply × Board
  | [], b => ([], b)
  | request :: rest, b =>
    let first := perform p around pace lockReady request b
    let others := performAll lockReady rest first.2
    (first.1 :: others.1, others.2)

end

end FpgaRegisters
