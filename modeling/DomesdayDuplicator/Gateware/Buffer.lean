import DomesdayDuplicator.Gateware.Fifo

/-!
# The capture buffer

`buffer.v`: the FIFO between the sampling side and the FX3, the flag that says a
whole packet can be read, and the stretched overflow flag. The back-pressure
instrument beside them only reads these signals and is not part of this module.
-/

namespace Buffer

def packetWords : Nat := 8192
def fifoDepth : Nat := 16384

abbrev Sample := BitVec 16

def packetThreshold : BitVec (Fifo.countBits fifoDepth) := BitVec.ofNat _ packetWords
def packetCount : BitVec 14 := 8192
def errorHoldCycles : BitVec 12 := 2000

structure Registers where
  fifo : Fifo.Registers 16 fifoDepth
  dataAvailable : Bool
  packetRemaining : BitVec 14
  bufferError : Bool
  errorHold : BitVec 12

structure Inputs where
  resetN : Bool
  writeEnable : Bool
  dataIn : Sample
  isReading : Bool

def cleared (r : Registers) : Registers :=
  { fifo := Fifo.cleared r.fifo, dataAvailable := false, packetRemaining := 0
    bufferError := false, errorHold := 0 }

/-- The registers an edge meets: a reset is in force before it. -/
def present (resetN : Bool) (r : Registers) : Registers := if resetN then r else cleared r

def dataOut (r : Registers) : Sample := Fifo.dataOut r.fifo

def overflow (i : Inputs) (r : Registers) : Bool := i.writeEnable && Fifo.full r.fifo

def fifoInputs (i : Inputs) : Fifo.Inputs 16 where
  resetN := i.resetN
  writeRequest := i.writeEnable
  dataIn := i.dataIn
  readRequest := i.isReading

/-- The flag and the countdown of the packet it was raised for. -/
def availability (isReading : Bool) (r : Registers) : Bool × BitVec 14 :=
  if !r.dataAvailable then
    if packetThreshold ≤ Fifo.usedWords r.fifo then (true, packetCount)
    else (r.dataAvailable, r.packetRemaining)
  else if isReading then
    if r.packetRemaining = 1 then (false, 0) else (r.dataAvailable, r.packetRemaining - 1)
  else (r.dataAvailable, r.packetRemaining)

/-- The overflow flag and the clocks it has been held for. -/
def errorFlag (overflow : Bool) (r : Registers) : Bool × BitVec 12 :=
  if overflow then (true, 0)
  else if r.bufferError then
    if errorHoldCycles ≤ r.errorHold then (false, 0) else (r.bufferError, r.errorHold + 1)
  else (r.bufferError, r.errorHold)

/-- One edge of the clock. -/
def clock (i : Inputs) (r : Registers) : Registers :=
  if i.resetN then
    { fifo := Fifo.clock (fifoInputs i) r.fifo
      dataAvailable := (availability i.isReading r).1
      packetRemaining := (availability i.isReading r).2
      bufferError := (errorFlag (overflow i r) r).1
      errorHold := (errorFlag (overflow i r) r).2 }
  else cleared { r with fifo := Fifo.clock (fifoInputs i) r.fifo }

theorem threshold_le_iff (used : BitVec (Fifo.countBits fifoDepth)) :
    packetThreshold ≤ used ↔ packetWords ≤ used.toNat := by
  have wide := Fifo.depth_lt_counts fifoDepth
  have : packetThreshold.toNat = packetWords := by
    simp only [packetThreshold, BitVec.toNat_ofNat]
    exact Nat.mod_eq_of_lt (Nat.lt_trans (by decide) wide)
  rw [BitVec.le_def, this]

/-! ## The overflow flag -/

/-- The flag is up and has not been held for longer than `held` clocks. -/
def Raised (held : Nat) (r : Registers) : Prop :=
  r.bufferError = true ∧ r.errorHold.toNat ≤ held

theorem raised_of_overflow {i : Inputs} {r : Registers} (released : i.resetN = true)
    (lost : overflow i r = true) : Raised 0 (clock i r) := by
  simp [clock, released, lost, errorFlag, Raised]

/-- One clock more; another overflow only starts the hold again. -/
theorem Raised.next {held : Nat} {i : Inputs} {r : Registers} (h : Raised held r)
    (released : i.resetN = true) (short : held < 2000) : Raised (held + 1) (clock i r) := by
  obtain ⟨up, count⟩ := h
  cases lost : overflow i r with
  | true =>
    obtain ⟨up', start⟩ := raised_of_overflow released lost
    exact ⟨up', by omega⟩
  | false =>
    have holding : ¬ errorHoldCycles ≤ r.errorHold := by
      rw [BitVec.le_def]
      simp [errorHoldCycles]
      omega
    have more : (r.errorHold + 1).toNat = r.errorHold.toNat + 1 := by
      rw [BitVec.toNat_add]
      exact Nat.mod_eq_of_lt (by simp; omega)
    constructor
    · simp [clock, released, lost, errorFlag, up, holding]
    · simp only [clock, released, lost, errorFlag, up, holding, if_true, if_false,
        Bool.false_eq_true, more]
      omega

end Buffer
