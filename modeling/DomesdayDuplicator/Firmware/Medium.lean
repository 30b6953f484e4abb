import DomesdayDuplicator.Foundations.PagedMemory
import DomesdayDuplicator.Firmware.UpdateProtocol

/-!
# The two flash memories behind the agent

The boot EEPROM over I2C and the EPCS through the gateware's bridge, with the
page accesses of `update-agent.c` that retry. Which operation fails, and what a
failed write leaves in the unit it was aimed at, is the environment's choice:
`Faults` gives the outcome of the n-th operation. Reads that succeed are
truthful. Each memory keeps the log of what was asked of it.
-/

namespace Medium

open UpdateProtocol PagedMemory

inductive EepromCommand where
  | write (address : Nat) (data : List Byte)
  | read (address : Nat) (returned : List Byte)
  | readFailed (address : Nat)
  deriving DecidableEq

/-- `none` is success; `some leaves` is a failure and what the cells hold after it. -/
abbrev Faults := Nat → Option Memory

structure Media where
  eeprom : Memory
  epcs : Memory
  operations : Nat
  eepromLog : List EepromCommand
  epcsLog : List Command

structure Preamble where
  slave : Nat
  offset : Nat

/-- `updateEepromPreamble`: the slave of the bank and the address within it. -/
def updateEepromPreamble (address : Nat) : Preamble :=
  ⟨updateEepromSlaveAddress address, updateEepromSlaveOffset address⟩

/-- The cell of the four-slave EEPROM a preamble addresses. -/
def Preamble.cell (p : Preamble) : Nat :=
  (p.slave - updateEepromSlaveBase) / 2 * updateEepromSlaveSize + p.offset

section Eeprom

variable (faults : Faults)

/-- `CyU3PI2cTransmitBytes`: one page write on the bus. -/
def i2cTransmitBytes (preamble : Preamble) (data : List Byte) (m : Media) : Media × Bool :=
  let sent := { m with
    operations := m.operations + 1
    eepromLog := m.eepromLog ++ [EepromCommand.write preamble.cell data] }
  match faults m.operations with
  | none =>
    ({ sent with eeprom := overwrite updateEepromPageSize m.eeprom preamble.cell data }, true)
  | some leaves =>
    ({ sent with eeprom := scramble updateEepromPageSize m.eeprom preamble.cell leaves }, false)

/-- `CyU3PI2cReceiveBytes`. -/
def i2cReceiveBytes (preamble : Preamble) (length : Nat) (m : Media) :
    Media × Option (List Byte) :=
  let received := { m with operations := m.operations + 1 }
  let data := read m.eeprom preamble.cell length
  match faults m.operations with
  | none => ({ received with eepromLog := m.eepromLog ++ [EepromCommand.read preamble.cell data] }, some data)
  | some _ => ({ received with eepromLog := m.eepromLog ++ [EepromCommand.readFailed preamble.cell] }, none)

/-- `updateEepromWaitReady`: `CyU3PI2cWaitForAck` changes nothing on the medium. -/
def updateEepromWaitReady (m : Media) : Media × Bool :=
  ({ m with operations := m.operations + 1 }, (faults m.operations).isNone)

def updateI2cAttempts : Nat := 4

/-- The attempt loop of `updateEepromWritePage`, `left` attempts before it gives up. -/
def writePageAttempts (address : Nat) (data : List Byte) : Nat → Media → Media × Bool
  | 0, m => (m, false)
  | left + 1, m =>
    -- a retry settles first and ignores what the wait says
    let m := if left + 1 = updateI2cAttempts then m else (updateEepromWaitReady faults m).1
    let sent := i2cTransmitBytes faults (updateEepromPreamble address) data m
    if sent.2 then
      let ready := updateEepromWaitReady faults sent.1
      if ready.2 then (ready.1, true) else writePageAttempts address data left ready.1
    else writePageAttempts address data left sent.1

def updateEepromWritePage (address : Nat) (data : List Byte) (m : Media) : Media × Bool :=
  writePageAttempts faults address data updateI2cAttempts m

def readAttempts (address length : Nat) : Nat → Media → Media × Option (List Byte)
  | 0, m => (m, none)
  | left + 1, m =>
    let received := i2cReceiveBytes faults (updateEepromPreamble address) length m
    match received.2 with
    | some data => (received.1, some data)
    | none => readAttempts address length left received.1

def updateEepromRead (address length : Nat) (m : Media) : Media × Option (List Byte) :=
  readAttempts faults address length updateI2cAttempts m

end Eeprom

section Epcs

variable (faults : Faults)

def epcsFlashEraseSector (address : Nat) (m : Media) : Media × Bool :=
  let base := updateEpcsSectorBase address
  let asked := { m with operations := m.operations + 1 }
  match faults m.operations with
  | none =>
    ({ asked with
        epcs := erase updateEpcsSectorSize m.epcs base
        epcsLog := m.epcsLog ++ [Command.erase base true] }, true)
  | some leaves =>
    ({ asked with
        epcs := scramble updateEpcsSectorSize m.epcs base leaves
        epcsLog := m.epcsLog ++ [Command.erase base false] }, false)

def epcsFlashProgramPage (address : Nat) (data : List Byte) (m : Media) : Media × Bool :=
  if data.length = 0 ∨ data.length > updateEpcsPageSize then (m, false)
  else
    let asked := { m with operations := m.operations + 1 }
    match faults m.operations with
    | none =>
      ({ asked with
          epcs := program updateEpcsPageSize m.epcs address data
          epcsLog := m.epcsLog ++ [Command.program address data true] }, true)
    | some leaves =>
      ({ asked with
          epcs := scramble updateEpcsPageSize m.epcs address leaves
          epcsLog := m.epcsLog ++ [Command.program address data false] }, false)

def epcsFlashRead (address length : Nat) (m : Media) : Media × Option (List Byte) :=
  if length = 0 then (m, none)
  else
    let asked := { m with operations := m.operations + 1 }
    match faults m.operations with
    | none => (asked, some (read m.epcs address length))
    | some _ => (asked, none)

end Epcs

/-! ## What each operation changes -/

section Frame

variable (faults : Faults)

theorem epcsFlashEraseSector_spec (address : Nat) (m : Media) :
    ∃ leaves, (epcsFlashEraseSector faults address m).1.epcs =
        (if (epcsFlashEraseSector faults address m).2 then
          erase updateEpcsSectorSize m.epcs (updateEpcsSectorBase address)
        else scramble updateEpcsSectorSize m.epcs (updateEpcsSectorBase address) leaves) ∧
      (epcsFlashEraseSector faults address m).1.epcsLog = m.epcsLog ++
        [.erase (updateEpcsSectorBase address) (epcsFlashEraseSector faults address m).2] ∧
      (epcsFlashEraseSector faults address m).1.eeprom = m.eeprom ∧
      (epcsFlashEraseSector faults address m).1.eepromLog = m.eepromLog := by
  unfold epcsFlashEraseSector
  cases outcome : faults m.operations with
  | none => exact ⟨m.epcs, rfl, rfl, rfl, rfl⟩
  | some leaves => exact ⟨leaves, rfl, rfl, rfl, rfl⟩

theorem epcsFlashProgramPage_spec (address : Nat) {data : List Byte}
    (pos : 0 < data.length) (short : data.length ≤ updateEpcsPageSize) (m : Media) :
    ∃ leaves, (epcsFlashProgramPage faults address data m).1.epcs =
        (if (epcsFlashProgramPage faults address data m).2 then
          program updateEpcsPageSize m.epcs address data
        else scramble updateEpcsPageSize m.epcs address leaves) ∧
      (epcsFlashProgramPage faults address data m).1.epcsLog = m.epcsLog ++
        [.program address data (epcsFlashProgramPage faults address data m).2] ∧
      (epcsFlashProgramPage faults address data m).1.eeprom = m.eeprom ∧
      (epcsFlashProgramPage faults address data m).1.eepromLog = m.eepromLog := by
  have sized : ¬ (data.length = 0 ∨ data.length > updateEpcsPageSize) := by omega
  simp only [epcsFlashProgramPage, sized, if_false]
  cases outcome : faults m.operations with
  | none => exact ⟨m.epcs, rfl, rfl, rfl, rfl⟩
  | some leaves => exact ⟨leaves, rfl, rfl, rfl, rfl⟩

/-- Only the operation counter moves. -/
theorem epcsFlashRead_media (address length : Nat) (m : Media) :
    ∃ n, (epcsFlashRead faults address length m).1 = { m with operations := n } := by
  unfold epcsFlashRead
  split
  · exact ⟨m.operations, rfl⟩
  · dsimp only
    split <;> exact ⟨_, rfl⟩

theorem epcsFlashRead_data {address length : Nat} {m : Media} {data : List Byte}
    (h : (epcsFlashRead faults address length m).2 = some data) :
    data = read m.epcs address length := by
  unfold epcsFlashRead at h
  split at h
  · cases h
  · dsimp only at h
    split at h
    · exact (Option.some.inj h).symm
    · cases h

/-- What the single bus operations keep, the attempts of a page write keep. -/
theorem writePageAttempts_keeps {P : Media → Prop} {address : Nat} {data : List Byte}
    (wait : ∀ m, P m → P (updateEepromWaitReady faults m).1)
    (send : ∀ m, P m →
      P (i2cTransmitBytes faults (updateEepromPreamble address) data m).1)
    (left : Nat) {m : Media} (h : P m) :
    P (writePageAttempts faults address data left m).1 := by
  induction left generalizing m with
  | zero => exact h
  | succ left ih =>
    have settled : P (if left + 1 = updateI2cAttempts then m
        else (updateEepromWaitReady faults m).1) := by
      split
      · exact h
      · exact wait m h
    unfold writePageAttempts
    dsimp only
    generalize (if left + 1 = updateI2cAttempts then m
      else (updateEepromWaitReady faults m).1) = m' at settled ⊢
    have sent := send m' settled
    split
    · split
      · exact wait _ sent
      · exact ih (wait _ sent)
    · exact ih sent

theorem readAttempts_keeps {P : Media → Prop} {address length : Nat}
    (receive : ∀ m, P m →
      P (i2cReceiveBytes faults (updateEepromPreamble address) length m).1)
    (left : Nat) {m : Media} (h : P m) : P (readAttempts faults address length left m).1 := by
  induction left generalizing m with
  | zero => exact h
  | succ left ih =>
    unfold readAttempts
    dsimp only
    split
    · exact receive m h
    · exact ih (receive m h)

/-- The preamble addresses the cell of the whole EEPROM it was made from. -/
theorem updateEepromPreamble_cell {address : Nat} (inside : address < updateEepromSize) :
    (updateEepromPreamble address).cell = address := by
  have bank : address / updateEepromSlaveSize < 4 := Nat.div_lt_of_lt_mul inside
  have split := Nat.div_add_mod address updateEepromSlaveSize
  simp only [updateEepromPreamble, Preamble.cell, updateEepromSlaveAddress,
    updateEepromSlaveOffset]
  generalize address / updateEepromSlaveSize = k at bank split ⊢
  have slave : ((updateEepromSlaveBase ||| ((k &&& 7) <<< 1)) - updateEepromSlaveBase) / 2 =
      k := by
    have : k = 0 ∨ k = 1 ∨ k = 2 ∨ k = 3 := by omega
    rcases this with rfl | rfl | rfl | rfl <;> rfl
  rw [slave, Nat.mul_comm]
  exact split

theorem i2cTransmitBytes_spec (preamble : Preamble) (data : List Byte) (m : Media) :
    (i2cTransmitBytes faults preamble data m).1.eepromLog =
        m.eepromLog ++ [.write preamble.cell data] ∧
      (∀ a, a / updateEepromPageSize ≠ preamble.cell / updateEepromPageSize →
        (i2cTransmitBytes faults preamble data m).1.eeprom a = m.eeprom a) ∧
      ((i2cTransmitBytes faults preamble data m).2 = true →
        (i2cTransmitBytes faults preamble data m).1.eeprom =
          overwrite updateEepromPageSize m.eeprom preamble.cell data) := by
  unfold i2cTransmitBytes
  cases outcome : faults m.operations with
  | none => exact ⟨rfl, fun a away => overwrite_outside away data, fun _ => rfl⟩
  | some leaves => exact ⟨rfl, fun a away => scramble_outside away leaves, by simp⟩

/-- The attempts of one page write: the same bytes again and again, and what the
last of them stored if the write worked. -/
theorem writePageAttempts_spec {address : Nat} {data : List Byte}
    (inside : address < updateEepromSize) (left : Nat) (m : Media) :
    let wrote := writePageAttempts faults address data left m
    ∃ tries, tries ≤ left ∧ (0 < left → 0 < tries) ∧
      wrote.1.eepromLog = m.eepromLog ++ List.replicate tries (.write address data) ∧
      (∀ a, a / updateEepromPageSize ≠ address / updateEepromPageSize →
        wrote.1.eeprom a = m.eeprom a) ∧
      (address % updateEepromPageSize + data.length ≤ updateEepromPageSize →
        wrote.2 = true →
        ∀ k (h : k < data.length), wrote.1.eeprom (address + k) = data[k]) := by
  induction left generalizing m with
  | zero => exact ⟨0, Nat.le_refl _, id, by simp [writePageAttempts],
      fun a _ => rfl, by simp [writePageAttempts]⟩
  | succ left ih =>
    unfold writePageAttempts
    dsimp only
    have settled : (if left + 1 = updateI2cAttempts then m
        else (updateEepromWaitReady faults m).1).eepromLog = m.eepromLog ∧
        (if left + 1 = updateI2cAttempts then m
        else (updateEepromWaitReady faults m).1).eeprom = m.eeprom := by
      split <;> exact ⟨rfl, rfl⟩
    generalize (if left + 1 = updateI2cAttempts then m
      else (updateEepromWaitReady faults m).1) = m' at settled ⊢
    obtain ⟨log, away, stored⟩ := i2cTransmitBytes_spec faults
      (updateEepromPreamble address) data m'
    rw [updateEepromPreamble_cell inside] at log away stored
    generalize i2cTransmitBytes faults (updateEepromPreamble address) data m' = sent at *
    have again : ∀ m₂ : Media, m₂.eepromLog = sent.1.eepromLog → m₂.eeprom = sent.1.eeprom →
        ∃ tries, tries ≤ left + 1 ∧ (0 < left + 1 → 0 < tries) ∧
        (writePageAttempts faults address data left m₂).1.eepromLog =
          m.eepromLog ++ List.replicate tries (.write address data) ∧
        (∀ a, a / updateEepromPageSize ≠ address / updateEepromPageSize →
          (writePageAttempts faults address data left m₂).1.eeprom a = m.eeprom a) ∧
        (address % updateEepromPageSize + data.length ≤ updateEepromPageSize →
          (writePageAttempts faults address data left m₂).2 = true → ∀ k (h : k < data.length),
          (writePageAttempts faults address data left m₂).1.eeprom (address + k) = data[k]) := by
      intro m₂ log₂ cells₂
      obtain ⟨tries, few, _, logs, outside, ends⟩ := ih m₂
      refine ⟨tries + 1, by omega, by omega, ?_, ?_, ends⟩
      · rw [logs, log₂, log, settled.1, List.replicate_succ, List.append_assoc]
        rfl
      · intro a ha
        rw [outside a ha, cells₂, away a ha, settled.2]
    split
    · rename_i done
      split
      · refine ⟨1, by omega, by omega, by rw [← settled.1]; exact log, ?_, ?_⟩
        · intro a ha
          rw [← settled.2]
          exact away a ha
        · intro fits _ k h
          have cells := stored done
          show sent.1.eeprom (address + k) = data[k]
          rw [cells]
          exact overwrite_written fits h
      · exact again _ rfl rfl
    · exact again _ rfl rfl

theorem updateEepromWritePage_spec {address : Nat} (inside : address < updateEepromSize)
    (data : List Byte) (m : Media) :
    ∃ tries, 0 < tries ∧ tries ≤ updateI2cAttempts ∧
      (updateEepromWritePage faults address data m).1.eepromLog =
        m.eepromLog ++ List.replicate tries (.write address data) ∧
      (∀ a, a / updateEepromPageSize ≠ address / updateEepromPageSize →
        (updateEepromWritePage faults address data m).1.eeprom a = m.eeprom a) ∧
      (address % updateEepromPageSize + data.length ≤ updateEepromPageSize →
        (updateEepromWritePage faults address data m).2 = true → ∀ k (h : k < data.length),
        (updateEepromWritePage faults address data m).1.eeprom (address + k) = data[k]) := by
  obtain ⟨tries, few, some, rest⟩ :=
    writePageAttempts_spec faults inside updateI2cAttempts m
  exact ⟨tries, some (by decide), few, rest⟩

/-- The attempts of one read: failures, and the bytes of the one that worked. -/
theorem readAttempts_spec {address : Nat} (inside : address < updateEepromSize)
    (length left : Nat) (m : Media) :
    let got := readAttempts faults address length left m
    got.1.eeprom = m.eeprom ∧
      (∀ data, got.2 = some data → data = read m.eeprom address length) ∧
      ∃ n, got.1.eepromLog = m.eepromLog ++ List.replicate n (.readFailed address) ++
        (got.2.map (EepromCommand.read address)).toList := by
  induction left generalizing m with
  | zero => exact ⟨rfl, by simp [readAttempts], 0, by simp [readAttempts]⟩
  | succ left ih =>
    unfold readAttempts
    dsimp only
    have cell := updateEepromPreamble_cell inside
    cases outcome : faults m.operations with
    | none =>
      have got : i2cReceiveBytes faults (updateEepromPreamble address) length m =
          ({ m with
              operations := m.operations + 1
              eepromLog := m.eepromLog ++ [.read address (read m.eeprom address length)] },
            some (read m.eeprom address length)) := by
        simp only [i2cReceiveBytes, outcome, cell]
      rw [got]
      exact ⟨rfl, fun data same => (Option.some.inj same).symm, 0, by simp⟩
    | some leaves =>
      have got : i2cReceiveBytes faults (updateEepromPreamble address) length m =
          ({ m with
              operations := m.operations + 1
              eepromLog := m.eepromLog ++ [.readFailed address] }, none) := by
        simp only [i2cReceiveBytes, outcome, cell]
      rw [got]
      obtain ⟨cells, bytes, n, log⟩ := ih { m with
        operations := m.operations + 1
        eepromLog := m.eepromLog ++ [.readFailed address] }
      refine ⟨cells, bytes, n + 1, ?_⟩
      rw [log, List.replicate_succ]
      simp

/-- The EPCS side of the media. -/
def SameEpcs (m m' : Media) : Prop :=
  m'.epcs = m.epcs ∧ m'.epcsLog = m.epcsLog

theorem i2cTransmitBytes_epcs (preamble : Preamble) (data : List Byte) (m : Media) :
    SameEpcs m (i2cTransmitBytes faults preamble data m).1 := by
  unfold i2cTransmitBytes
  dsimp only
  split <;> exact ⟨rfl, rfl⟩

theorem i2cReceiveBytes_epcs (preamble : Preamble) (length : Nat) (m : Media) :
    SameEpcs m (i2cReceiveBytes faults preamble length m).1 := by
  unfold i2cReceiveBytes
  dsimp only
  split <;> exact ⟨rfl, rfl⟩

theorem SameEpcs.trans {m₁ m₂ m₃ : Media} (h : SameEpcs m₁ m₂) (h' : SameEpcs m₂ m₃) :
    SameEpcs m₁ m₃ :=
  ⟨h'.1.trans h.1, h'.2.trans h.2⟩

theorem updateEepromWritePage_epcs (address : Nat) (data : List Byte) (m : Media) :
    SameEpcs m (updateEepromWritePage faults address data m).1 :=
  writePageAttempts_keeps (P := SameEpcs m) faults (fun _ h => h.trans ⟨rfl, rfl⟩)
    (fun m' h => h.trans (i2cTransmitBytes_epcs faults _ data m')) _ ⟨rfl, rfl⟩

theorem updateEepromRead_epcs (address length : Nat) (m : Media) :
    SameEpcs m (updateEepromRead faults address length m).1 :=
  readAttempts_keeps (P := SameEpcs m) faults
    (fun m' h => h.trans (i2cReceiveBytes_epcs faults _ length m')) _ ⟨rfl, rfl⟩

/-- The page write a command asks for, if it is one. -/
def EepromCommand.pageWrite : EepromCommand → Option (Nat × List Byte)
  | .write address data => some (address, data)
  | _ => none

/-- The EEPROM side of media that were at most read. -/
def ReadsOnly (m m' : Media) : Prop :=
  m'.eeprom = m.eeprom ∧ ∃ reads, m'.eepromLog = m.eepromLog ++ reads ∧
    reads.filterMap EepromCommand.pageWrite = []

theorem ReadsOnly.of_log {m m' : Media} (cells : m'.eeprom = m.eeprom)
    (log : m'.eepromLog = m.eepromLog) : ReadsOnly m m' :=
  ⟨cells, [], by simp [log], rfl⟩

theorem ReadsOnly.trans {m₁ m₂ m₃ : Media} (h : ReadsOnly m₁ m₂) (h' : ReadsOnly m₂ m₃) :
    ReadsOnly m₁ m₃ := by
  obtain ⟨cells, reads, log, none⟩ := h
  obtain ⟨cells', reads', log', none'⟩ := h'
  exact ⟨cells'.trans cells, reads ++ reads', by rw [log', log, List.append_assoc],
    by rw [List.filterMap_append, none, none', List.append_nil]⟩

theorem i2cReceiveBytes_reads (preamble : Preamble) (length : Nat) (m : Media) :
    ReadsOnly m (i2cReceiveBytes faults preamble length m).1 := by
  unfold i2cReceiveBytes
  dsimp only
  split <;> exact ⟨rfl, _, rfl, rfl⟩

theorem updateEepromRead_reads (address length : Nat) (m : Media) :
    ReadsOnly m (updateEepromRead faults address length m).1 :=
  readAttempts_keeps (P := ReadsOnly m) faults
    (fun m' h => h.trans (i2cReceiveBytes_reads faults _ length m')) _ (.of_log rfl rfl)

theorem epcsFlashProgramPage_reads (address : Nat) (data : List Byte) (m : Media) :
    ReadsOnly m (epcsFlashProgramPage faults address data m).1 := by
  unfold epcsFlashProgramPage
  split
  · exact .of_log rfl rfl
  · dsimp only
    split <;> exact .of_log rfl rfl

end Frame

end Medium
