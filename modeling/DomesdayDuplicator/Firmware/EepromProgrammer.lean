import DomesdayDuplicator.Firmware.ProgrammerDownload
import DomesdayDuplicator.Foundations.Tiling

/-!
# The command-line programmer's EEPROM writer

`fx3/programmer/src/fx3-paging.h` and `fx3_program_prom` of `fx3-programmer.c`: the image is
padded to pages and goes to the flash programmer slave by slave, each slave written and then
read back in transfers of 2 KiB at most. In the abstract it is a plan: the image cut at the
slaves and each part of it cut into transfers.
-/

namespace EepromProgrammer

open Attempts ProgrammerDownload Tiling UpdateProtocol

def fx3MaxWriteSize : Nat := 2048
def fx3I2cPageSize : Nat := 64
def fx3I2cSlaveSize : Nat := 64 * 1024

def intMax : Int := 2 ^ 31 - 1

def fx3I2cSlaveCount (paddedSize : Int) : Option Int :=
  if paddedSize ≤ 0 then some 0
  else if paddedSize + fx3I2cSlaveSize > intMax then none
  else some ((paddedSize + fx3I2cSlaveSize - 1) / fx3I2cSlaveSize)

def fx3I2cSlaveChunk (remaining : Nat) : Nat :=
  if remaining > fx3I2cSlaveSize then fx3I2cSlaveSize else remaining

def fx3TransferSize (remaining : Nat) : Nat :=
  if remaining > fx3MaxWriteSize then fx3MaxWriteSize else remaining

/-- A request to the flash programmer, with what came of it. -/
inductive Event where
  | write (slave address : BitVec 16) (data : List Byte) (r : Int)
  | read (slave address : BitVec 16) (size : Nat) (r : Int) (data : List Byte)
  deriving DecidableEq

/-- A flash programmer, with what it answers after the requests before: the bytes it took, or
the bytes it gave and what they leave in the buffer. -/
structure FlashProgrammer where
  write : List Event → BitVec 16 → BitVec 16 → List Byte → Int
  read : List Event → BitVec 16 → BitVec 16 → Nat → Int × List Byte

section Loops

variable (device : FlashProgrammer) (buf : List Byte)

/-- The loop of `fx3_i2c_write`. -/
def writeLoop (devAddr : Nat) :
    Nat → Nat → BitVec 16 → Nat → List Event → Int × List Event
  | 0, _, _, _, log => (0, log)
  | turns + 1, index, address, len, log =>
    if len > 0 then
      let size := fx3TransferSize len
      let data := (buf.drop index).take size
      let r := device.write log (BitVec.ofNat 16 devAddr) address data
      let log := log ++ [.write (BitVec.ofNat 16 devAddr) address data r]
      if r ≠ size then (-1, log)
      else writeLoop devAddr turns (index + size) (address + BitVec.ofNat 16 size) (len - size) log
    else (0, log)

def fx3I2cWrite (devAddr start len : Nat) (log : List Event) : Int × List Event :=
  writeLoop device buf devAddr len start 0 len log

/-- The loop of `fx3_i2c_read_verify`. -/
def verifyLoop (devAddr : Nat) :
    Nat → Nat → BitVec 16 → Nat → List Event → Int × List Event
  | 0, _, _, _, log => (0, log)
  | turns + 1, index, address, len, log =>
    if len > 0 then
      let size := fx3TransferSize len
      let got := device.read log (BitVec.ofNat 16 devAddr) address size
      let log := log ++ [.read (BitVec.ofNat 16 devAddr) address size got.1 got.2]
      if got.1 ≠ size then (-1, log)
      else if (buf.drop index).take size ≠ got.2 then (-2, log)
      else verifyLoop devAddr turns (index + size) (address + BitVec.ofNat 16 size) (len - size) log
    else (0, log)

def fx3I2cReadVerify (devAddr len : Nat) (log : List Event) : Int × List Event :=
  verifyLoop device buf devAddr len 0 0 len log

/-- The loop of `fx3_program_prom`. -/
def programLoop : Nat → Nat → Nat → Nat → List Event → Int × List Event
  | 0, _, _, _, log => (0, log)
  | turns + 1, remaining, offset, address, log =>
    if remaining > 0 then
      let chunk := fx3I2cSlaveChunk remaining
      let written := fx3I2cWrite device buf address offset chunk log
      if written.1 ≠ 0 then (-1, written.2)
      else
        let verified := fx3I2cReadVerify device (buf.drop offset) address chunk written.2
        if verified.1 ≠ 0 then (-1, verified.2)
        else programLoop turns (remaining - chunk) (offset + chunk) (address + 1) verified.2
    else (0, log)

end Loops

inductive Step where
  | write (slave : Nat) (piece : Piece Byte)
  | verify (slave : Nat) (piece : Piece Byte)

def attempt (device : FlashProgrammer) (log : List Event) : Step → Bool × Event
  | .write slave piece =>
    let r := device.write log (BitVec.ofNat 16 slave) (BitVec.ofNat 16 piece.1) piece.2
    (decide (r = piece.2.length),
      .write (BitVec.ofNat 16 slave) (BitVec.ofNat 16 piece.1) piece.2 r)
  | .verify slave piece =>
    let got := device.read log (BitVec.ofNat 16 slave) (BitVec.ofNat 16 piece.1) piece.2.length
    (decide (got.1 = piece.2.length ∧ piece.2 = got.2),
      .read (BitVec.ofNat 16 slave) (BitVec.ofNat 16 piece.1) piece.2.length got.1 got.2)

/-- The transfers of a slave's part of the image. -/
def transfers (bytes : List Byte) : List (Piece Byte) := cut fx3MaxWriteSize bytes.length 0 bytes

/-- A part is written, and then read back. -/
def slaveSteps (part : Piece Byte) : List Step :=
  (transfers part.2).map (Step.write (part.1 / fx3I2cSlaveSize)) ++
    (transfers part.2).map (Step.verify (part.1 / fx3I2cSlaveSize))

def parts (image : List Byte) : List (Piece Byte) := cut fx3I2cSlaveSize image.length 0 image

def plan (image : List Byte) : List Step := (parts image).flatMap slaveSteps

section Loops

variable {device : FlashProgrammer} {buf : List Byte} {devAddr turns index address len : Nat}
  {log : List Event}

theorem transferSize_eq : fx3TransferSize len = min fx3MaxWriteSize len := by
  rw [fx3TransferSize]
  split <;> omega

theorem slaveChunk_eq : fx3I2cSlaveChunk len = min fx3I2cSlaveSize len := by
  rw [fx3I2cSlaveChunk]
  split <;> omega

/-- The first piece of a run inside of the buffer, and the run behind it. -/
theorem cut_run {size turns p : Nat} (some : 0 < len) (inside : index + len ≤ buf.length) :
    cut size (turns + 1) p ((buf.drop index).take len) =
      (p, (buf.drop index).take (min size len)) :: cut size turns (p + min size len)
        ((buf.drop (index + min size len)).take (len - min size len)) := by
  have length : ((buf.drop index).take len).length = len := by
    rw [List.length_take, List.length_drop]
    omega
  have nonempty : (buf.drop index).take len ≠ [] := by
    intro empty
    rw [empty, List.length_nil] at length
    omega
  have taken : ((buf.drop index).take len).take size = (buf.drop index).take (min size len) :=
    List.take_take
  have rest : ((buf.drop index).take len).drop size =
      (buf.drop (index + min size len)).take (len - min size len) := by
    rcases Nat.le_total size len with long | short
    · rw [Nat.min_eq_left long, List.drop_take, List.drop_drop]
    · rw [Nat.min_eq_right short, Nat.sub_self, List.take_zero]
      exact List.drop_of_length_le (by omega)
  rw [cut, if_neg nonempty, taken, rest, List.length_take, List.length_drop]
  congr 2
  omega

/-- A loop of the source went as the steps of the plan. -/
structure Went (out : Int × List Event) (done : Bool × List Event) : Prop where
  log : out.2 = done.2
  zero : out.1 = 0 ↔ done.1 = true

/-- The bytes of the next transfer. -/
theorem length_next (inside : index + len ≤ buf.length) :
    ((buf.drop index).take (min fx3MaxWriteSize len)).length = min fx3MaxWriteSize len := by
  rw [List.length_take, List.length_drop]
  omega

theorem writeLoop_went (enough : len ≤ turns) (inside : index + len ≤ buf.length) :
    Went (writeLoop device buf devAddr turns index (BitVec.ofNat 16 address) len log)
      (perform (attempt device) log
        ((cut fx3MaxWriteSize turns address ((buf.drop index).take len)).map
          (Step.write devAddr))) := by
  induction turns generalizing index address len log with
  | zero => exact ⟨rfl, iff_of_true rfl rfl⟩
  | succ turns ih =>
    rw [writeLoop]
    by_cases some : len > 0
    · have size : min fx3MaxWriteSize len ≤ len := Nat.min_le_right _ _
      have positive : 0 < min fx3MaxWriteSize len := Nat.lt_min.mpr ⟨by decide, some⟩
      have length := length_next inside
      rw [if_pos some, cut_run some inside, List.map_cons, transferSize_eq]
      generalize min fx3MaxWriteSize len = size' at *
      dsimp only
      by_cases taken : device.write log (BitVec.ofNat 16 devAddr) (BitVec.ofNat 16 address)
          ((buf.drop index).take size') = size'
      · have ok : (attempt device log (Step.write devAddr
            (address, (buf.drop index).take size'))).1 = true := by
          simp only [attempt, length, taken, decide_true]
        rw [if_neg (not_not.mpr taken), perform_cons_ok ok, ← BitVec.ofNat_add]
        exact ih (by omega) (by omega)
      · have failed : ¬ (attempt device log (Step.write devAddr
            (address, (buf.drop index).take size'))).1 = true := by
          simp only [attempt, length, taken, decide_false, Bool.false_eq_true, not_false_eq_true]
        rw [if_pos taken, perform_cons_failed failed]
        exact ⟨rfl, iff_of_false (by simp) Bool.noConfusion⟩
    · obtain rfl : len = 0 := by omega
      exact ⟨rfl, iff_of_true rfl rfl⟩

theorem verifyLoop_went (enough : len ≤ turns) (inside : index + len ≤ buf.length) :
    Went (verifyLoop device buf devAddr turns index (BitVec.ofNat 16 address) len log)
      (perform (attempt device) log
        ((cut fx3MaxWriteSize turns address ((buf.drop index).take len)).map
          (Step.verify devAddr))) := by
  induction turns generalizing index address len log with
  | zero => exact ⟨rfl, iff_of_true rfl rfl⟩
  | succ turns ih =>
    rw [verifyLoop]
    by_cases some : len > 0
    · have size : min fx3MaxWriteSize len ≤ len := Nat.min_le_right _ _
      have positive : 0 < min fx3MaxWriteSize len := Nat.lt_min.mpr ⟨by decide, some⟩
      have length := length_next inside
      rw [if_pos some, cut_run some inside, List.map_cons, transferSize_eq]
      generalize min fx3MaxWriteSize len = size' at *
      have judged : (attempt device log (Step.verify devAddr
          (address, (buf.drop index).take size'))).1 = true ↔
          (device.read log (BitVec.ofNat 16 devAddr) (BitVec.ofNat 16 address) size').1 = size' ∧
          (buf.drop index).take size' =
            (device.read log (BitVec.ofNat 16 devAddr) (BitVec.ofNat 16 address) size').2 := by
        simp only [attempt, length, decide_eq_true_eq]
      have left : (attempt device log (Step.verify devAddr
          (address, (buf.drop index).take size'))).2 =
          .read (BitVec.ofNat 16 devAddr) (BitVec.ofNat 16 address) size'
            (device.read log (BitVec.ofNat 16 devAddr) (BitVec.ofNat 16 address) size').1
            (device.read log (BitVec.ofNat 16 devAddr) (BitVec.ofNat 16 address) size').2 := by
        simp only [attempt, length]
      dsimp only
      by_cases given : (device.read log (BitVec.ofNat 16 devAddr) (BitVec.ofNat 16 address)
          size').1 = size'
      · rw [if_neg (not_not.mpr given)]
        by_cases same : (buf.drop index).take size' =
            (device.read log (BitVec.ofNat 16 devAddr) (BitVec.ofNat 16 address) size').2
        · rw [if_neg (not_not.mpr same), perform_cons_ok (judged.mpr ⟨given, same⟩), left,
            ← BitVec.ofNat_add]
          exact ih (by omega) (by omega)
        · rw [if_pos same, perform_cons_failed fun ok => same (judged.mp ok).right, left]
          exact ⟨rfl, iff_of_false (by simp) Bool.noConfusion⟩
      · rw [if_pos given, perform_cons_failed fun ok => given (judged.mp ok).left, left]
        exact ⟨rfl, iff_of_false (by simp) Bool.noConfusion⟩
    · obtain rfl : len = 0 := by omega
      exact ⟨rfl, iff_of_true rfl rfl⟩

/-- The whole loop goes as the plan does. -/
theorem programLoop_went {offset remaining : Nat} (enough : remaining ≤ turns)
    (inside : offset + remaining = buf.length)
    (aligned : 0 < remaining → offset = address * fx3I2cSlaveSize) :
    Went (programLoop device buf turns remaining offset address log)
      (perform (attempt device) log
        ((cut fx3I2cSlaveSize turns offset ((buf.drop offset).take remaining)).flatMap
          slaveSteps)) := by
  induction turns generalizing offset remaining address log with
  | zero => exact ⟨rfl, iff_of_true rfl rfl⟩
  | succ turns ih =>
    rw [programLoop]
    by_cases some : remaining > 0
    · have size : min fx3I2cSlaveSize remaining ≤ remaining := Nat.min_le_right _ _
      have positive : 0 < min fx3I2cSlaveSize remaining := Nat.lt_min.mpr ⟨by decide, some⟩
      have slave : offset / fx3I2cSlaveSize = address := by
        rw [aligned some]
        exact Nat.mul_div_cancel _ (by decide)
      have next : 0 < remaining - min fx3I2cSlaveSize remaining →
          offset + min fx3I2cSlaveSize remaining = (address + 1) * fx3I2cSlaveSize := by
        intro more
        rw [aligned some, Nat.add_mul, Nat.one_mul, Nat.min_eq_left (by omega)]
      rw [if_pos some, cut_run some (by omega), List.flatMap_cons, slaveChunk_eq]
      generalize min fx3I2cSlaveSize remaining = chunk at *
      have length : ((buf.drop offset).take chunk).length = chunk := by
        rw [List.length_take, List.length_drop]
        omega
      rw [slaveSteps, slave, List.append_assoc, perform_append]
      have written : Went (fx3I2cWrite device buf address offset chunk log)
          (perform (attempt device) log
            ((transfers ((buf.drop offset).take chunk)).map (Step.write address))) := by
        rw [transfers, length]
        exact writeLoop_went le_rfl (by omega)
      dsimp only
      by_cases wrote : (fx3I2cWrite device buf address offset chunk log).1 = 0
      · rw [if_neg (not_not.mpr wrote), if_pos (written.zero.mp wrote), ← written.log,
          perform_append]
        generalize (fx3I2cWrite device buf address offset chunk log).2 = log'
        have verified : Went (fx3I2cReadVerify device (buf.drop offset) address chunk log')
            (perform (attempt device) log'
              ((transfers ((buf.drop offset).take chunk)).map (Step.verify address))) := by
          have whole : 0 + chunk ≤ (buf.drop offset).length := by
            rw [List.length_drop]
            omega
          have went := @verifyLoop_went device (buf.drop offset) address chunk 0 0 chunk log' le_rfl
            whole
          rw [List.drop_zero] at went
          rw [transfers, length]
          exact went
        by_cases compared : (fx3I2cReadVerify device (buf.drop offset) address chunk log').1 = 0
        · rw [if_neg (not_not.mpr compared), if_pos (verified.zero.mp compared), ← verified.log]
          exact ih (by omega) (by omega) next
        · rw [if_pos compared, if_neg fun ok => compared (verified.zero.mpr ok)]
          exact ⟨verified.log, iff_of_false (by simp)
            fun ok => compared (verified.zero.mpr ok)⟩
      · rw [if_pos wrote, if_neg fun ok => wrote (written.zero.mpr ok)]
        exact ⟨written.log, iff_of_false (by simp) fun ok => wrote (written.zero.mpr ok)⟩
    · obtain rfl : remaining = 0 := by omega
      exact ⟨rfl, iff_of_true rfl rfl⟩

theorem program_went (device : FlashProgrammer) (buf : List Byte) :
    Went (programLoop device buf buf.length buf.length 0 0 [])
      (perform (attempt device) [] (plan buf)) := by
  have went := @programLoop_went device buf buf.length 0 [] 0 buf.length le_rfl (Nat.zero_add _)
    fun _ => (Nat.zero_mul _).symm
  rwa [List.drop_zero, List.take_length] at went

end Loops

end EepromProgrammer
