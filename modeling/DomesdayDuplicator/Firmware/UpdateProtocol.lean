import Mathlib.Data.BitVec
import DomesdayDuplicator.Foundations.ReflectedCrc

/-!
# The device update protocol

`fx3/firmware/src/update-protocol.c`: the update state, the decisions about a
request that need no hardware, the paging arithmetic and the boot block.
Lengths and counters are naturals below 2^32 or 2^16; the one subtraction that
C would wrap (`updateChunkIsAllowed`) and the one counter that wraps
(`nextChunk`) are written with their modulus.
-/

namespace UpdateProtocol

abbrev Byte := BitVec 8
abbrev Digest := Vector Byte 32

def updateTargetEeprom : Byte := 0
def updateTargetEpcs : Byte := 1
def updateTargetEpcsFactory : Byte := 2

def updateFlagsNone : Nat := 0x00000000
def updateFlagFactoryWrite : Nat := 0x57464444

def updateStatusLength : Nat := 16
def updateBeginLength : Nat := 40
def updateDigestLength : Nat := 32
def updateMaxChunk : Nat := 2048

def updateEepromPageSize : Nat := 64
def updateEepromSlaveSize : Nat := 65536
def updateEepromSlaveBase : Nat := 0xA0
def updateEepromSize : Nat := 4 * updateEepromSlaveSize

def updateEpcsPageSize : Nat := 256
def updateEpcsSectorSize : Nat := 65536
def updateEpcsSize : Nat := 0x800000
def updateEpcsFactoryAddress : Nat := 0x000000
def updateEpcsBootBlockAddress : Nat := 0x100000
def updateEpcsApplicationAddress : Nat := 0x200000

def updateEpcsIdEpcs16 : Byte := 0x14
def updateEpcsIdEpcs64 : Byte := 0x16
def updateEpcsIdEpcs128 : Byte := 0x18

def updateBootBlockLength : Nat := 24
def updateBootBlockHeaderLength : Nat := 20
def updateBootBlockLayoutVersion : Nat := 1
def updateBootBlockMagic0 : Byte := 0x44
def updateBootBlockMagic1 : Byte := 0x44
def updateBootBlockMagic2 : Byte := 0x42
def updateBootBlockMagic3 : Byte := 0x42

def updateGatewareMinimumLength : Nat := updateEpcsPageSize
def updateImageSignature0 : Byte := 0x43
def updateImageSignature1 : Byte := 0x59
def updateImageMinimumLength : Nat := 128

inductive Phase where
  | idle | receiving | writing | verifying | complete | failed
  deriving DecidableEq, Repr

def Phase.code : Phase → Byte
  | .idle => 0 | .receiving => 1 | .writing => 2
  | .verifying => 3 | .complete => 4 | .failed => 5

inductive UpdateError where
  | none | busy | target | length | sequence | chunk | overrun | short
  | streamDigest | mediumDigest | write | read | image | hardware
  deriving DecidableEq, Repr

def UpdateError.code : UpdateError → Byte
  | .none => 0 | .busy => 1 | .target => 2 | .length => 3 | .sequence => 4
  | .chunk => 5 | .overrun => 6 | .short => 7 | .streamDigest => 8
  | .mediumDigest => 9 | .write => 10 | .read => 11 | .image => 12 | .hardware => 13

structure UpdateState where
  phase : Phase
  error : UpdateError
  target : Byte
  length : Nat
  digest : Digest
  received : Nat
  written : Nat
  verified : Nat
  nextChunk : Nat
  deriving DecidableEq

structure UpdateBegin where
  length : Nat
  digest : Digest
  flags : Nat

def updateReadLittleEndian32 (data : List Byte) : Nat :=
  (data.getD 0 0).toNat + (data.getD 1 0).toNat * 2 ^ 8 +
    (data.getD 2 0).toNat * 2 ^ 16 + (data.getD 3 0).toNat * 2 ^ 24

def updateWriteLittleEndian16 (value : Nat) : List Byte :=
  [BitVec.ofNat 8 value, BitVec.ofNat 8 (value / 2 ^ 8)]

def updateWriteLittleEndian32 (value : Nat) : List Byte :=
  [BitVec.ofNat 8 value, BitVec.ofNat 8 (value / 2 ^ 8),
    BitVec.ofNat 8 (value / 2 ^ 16), BitVec.ofNat 8 (value / 2 ^ 24)]

def updateStateReset : UpdateState where
  phase := .idle
  error := .none
  target := updateTargetEeprom
  length := 0
  digest := Vector.replicate 32 0
  received := 0
  written := 0
  verified := 0
  nextChunk := 0

/-- The first error wins: a transfer that has failed keeps its reason. -/
def updateStateFail (state : UpdateState) (error : UpdateError) : UpdateState :=
  if state.phase = .failed then state
  else { state with phase := .failed, error := error }

def updateBeginDecode (data : List Byte) : Option UpdateBegin :=
  if data.length ≠ updateBeginLength then none
  else
    let begin : UpdateBegin :=
      { length := updateReadLittleEndian32 data
        digest := Vector.ofFn fun i => data.getD (4 + i) 0
        flags := updateReadLittleEndian32 (data.drop (4 + updateDigestLength)) }
    if begin.flags ≠ updateFlagsNone ∧ begin.flags ≠ updateFlagFactoryWrite then none
    else some begin

/-- The data stage a host sends with BEGIN. -/
def beginPacket (begin : UpdateBegin) : List Byte :=
  updateWriteLittleEndian32 begin.length ++ begin.digest.toList ++
    updateWriteLittleEndian32 begin.flags

def updateStatusEncode (state : UpdateState) : List Byte :=
  [state.phase.code, state.error.code] ++ updateWriteLittleEndian16 updateMaxChunk ++
    updateWriteLittleEndian32 state.received ++ updateWriteLittleEndian32 state.written ++
    updateWriteLittleEndian32 state.verified

def updateIsInProgress (state : UpdateState) : Bool :=
  state.phase = .receiving || state.phase = .writing || state.phase = .verifying

def updateTargetIsEpcs (target : Byte) : Bool :=
  target = updateTargetEpcs || target = updateTargetEpcsFactory

def updateEpcsTargetBase (target : Byte) : Nat :=
  if target = updateTargetEpcsFactory then updateEpcsFactoryAddress
  else updateEpcsApplicationAddress

def updateEpcsTargetCapacity (target : Byte) : Nat :=
  if target = updateTargetEpcsFactory then
    updateEpcsBootBlockAddress - updateEpcsFactoryAddress
  else updateEpcsSize - updateEpcsApplicationAddress

def updateGatewareIsPlausible (target : Byte) (totalLength : Nat) : Bool :=
  updateTargetIsEpcs target && updateGatewareMinimumLength ≤ totalLength &&
    totalLength ≤ updateEpcsTargetCapacity target

def updateBeginIsAllowed (state : UpdateState) (target : Byte) (length flags : Nat)
    (captureRunning : Bool) : UpdateError :=
  if target ≠ updateTargetEeprom ∧ ¬ updateTargetIsEpcs target then .target
  else if target = updateTargetEpcsFactory ∧ flags ≠ updateFlagFactoryWrite then .target
  else if target ≠ updateTargetEpcsFactory ∧ flags ≠ updateFlagsNone then .target
  else if captureRunning then .busy
  else if updateIsInProgress state then .sequence
  else if updateTargetIsEpcs target then
    if updateGatewareIsPlausible target length then .none else .length
  else if length < updateImageMinimumLength then .length
  else if length > updateEepromSize then .length
  else .none

def updateTargetPageSize (target : Byte) : Nat :=
  if updateTargetIsEpcs target then updateEpcsPageSize else updateEepromPageSize

/-- `state->length - state->received` on 32-bit unsigned words. -/
def remainingLength (state : UpdateState) : Nat :=
  (state.length + 2 ^ 32 - state.received) % 2 ^ 32

def updateChunkIsAllowed (state : UpdateState) (target : Byte) (index length : Nat) :
    UpdateError :=
  if target ≠ state.target then .target
  else if state.phase ≠ .receiving then .sequence
  else if index ≠ state.nextChunk then .sequence
  else if length = 0 then .chunk
  else if length > updateMaxChunk then .chunk
  else if length > remainingLength state then .overrun
  else if length < remainingLength state ∧ length % updateTargetPageSize target ≠ 0 then .chunk
  else .none

def updateFinishIsAllowed (state : UpdateState) (target : Byte) : UpdateError :=
  if target ≠ state.target then .target
  else if state.phase ≠ .receiving then .sequence
  else if state.received ≠ state.length then .short
  else .none

def updateImageIsPlausible (first : List Byte) (totalLength : Nat) : Bool :=
  2 ≤ first.length && updateImageMinimumLength ≤ totalLength &&
    totalLength ≤ updateEepromSize && first.getD 0 0 = updateImageSignature0 &&
    first.getD 1 0 = updateImageSignature1

def updateEepromSlaveAddress (address : Nat) : Nat :=
  updateEepromSlaveBase ||| ((address / updateEepromSlaveSize &&& 7) <<< 1)

def updateEepromSlaveOffset (address : Nat) : Nat :=
  address % updateEepromSlaveSize

def updateEepromWriteSpan (address remaining : Nat) : Nat :=
  if remaining = 0 then 0
  else min remaining (updateEepromPageSize - address % updateEepromPageSize)

def updateEepromReadSpan (address remaining bufferSize : Nat) : Nat :=
  if remaining = 0 ∨ bufferSize = 0 then 0
  else min (min remaining (updateEepromSlaveSize - address % updateEepromSlaveSize))
    bufferSize

def updateEepromPadToPage (length : Nat) : Nat :=
  if length = 0 then 0
  else (length + updateEepromPageSize - 1) / updateEepromPageSize *
    updateEepromPageSize

def updateEpcsCapacity (siliconId : Byte) : Nat :=
  if siliconId = updateEpcsIdEpcs16 then 0x200000
  else if siliconId = updateEpcsIdEpcs64 then 0x800000
  else if siliconId = updateEpcsIdEpcs128 then 0x1000000
  else 0

def updateEpcsDeviceIsUsable (siliconId : Byte) (address bytes : Nat) : Bool :=
  let capacity := updateEpcsCapacity siliconId
  capacity ≠ 0 && address ≤ capacity && bytes ≤ capacity - address

def updateEpcsWriteSpan (address remaining : Nat) : Nat :=
  if remaining = 0 then 0
  else min remaining (updateEpcsPageSize - address % updateEpcsPageSize)

def updateEpcsSectorStartsHere (address : Nat) : Bool :=
  address % updateEpcsSectorSize = 0

def updateEpcsSectorBase (address : Nat) : Nat :=
  address - address % updateEpcsSectorSize

def updateCrc32Initial : BitVec 32 := 0xFFFFFFFF
def updateCrc32Polynomial : BitVec 32 := 0xEDB88320

/-- The inner loop of `updateCrc32Update`, eight turns for one byte. -/
def updateCrc32Bit (crc : BitVec 32) : BitVec 32 :=
  if crc &&& 1 ≠ 0 then (crc >>> 1) ^^^ updateCrc32Polynomial else crc >>> 1

def updateCrc32Update (crc : BitVec 32) (data : List Byte) : BitVec 32 :=
  data.foldl (fun crc b => Nat.repeat updateCrc32Bit 8 (crc ^^^ b.setWidth 32)) crc

def updateCrc32Final (crc : BitVec 32) : BitVec 32 :=
  crc ^^^ 0xFFFFFFFF

/-- The twenty bytes the header checksum covers. -/
def bootBlockHeader (address length : Nat) (imageCrc : BitVec 32) : List Byte :=
  [updateBootBlockMagic0, updateBootBlockMagic1,
    updateBootBlockMagic2, updateBootBlockMagic3] ++
  updateWriteLittleEndian16 updateBootBlockLayoutVersion ++
  updateWriteLittleEndian16 0 ++ updateWriteLittleEndian32 address ++
  updateWriteLittleEndian32 length ++ updateWriteLittleEndian32 imageCrc.toNat

/-- What the call writes from `out[0]` on. -/
def bootBlockBytes (address length : Nat) (imageCrc : BitVec 32) : List Byte :=
  let header := bootBlockHeader address length imageCrc
  header ++ updateWriteLittleEndian32
    (updateCrc32Final (updateCrc32Update updateCrc32Initial header)).toNat

/-- The buffer `out` after the call; bytes past the block are not touched. -/
def updateBootBlockEncode (out : List Byte) (address length : Nat) (imageCrc : BitVec 32) :
    List Byte :=
  bootBlockBytes address length imageCrc ++ out.drop updateBootBlockLength

/-! ## What each decision says -/

theorem updateStateFail_phase (s : UpdateState) (e : UpdateError) :
    (updateStateFail s e).phase = .failed := by
  unfold updateStateFail
  split
  · assumption
  · rfl

theorem updateIsInProgress_iff (s : UpdateState) : updateIsInProgress s = true ↔
    s.phase = .receiving ∨ s.phase = .writing ∨ s.phase = .verifying := by
  simp [updateIsInProgress, or_assoc]

theorem remainingLength_eq {s : UpdateState} (fits : s.length < 2 ^ 32)
    (within : s.received ≤ s.length) : remainingLength s = s.length - s.received := by
  unfold remainingLength
  omega

theorem updateReadLittleEndian32_write {n : Nat} (h : n < 2 ^ 32) (rest : List Byte) :
    updateReadLittleEndian32 (updateWriteLittleEndian32 n ++ rest) = n := by
  simp [updateReadLittleEndian32, updateWriteLittleEndian32]
  omega

theorem updateBeginDecode_beginPacket {begin : UpdateBegin} (length : begin.length < 2 ^ 32)
    (flags : begin.flags = updateFlagsNone ∨ begin.flags = updateFlagFactoryWrite) :
    updateBeginDecode (beginPacket begin) = some begin := by
  obtain ⟨n, digest, f⟩ := begin
  have size : (beginPacket ⟨n, digest, f⟩).length = updateBeginLength := by
    simp [beginPacket, updateWriteLittleEndian32, updateBeginLength]
  have small : f < 2 ^ 32 := by
    rcases flags with h | h <;> simp only at h <;> rw [h] <;> decide
  have tail : (beginPacket ⟨n, digest, f⟩).drop (4 + updateDigestLength) =
      updateWriteLittleEndian32 f := by
    simp [beginPacket, updateDigestLength, updateWriteLittleEndian32]
  have digestBytes : (Vector.ofFn fun i : Fin 32 => (beginPacket ⟨n, digest, f⟩).getD (4 + i) 0)
      = digest := by
    apply Vector.ext
    intro i hi
    simp [beginPacket, updateWriteLittleEndian32, hi, List.getElem?_append, Nat.add_comm 4 i]
  have lengthWord : updateReadLittleEndian32 (beginPacket ⟨n, digest, f⟩) = n := by
    rw [beginPacket, List.append_assoc]
    exact updateReadLittleEndian32_write length _
  have flagsWord : updateReadLittleEndian32 (updateWriteLittleEndian32 f) = f := by
    simpa using updateReadLittleEndian32_write small []
  have known : ¬ (f ≠ updateFlagsNone ∧ f ≠ updateFlagFactoryWrite) := by
    simp only at flags
    tauto
  simp only [updateBeginDecode, size, tail, lengthWord, flagsWord, ne_eq, not_true, if_false,
    digestBytes]
  rw [if_neg known]

/-- Everything an allowed chunk has been checked for. -/
theorem updateChunkIsAllowed_none {s : UpdateState} {target : Byte} {index length : Nat}
    (h : updateChunkIsAllowed s target index length = .none) :
    target = s.target ∧ s.phase = .receiving ∧ index = s.nextChunk ∧ 0 < length ∧
      length ≤ updateMaxChunk ∧ length ≤ remainingLength s ∧
      (length < remainingLength s → length % updateTargetPageSize target = 0) := by
  unfold updateChunkIsAllowed at h
  split at h; · cases h
  split at h; · cases h
  split at h; · cases h
  split at h; · cases h
  split at h; · cases h
  split at h; · cases h
  split at h; · cases h
  rename_i htarget hphase hindex hzero hmax hover halign
  refine ⟨by simpa using htarget, by simpa using hphase, by simpa using hindex,
    by omega, by omega, by omega, ?_⟩
  intro less
  by_contra unaligned
  exact halign ⟨less, unaligned⟩

theorem updateFinishIsAllowed_none {s : UpdateState} {target : Byte}
    (h : updateFinishIsAllowed s target = .none) :
    target = s.target ∧ s.phase = .receiving ∧ s.received = s.length := by
  unfold updateFinishIsAllowed at h
  split at h; · cases h
  split at h; · cases h
  split at h; · cases h
  rename_i htarget hphase hshort
  exact ⟨by simpa using htarget, by simpa using hphase, by simpa using hshort⟩

/-- An allowed BEGIN found no transfer under way and a length its medium holds. -/
theorem updateBeginIsAllowed_none {s : UpdateState} {target : Byte} {length flags : Nat}
    {capture : Bool} (h : updateBeginIsAllowed s target length flags capture = .none) :
    capture = false ∧ updateIsInProgress s = false ∧
      ((updateTargetIsEpcs target = true ∧ updateGatewareMinimumLength ≤ length ∧
          length ≤ updateEpcsTargetCapacity target) ∨
        (target = updateTargetEeprom ∧ updateImageMinimumLength ≤ length ∧
          length ≤ updateEepromSize)) := by
  unfold updateBeginIsAllowed at h
  split at h; · cases h
  split at h; · cases h
  split at h; · cases h
  split at h; · cases h
  split at h; · cases h
  rename_i htarget _ _ hcapture hprogress
  refine ⟨by simpa using hcapture, by simpa using hprogress, ?_⟩
  split at h
  · rename_i epcs
    split at h
    · rename_i acceptable
      simp only [updateGatewareIsPlausible, Bool.and_eq_true, decide_eq_true_eq] at acceptable
      exact Or.inl ⟨epcs, acceptable.1.2, acceptable.2⟩
    · cases h
  · rename_i notEpcs
    split at h; · cases h
    split at h; · cases h
    refine Or.inr ⟨?_, by omega, by omega⟩
    by_contra other
    exact htarget ⟨other, notEpcs⟩

theorem updateBeginIsAllowed_flags {s : UpdateState} {target : Byte} {length flags : Nat}
    {capture : Bool} (h : updateBeginIsAllowed s target length flags capture = .none) :
    flags = updateFlagsNone ∨ flags = updateFlagFactoryWrite := by
  unfold updateBeginIsAllowed at h
  split at h; · cases h
  split at h; · cases h
  split at h; · cases h
  tauto

/-- A BEGIN that is allowed has a length that fits its field. -/
theorem updateBeginIsAllowed_length {s : UpdateState} {target : Byte} {length flags : Nat}
    {capture : Bool} (h : updateBeginIsAllowed s target length flags capture = .none) :
    0 < length ∧ length ≤ updateEpcsSize := by
  have capacity : updateEpcsTargetCapacity target ≤ updateEpcsSize := by
    unfold updateEpcsTargetCapacity
    split <;> decide
  have minimum : 0 < updateGatewareMinimumLength ∧ 0 < updateImageMinimumLength ∧
      updateEepromSize ≤ updateEpcsSize := by decide
  rcases (updateBeginIsAllowed_none h).2.2 with ⟨_, low, high⟩ | ⟨_, low, high⟩ <;> omega

theorem updateEpcsTarget_eq {target : Byte} (h : updateTargetIsEpcs target = true) :
    target = updateTargetEpcs ∨ target = updateTargetEpcsFactory := by
  simpa [updateTargetIsEpcs] using h

theorem length_bootBlockBytes (address length : Nat) (imageCrc : BitVec 32) :
    (bootBlockBytes address length imageCrc).length = updateBootBlockLength := rfl

theorem updateEpcsWriteSpan_pos (address : Nat) {remaining : Nat} (h : 0 < remaining) :
    0 < updateEpcsWriteSpan address remaining := by
  unfold updateEpcsWriteSpan updateEpcsPageSize
  split <;> omega

theorem updateEepromWriteSpan_pos (address : Nat) {remaining : Nat} (h : 0 < remaining) :
    0 < updateEepromWriteSpan address remaining := by
  unfold updateEepromWriteSpan updateEepromPageSize
  split <;> omega

end UpdateProtocol
