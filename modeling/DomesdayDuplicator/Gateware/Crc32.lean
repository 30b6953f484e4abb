import DomesdayDuplicator.Foundations.ReflectedCrc

/-!
# The checksum register

`crc32.v`: one byte folded a clock, the register started again on request, the
result inverted on the way out.
-/

namespace Crc32

abbrev Byte := BitVec 8

def polynomial : BitVec 32 := 0xEDB88320#32
def initialValue : BitVec 32 := 0xFFFFFFFF#32

/-- One turn of the loop in `fold_byte`. -/
def foldBit (working : BitVec 32) : BitVec 32 :=
  if working.getLsbD 0 then (working >>> 1) ^^^ polynomial else working >>> 1

def foldByte (current : BitVec 32) (value : Byte) : BitVec 32 :=
  Nat.repeat foldBit 8 (current ^^^ (0#24 ++ value))

/-- One edge of the clock. -/
def clock (restart dataValid : Bool) (data : Byte) (state : BitVec 32) : BitVec 32 :=
  if restart then
    if dataValid then foldByte initialValue data else initialValue
  else if dataValid then foldByte state data
  else state

def crc (state : BitVec 32) : BitVec 32 := ~~~state

/-- The register after the bytes of a message, one a valid clock. -/
def folded (message : List Byte) : BitVec 32 :=
  message.foldl foldByte initialValue

/-- What the module reports for a message. -/
def crcOf (message : List Byte) : BitVec 32 := crc (folded message)

theorem foldBit_eq_bitStep (working : BitVec 32) :
    foldBit working = ReflectedCrc.bitStep polynomial working := rfl

theorem foldByte_eq_byteStep (current : BitVec 32) (value : Byte) :
    foldByte current value = ReflectedCrc.byteStep polynomial current value := by
  have widened : (0#24 ++ value : BitVec 32) = value.setWidth 32 := by
    apply BitVec.eq_of_getLsbD_eq
    intro i hi
    simp only [BitVec.getLsbD_append, BitVec.getLsbD_setWidth, hi, decide_true, Bool.true_and]
    by_cases low : i < 8
    · simp [low]
    · rw [BitVec.getLsbD_of_ge value i (by omega)]
      simp [low]
  unfold foldByte
  rw [widened]
  rfl

theorem folded_eq_fold (message : List Byte) :
    folded message = ReflectedCrc.fold polynomial initialValue message := by
  have : foldByte = ReflectedCrc.byteStep polynomial := by
    funext current value
    exact foldByte_eq_byteStep current value
  rw [folded, this, ReflectedCrc.fold]

@[simp] theorem folded_nil : folded [] = initialValue := rfl

theorem folded_append_singleton (message : List Byte) (value : Byte) :
    folded (message ++ [value]) = foldByte (folded message) value := by
  simp [folded]

end Crc32
