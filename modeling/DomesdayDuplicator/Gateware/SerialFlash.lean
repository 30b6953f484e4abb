import DomesdayDuplicator.Foundations.ByteLanes
import DomesdayDuplicator.Gateware.FlashBridge
import Mathlib.Logic.Function.Iterate

/-!
# The configuration flash behind the bridge

The EPCS device of `epcsFlashModel.v`: a command and an address shifted in on the
rising edges of its clock, bytes shifted out on the falling ones. Its contents are
a parameter, a byte for each of the addresses its counter runs through. The bit
count is not bounded, so a read may run as long as it likes.
-/

namespace SerialFlash

open ByteLanes
open FlashBridge (Byte Pins Window)

abbrev Content := BitVec 24 → Byte

def commandRead : Byte := 0x03
def commandReadSiliconId : Byte := 0xAB
def siliconId : Byte := 0x16

structure Registers where
  command : Byte
  address : BitVec 24
  shiftOut : Byte
  shiftIn : Byte
  bitCount : Nat
  dataOut : Bool
  deriving DecidableEq, Repr

def initial : Registers := ⟨0, 0, 0xFF, 0, 0, true⟩

/-- The falling edge of chip select. -/
def select (f : Registers) : Registers :=
  { f with command := 0, bitCount := 0, shiftIn := 0, shiftOut := 0xFF }

/-- A complete byte has been shifted in. -/
def boundary (content : Content) (f : Registers) : Registers :=
  if f.bitCount = 8 then
    { f with command := f.shiftIn,
             shiftOut := if f.shiftIn = commandReadSiliconId then 0xFF else f.shiftOut }
  else if f.command = commandRead then
    if f.bitCount = 16 then { f with address := setLane f.address 2 f.shiftIn }
    else if f.bitCount = 24 then { f with address := setLane f.address 1 f.shiftIn }
    else if f.bitCount = 32 then
      { f with address := setLane f.address 0 f.shiftIn,
               shiftOut := content (setLane f.address 0 f.shiftIn) }
    else if 32 < f.bitCount then
      { f with address := f.address + 1, shiftOut := content (f.address + 1) }
    else f
  else if f.command = commandReadSiliconId then
    if 32 ≤ f.bitCount then { f with shiftOut := siliconId } else f
  else f

def rise (content : Content) (dataIn : Bool) (f : Registers) : Registers :=
  let taken := { f with shiftIn := f.shiftIn.shiftConcat dataIn, bitCount := f.bitCount + 1 }
  if taken.bitCount % 8 = 0 then boundary content taken else taken

def fall (f : Registers) : Registers :=
  { f with dataOut := f.shiftOut.msb, shiftOut := f.shiftOut.shiftConcat true }

/-- The edges between two settings of the pins. -/
def observe (content : Content) (before after : Pins) (f : Registers) : Registers :=
  let f := if before.chipSelectN && !after.chipSelectN then select f else f
  let f := if !before.dclk && after.dclk && !after.chipSelectN then
    rise content after.dataIn f else f
  if before.dclk && !after.dclk && !after.chipSelectN then fall f else f

theorem observe_same (content : Content) (p : Pins) (f : Registers) :
    observe content p p f = f := by
  simp [observe]

/-! ## Bits and bytes -/

/-- One period of the flash clock. -/
def cell (content : Content) (dataIn : Bool) (f : Registers) : Registers :=
  fall (rise content dataIn f)

/-- The bits of a byte, most significant first, fill a shift register. -/
theorem shiftConcat_bits (x b : Byte) :
    ((((((((x.shiftConcat (b.getLsbD 7)).shiftConcat (b.getLsbD 6)).shiftConcat
      (b.getLsbD 5)).shiftConcat (b.getLsbD 4)).shiftConcat (b.getLsbD 3)).shiftConcat
      (b.getLsbD 2)).shiftConcat (b.getLsbD 1)).shiftConcat (b.getLsbD 0)) = b := by
  apply BitVec.eq_of_getLsbD_eq
  intro i hi
  have : i = 0 ∨ i = 1 ∨ i = 2 ∨ i = 3 ∨ i = 4 ∨ i = 5 ∨ i = 6 ∨ i = 7 := by omega
  rcases this with rfl | rfl | rfl | rfl | rfl | rfl | rfl | rfl <;>
    simp

/-- Off a byte boundary a period only shifts. -/
theorem cell_within (content : Content) (dataIn : Bool) {f : Registers}
    (h : (f.bitCount + 1) % 8 ≠ 0) : cell content dataIn f =
      { f with shiftIn := f.shiftIn.shiftConcat dataIn, bitCount := f.bitCount + 1,
               dataOut := f.shiftOut.msb, shiftOut := f.shiftOut.shiftConcat true } := by
  simp only [cell, rise, if_neg h, fall]

theorem cell_boundary (content : Content) (dataIn : Bool) {f : Registers}
    (h : (f.bitCount + 1) % 8 = 0) : cell content dataIn f = fall (boundary content
      { f with shiftIn := f.shiftIn.shiftConcat dataIn, bitCount := f.bitCount + 1 }) := by
  simp only [cell, rise, if_pos h]

/-- The output bit is replaced by the falling edge that ends a byte. -/
theorem fall_boundary_dataOut (content : Content) (f : Registers) (d : Bool) :
    fall (boundary content { f with dataOut := d }) = fall (boundary content f) := by
  unfold boundary
  dsimp only
  split_ifs <;> rfl

/-- Seven bits have gone out and seven ones come in. -/
def drained (out : Byte) : Byte :=
  ((((((out.shiftConcat true).shiftConcat true).shiftConcat true).shiftConcat true).shiftConcat
    true).shiftConcat true).shiftConcat true

/-- The device after it has been sent a whole byte. -/
def takeByte (content : Content) (byte : Byte) (f : Registers) : Registers :=
  fall (boundary content
    { f with bitCount := f.bitCount + 8, shiftIn := byte, shiftOut := drained f.shiftOut })

theorem cells_byte (content : Content) (byte : Byte) {f : Registers}
    (aligned : f.bitCount % 8 = 0) :
    cell content (byte.getLsbD 0) (cell content (byte.getLsbD 1) (cell content (byte.getLsbD 2)
      (cell content (byte.getLsbD 3) (cell content (byte.getLsbD 4) (cell content (byte.getLsbD 5)
        (cell content (byte.getLsbD 6) (cell content (byte.getLsbD 7) f))))))) =
      takeByte content byte f := by
  rw [cell_within content (byte.getLsbD 7) (by omega)]
  rw [cell_within content (byte.getLsbD 6) (by dsimp only; omega)]
  rw [cell_within content (byte.getLsbD 5) (by dsimp only; omega)]
  rw [cell_within content (byte.getLsbD 4) (by dsimp only; omega)]
  rw [cell_within content (byte.getLsbD 3) (by dsimp only; omega)]
  rw [cell_within content (byte.getLsbD 2) (by dsimp only; omega)]
  rw [cell_within content (byte.getLsbD 1) (by dsimp only; omega)]
  rw [cell_boundary content (byte.getLsbD 0) (by dsimp only; omega)]
  dsimp only
  rw [shiftConcat_bits]
  exact fall_boundary_dataOut content
    { f with bitCount := f.bitCount + 8, shiftIn := byte, shiftOut := drained f.shiftOut } _

/-- The eight bits the device puts out before its shift register is loaded again. -/
def served (f : Registers) : Byte :=
  BitVec.ofBool f.dataOut ++ f.shiftOut.extractLsb' 1 7

/-! ## The bridge and the device together -/

structure Link where
  bridge : FlashBridge.Registers
  flash : Registers
  deriving DecidableEq, Repr

/-- One edge of the clock; the device sees the pins change. -/
def Link.clock (content : Content) (w : Window) (l : Link) : Link :=
  let bridge := FlashBridge.clock w l.flash.dataOut l.bridge
  ⟨bridge, observe content (FlashBridge.pins l.bridge) (FlashBridge.pins bridge) l.flash⟩

/-- Both shift registers after `k` bits of a byte. -/
def exchange (content : Content) (byte taken : Byte) (f : Registers) : Nat → Byte × Registers
  | 0 => (taken, f)
  | k + 1 =>
    let before := exchange content byte taken f k
    (before.1.shiftConcat before.2.dataOut, cell content (byte.getLsbD (7 - k)) before.2)

theorem getLsbD_served (f : Registers) (i : Nat) : (served f).getLsbD i =
    if i < 7 then f.shiftOut.getLsbD (i + 1) else (BitVec.ofBool f.dataOut).getLsbD (i - 7) := by
  have split := @BitVec.getLsbD_append 1 7 i (BitVec.ofBool f.dataOut) (f.shiftOut.extractLsb' 1 7)
  rw [served]
  refine split.trans ?_
  by_cases h : i < 7
  · simp [h, Nat.add_comm]
  · simp [h]

theorem exchange_eight (content : Content) (byte taken : Byte) {f : Registers}
    (aligned : f.bitCount % 8 = 0) :
    exchange content byte taken f 8 = (served f, takeByte content byte f) := by
  simp only [exchange, Nat.sub_self, Nat.reduceSub, Nat.sub_zero]
  rw [cells_byte content byte aligned]
  rw [cell_within content (byte.getLsbD 7) (by omega)]
  rw [cell_within content (byte.getLsbD 6) (by dsimp only; omega)]
  rw [cell_within content (byte.getLsbD 5) (by dsimp only; omega)]
  rw [cell_within content (byte.getLsbD 4) (by dsimp only; omega)]
  rw [cell_within content (byte.getLsbD 3) (by dsimp only; omega)]
  rw [cell_within content (byte.getLsbD 2) (by dsimp only; omega)]
  rw [cell_within content (byte.getLsbD 1) (by dsimp only; omega)]
  dsimp only
  rw [Prod.mk.injEq]
  refine ⟨?_, rfl⟩
  rw [← shiftConcat_bits taken (served f)]
  have top : (served f).getLsbD 7 = f.dataOut := by
    rw [getLsbD_served, if_neg (by decide)]
    cases f.dataOut <;> rfl
  have low : ∀ i, i < 7 → (served f).getLsbD i = f.shiftOut.getLsbD (i + 1) := by
    intro i hi
    rw [getLsbD_served, if_pos hi]
  rw [top, low 0 (by omega), low 1 (by omega), low 2 (by omega), low 3 (by omega),
    low 4 (by omega), low 5 (by omega), low 6 (by omega)]
  simp [BitVec.msb_eq_getLsbD_last]

/-- A shift under way, `k` bits of its byte done. -/
def underWay (progress : BitVec 2) (byte taken last : Byte) (k : Nat) :
    FlashBridge.Registers :=
  ⟨progress, true, true, 0, false, BitVec.ofNat 4 (8 - k), byte <<< k, taken, last, true⟩

theorem bit_period (content : Content) {w : Window} (silent : w.Silent) (progress : BitVec 2)
    (bits : BitVec 4) (out taken last : Byte) (f : Registers) :
    (Link.clock content w)^[8] ⟨⟨progress, true, true, 0, false, bits, out, taken, last, true⟩, f⟩ =
      ⟨⟨progress, true, true, 0, false, bits - 1, out.shiftConcat false,
          taken.shiftConcat f.dataOut, if bits = 1#4 then taken.shiftConcat f.dataOut else last,
          !(bits == 1#4)⟩,
        cell content out.msb f⟩ := by
  have quiet : w.write = false := silent
  simp [Link.clock, FlashBridge.clock_silent silent, FlashBridge.shift,
    FlashBridge.startShift, Window.writeDataRegister, quiet, FlashBridge.halfPeriod, observe,
    FlashBridge.pins, cell]

theorem msb_shiftLeft (byte : Byte) {k : Nat} (h : k < 8) :
    (byte <<< k).msb = byte.getLsbD (7 - k) := by
  rw [BitVec.msb_eq_getLsbD_last, BitVec.getLsbD_shiftLeft]
  simp
  omega

theorem shiftConcat_shiftLeft (byte : Byte) (k : Nat) :
    (byte <<< k).shiftConcat false = byte <<< (k + 1) := by
  apply BitVec.eq_of_getLsbD_eq
  intro i hi
  rw [BitVec.getLsbD_shiftConcat, BitVec.getLsbD_shiftLeft]
  rcases Nat.eq_zero_or_pos i with rfl | positive
  · simp
  · rw [if_neg (by omega), BitVec.getLsbD_shiftLeft]
    simp only [hi, show i - 1 < 8 by omega, show i - (k + 1) = i - 1 - k by omega,
      show i < k + 1 ↔ i - 1 < k by omega, decide_true, Bool.true_and]

theorem byte_period (content : Content) {w : Window} (silent : w.Silent) (progress : BitVec 2)
    (byte taken last : Byte) (f : Registers) {k : Nat} (hk : k ≤ 7) :
    (Link.clock content w)^[8 * k] ⟨underWay progress byte taken last 0, f⟩ =
      ⟨underWay progress byte (exchange content byte taken f k).1 last k,
        (exchange content byte taken f k).2⟩ := by
  induction k with
  | zero => rfl
  | succ k ih =>
    have more : BitVec.ofNat 4 (8 - k) ≠ 1#4 := by
      intro h
      have := congrArg BitVec.toNat h
      simp at this
      omega
    have less : BitVec.ofNat 4 (8 - k) - 1 = BitVec.ofNat 4 (8 - (k + 1)) := by
      apply BitVec.eq_of_toNat_eq
      simp
      omega
    rw [Nat.mul_succ, Nat.add_comm, Function.iterate_add_apply, ih (by omega), underWay,
      bit_period content silent, if_neg more, beq_false_of_ne more, less,
      shiftConcat_shiftLeft, msb_shiftLeft byte (by omega)]
    rfl

/-- A whole byte: the device has taken it and the bridge has taken the device's. -/
theorem byte_exchanged (content : Content) {w : Window} (silent : w.Silent) (progress : BitVec 2)
    (byte last : Byte) {f : Registers} (aligned : f.bitCount % 8 = 0) :
    (Link.clock content w)^[64] ⟨underWay progress byte 0 last 0, f⟩ =
      ⟨⟨progress, true, true, 0, false, 0, 0, served f, served f, false⟩,
        takeByte content byte f⟩ := by
  have whole := exchange_eight content byte 0 aligned
  have seven := byte_period content silent progress byte 0 last f (Nat.le_refl 7)
  rw [show 64 = 8 + 8 * 7 from rfl, Function.iterate_add_apply, seven, underWay,
    bit_period content silent, if_pos rfl, shiftConcat_shiftLeft, msb_shiftLeft byte (by omega)]
  rw [exchange] at whole
  obtain ⟨received, taken⟩ := Prod.mk.inj whole
  rw [received, taken]
  have out : byte <<< (7 + 1) = 0#8 := by
    simp
  rw [out]
  rfl

/-! ## Reading -/

@[simp] theorem boundary_bitCount (content : Content) (f : Registers) :
    (boundary content f).bitCount = f.bitCount := by
  unfold boundary
  split_ifs <;> rfl

theorem takeByte_bitCount (content : Content) (byte : Byte) (f : Registers) :
    (takeByte content byte f).bitCount = f.bitCount + 8 := by
  simp [takeByte, fall]

/-- A read in progress, the byte at `address` the next to go out. -/
structure Reading (content : Content) (address : BitVec 24) (f : Registers) : Prop where
  command : f.command = commandRead
  aligned : f.bitCount % 8 = 0
  addressed : 32 ≤ f.bitCount
  counter : f.address = address
  first : f.dataOut = (content address).msb
  others : f.shiftOut = (content address).shiftConcat true

theorem Reading.served {content : Content} {address : BitVec 24} {f : Registers}
    (h : Reading content address f) : served f = content address := by
  apply BitVec.eq_of_getLsbD_eq
  intro i hi
  rw [getLsbD_served, h.first, h.others]
  by_cases low : i < 7
  · rw [if_pos low, BitVec.getLsbD_shiftConcat]
    simp [show i + 1 < 8 by omega]
  · have : i = 7 := by omega
    subst this
    rw [if_neg low, BitVec.msb_eq_getLsbD_last]
    cases (content address).getLsbD (8 - 1) <;> rfl

/-- Whatever is sent meanwhile, the device moves on to the next address. -/
theorem Reading.next {content : Content} {address : BitVec 24} {f : Registers}
    (h : Reading content address f) (byte : Byte) :
    Reading content (address + 1) (takeByte content byte f) := by
  obtain ⟨command, aligned, addressed, counter, -, -⟩ := h
  have past : boundary content
      { f with bitCount := f.bitCount + 8, shiftIn := byte, shiftOut := drained f.shiftOut } =
      { f with bitCount := f.bitCount + 8, shiftIn := byte, address := address + 1,
               shiftOut := content (address + 1) } := by
    unfold boundary
    dsimp only
    rw [if_neg (by omega), if_pos command, if_neg (by omega), if_neg (by omega),
      if_neg (by omega), if_pos (by omega), counter]
  unfold takeByte
  rw [past]
  refine ⟨command, ?_, ?_, rfl, rfl, rfl⟩
  · show (f.bitCount + 8) % 8 = 0
    omega
  · show 32 ≤ f.bitCount + 8
    omega

/-- The device after a run of bytes. -/
def takeBytes (content : Content) (bytes : List Byte) (f : Registers) : Registers :=
  bytes.foldl (fun f byte => takeByte content byte f) f

theorem takeBytes_bitCount (content : Content) (bytes : List Byte) (f : Registers) :
    (takeBytes content bytes f).bitCount = f.bitCount + 8 * bytes.length := by
  induction bytes generalizing f with
  | nil => rfl
  | cons byte rest ih =>
    show (takeBytes content rest (takeByte content byte f)).bitCount = _
    rw [ih, takeByte_bitCount, List.length_cons]
    omega

/-- The four bytes that begin a read. -/
def readCommand (address : BitVec 24) : List Byte :=
  [commandRead, lane address 2, lane address 1, lane address 0]

theorem address_assembled (address old : BitVec 24) :
    setLane (setLane (setLane old 2 (lane address 2)) 1 (lane address 1)) 0 (lane address 0) =
      address := by
  apply eq_of_lanes
  intro k hk
  have : k = 0 ∨ k = 1 ∨ k = 2 := by omega
  rcases this with rfl | rfl | rfl
  · rw [lane_setLane_same _ _ (by decide)]
  · rw [lane_setLane_ne _ _ (by decide), lane_setLane_same _ _ (by decide)]
  · rw [lane_setLane_ne _ _ (by decide), lane_setLane_ne _ _ (by decide),
      lane_setLane_same _ _ (by decide)]

theorem reading_of_command (content : Content) (address : BitVec 24) {f : Registers}
    (selected : f.bitCount = 0) :
    Reading content address (takeBytes content (readCommand address) f) := by
  have assembled := address_assembled address f.address
  simp only [takeBytes, readCommand, List.foldl_cons, List.foldl_nil, takeByte, boundary, fall,
    selected, Nat.zero_add, Nat.reduceAdd, Nat.reduceEqDiff, if_true, if_false]
  rw [assembled]
  exact ⟨rfl, show 32 % 8 = 0 from rfl, Nat.le_refl 32, rfl, rfl, rfl⟩

end SerialFlash
