import DomesdayDuplicator.Firmware.UpdateProtocol
import DomesdayDuplicator.Gateware.BootLoader

/-!
# The boot block

The twenty-four bytes at `0x100000`, as the firmware writes them with
`updateBootBlockEncode`, as `make-boot-block.py` writes them, and as the boot
loader takes them in.
-/

/-! ## The builder's script -/

namespace MakeBootBlock

open ByteLanes (little)

abbrev Byte := BitVec 8

def magic : Nat := 0x44444242
def layoutVersion : Nat := 1
def bootBlockAddress : Nat := 0x100000
def applicationAddress : Nat := 0x200000
def deviceBytes : Nat := 0x800000
def blockBytes : Nat := 24
def headerBytes : Nat := 20

/-- `zlib.crc32` of one buffer: a table look-up a byte. -/
def crc32 (data : List Byte) : BitVec 32 :=
  data.foldl (ReflectedCrc.tableStep 0xEDB88320) 0xFFFFFFFF ^^^ 0xFFFFFFFF

/-- One unsigned field of a `struct.pack` with `<`. -/
def packLittle (width value : Nat) : List Byte :=
  (List.range width).map fun k => BitVec.ofNat 8 (value / 256 ^ k)

def packBig (width value : Nat) : List Byte :=
  (packLittle width value).reverse

def header (address length : Nat) (imageCrc : BitVec 32) : List Byte :=
  packLittle 4 (little (packBig 4 magic)) ++ packLittle 2 layoutVersion ++ packLittle 2 0 ++
    packLittle 4 address ++ packLittle 4 length ++ packLittle 4 imageCrc.toNat

def block (address length : Nat) (imageCrc : BitVec 32) : List Byte :=
  let header := header address length imageCrc
  header ++ packLittle 4 (crc32 header).toNat

/-- The format `#08x`. -/
def hex08 (n : Int) : String :=
  let sign := if n < 0 then "-" else ""
  let digits := Nat.toDigits 16 n.natAbs
  let width := 8 - 2 - sign.length
  sign ++ "0x" ++ String.ofList (List.replicate (width - digits.length) '0' ++ digits)

def build (image : List Byte) (address : Int) : Except String (List Byte) :=
  if image = [] then .error "the application image is empty"
  else if address + image.length > deviceBytes then
    .error ("an image of " ++ toString image.length ++ " bytes at " ++ hex08 address ++
      " runs past the end of the device")
  else if address < bootBlockAddress then
    .error ("an application image at " ++ hex08 address ++
      " would overlap the factory image or the boot block")
  else .ok (block address.toNat image.length (crc32 image))

end MakeBootBlock

namespace BootBlock

open ByteLanes
open BootLoader UpdateProtocol

/-! ## One checksum -/

theorem updateCrc32Bit_eq_bitStep (crc : BitVec 32) :
    updateCrc32Bit crc = ReflectedCrc.bitStep updateCrc32Polynomial crc := by
  have lowest : crc &&& 1 ≠ 0 ↔ crc.getLsbD 0 = true := by
    rw [ne_eq, ← BitVec.toNat_inj, BitVec.toNat_and]
    simp [BitVec.getLsbD, Nat.testBit_zero]
  simp only [updateCrc32Bit, ReflectedCrc.bitStep, lowest]

theorem repeat_updateCrc32Bit (crc : BitVec 32) :
    Nat.repeat updateCrc32Bit 8 crc = ReflectedCrc.bits updateCrc32Polynomial 8 crc := by
  simp only [Nat.repeat, ReflectedCrc.bits, updateCrc32Bit_eq_bitStep]

theorem updateCrc32Update_eq_fold (crc : BitVec 32) (data : List Byte) :
    updateCrc32Update crc data = ReflectedCrc.fold updateCrc32Polynomial crc data := by
  simp only [updateCrc32Update, repeat_updateCrc32Bit]
  rfl

theorem xor_ones (x : BitVec 32) : x ^^^ 0xFFFFFFFF = ~~~x :=
  BitVec.xor_allOnes

theorem updateCrc32_blocks (blocks : List (List Byte)) :
    updateCrc32Final (blocks.foldl updateCrc32Update updateCrc32Initial) =
      Crc32.crcOf blocks.flatten := by
  have register : updateCrc32Update = ReflectedCrc.fold updateCrc32Polynomial := by
    funext crc data
    exact updateCrc32Update_eq_fold crc data
  rw [register, ReflectedCrc.foldl_fold_eq_fold_flatten, Crc32.crcOf, Crc32.folded_eq_fold,
    Crc32.crc, updateCrc32Final, xor_ones]
  rfl

theorem crc32_eq_crcOf (data : List Byte) : MakeBootBlock.crc32 data = Crc32.crcOf data := by
  rw [MakeBootBlock.crc32, ReflectedCrc.fold_table, Crc32.crcOf, Crc32.folded_eq_fold, Crc32.crc,
    xor_ones]
  rfl

/-! ## One layout -/

theorem writeLittleEndian16_eq (value : Nat) :
    updateWriteLittleEndian16 value = MakeBootBlock.packLittle 2 value := by
  simp [updateWriteLittleEndian16, MakeBootBlock.packLittle, List.range_succ]

theorem writeLittleEndian32_eq (value : Nat) :
    updateWriteLittleEndian32 value = MakeBootBlock.packLittle 4 value := by
  simp [updateWriteLittleEndian32, MakeBootBlock.packLittle, List.range_succ]

theorem bootBlockHeader_eq (address length : Nat) (imageCrc : BitVec 32) :
    bootBlockHeader address length imageCrc = MakeBootBlock.header address length imageCrc := by
  have magic : [updateBootBlockMagic0, updateBootBlockMagic1, updateBootBlockMagic2,
      updateBootBlockMagic3] =
      MakeBootBlock.packLittle 4 (little (MakeBootBlock.packBig 4 MakeBootBlock.magic)) := by
    decide
  simp only [bootBlockHeader, MakeBootBlock.header, writeLittleEndian16_eq,
    writeLittleEndian32_eq, magic]
  rfl

theorem headerCrc_eq (data : List Byte) :
    updateCrc32Final (updateCrc32Update updateCrc32Initial data) = Crc32.crcOf data := by
  simpa using updateCrc32_blocks [data]

theorem bootBlockBytes_eq (address length : Nat) (imageCrc : BitVec 32) :
    UpdateProtocol.bootBlockBytes address length imageCrc =
      MakeBootBlock.block address length imageCrc := by
  simp only [UpdateProtocol.bootBlockBytes, MakeBootBlock.block, headerCrc_eq, crc32_eq_crcOf,
    bootBlockHeader_eq, writeLittleEndian32_eq]

theorem take_encoded (out : List Byte) (address length : Nat) (imageCrc : BitVec 32) :
    (updateBootBlockEncode out address length imageCrc).take updateBootBlockLength =
      UpdateProtocol.bootBlockBytes address length imageCrc := by
  rw [updateBootBlockEncode, List.take_append_of_le_length]
  · exact List.take_of_length_le (length_bootBlockBytes _ _ _).le
  · exact (length_bootBlockBytes _ _ _).ge

/-! ## What the boot loader makes of it -/

/-- The header after the first `n` bytes of a block. -/
def captured (block : Nat → Byte) : Nat → Header
  | 0 => reset.header
  | n + 1 => (captured block n).capture (BitVec.ofNat 5 n) (block n)

theorem captured_fields (block : Nat → Byte) : captured block 24 =
    { magic := ofLanes 32 [block 3, block 2, block 1, block 0]
      layoutVersion := ofLanes 16 [block 4, block 5]
      applicationAddress := ofLanes 32 [block 8, block 9, block 10, block 11]
      applicationLength := ofLanes 32 [block 12, block 13, block 14, block 15]
      applicationCrc := ofLanes 32 [block 16, block 17, block 18, block 19]
      headerCrc := ofLanes 32 [block 20, block 21, block 22, block 23] } := by
  have magic : setLane (setLane (setLane (setLane (0 : BitVec 32) 3 (block 0)) 2 (block 1)) 1
      (block 2)) 0 (block 3) = ofLanes 32 [block 3, block 2, block 1, block 0] := by
    apply eq_of_lanes
    intro k hk
    have : k = 0 ∨ k = 1 ∨ k = 2 ∨ k = 3 := by omega
    rw [lane_ofLanes (by simp)]
    rcases this with rfl | rfl | rfl | rfl
    · simp [lane_setLane_same]
    · simp [lane_setLane_same, lane_setLane_ne]
    · simp [lane_setLane_same, lane_setLane_ne]
    · simp [lane_setLane_same, lane_setLane_ne]
  rw [← magic]
  rfl

theorem headerValid_iff (h : Header) (crcValue : BitVec 32) :
    headerValid h crcValue = true ↔
      h.magic = bootBlockMagic ∧ h.layoutVersion = supportedLayoutVersion ∧
      h.applicationLength.toNat ≠ 0 ∧ h.applicationAddress.toNat < 2 ^ 23 ∧
      (h.applicationAddress.toNat + h.applicationLength.toNat) % 2 ^ 32 ≤ 0x800000 ∧
      h.headerCrc = crcValue := by
  have some : h.applicationLength ≠ 0 ↔ h.applicationLength.toNat ≠ 0 := by
    rw [ne_eq, ← BitVec.toNat_inj]
    rfl
  have low : h.applicationAddress.extractLsb' 23 9 = 0 ↔ h.applicationAddress.toNat < 2 ^ 23 := by
    rw [← BitVec.toNat_inj, BitVec.extractLsb'_toNat, Nat.shiftRight_eq_div_pow]
    simp
    omega
  simp only [headerValid, Bool.and_eq_true, beq_iff_eq, bne_iff_ne, decide_eq_true_eq, some, low,
    BitVec.le_def, BitVec.toNat_add, and_assoc]
  rfl

/-- The checks as they read on the bytes of the block. -/
theorem captured_valid_iff (block : Nat → Byte) (crcValue : BitVec 32) :
    headerValid (captured block 24) crcValue = true ↔
      little [block 3, block 2, block 1, block 0] = 0x44444242 ∧
      little [block 4, block 5] = 1 ∧
      little [block 12, block 13, block 14, block 15] ≠ 0 ∧
      little [block 8, block 9, block 10, block 11] < 2 ^ 23 ∧
      (little [block 8, block 9, block 10, block 11] +
        little [block 12, block 13, block 14, block 15]) % 2 ^ 32 ≤ 0x800000 ∧
      little [block 20, block 21, block 22, block 23] = crcValue.toNat := by
  rw [headerValid_iff, captured_fields]
  simp only [← BitVec.toNat_inj]
  rw [toNat_ofLanes (by simp), toNat_ofLanes (by simp), toNat_ofLanes (by simp),
    toNat_ofLanes (by simp), toNat_ofLanes (by simp)]
  rfl

theorem little_writeLittleEndian32 {n : Nat} (fits : n < 2 ^ 32) :
    little (updateWriteLittleEndian32 n) = n := by
  simp [updateWriteLittleEndian32, little]
  omega

/-- The boot loader accepts every block that describes a range of the device. -/
theorem encoded_valid {address length : Nat} (some : 0 < length)
    (within : address + length ≤ 0x800000) (imageCrc : BitVec 32) :
    let block := fun k => (UpdateProtocol.bootBlockBytes address length imageCrc).getD k 0
    headerValid (captured block 24) (Crc32.crcOf ((List.range 20).map block)) = true := by
  intro block
  have header : (List.range 20).map block = bootBlockHeader address length imageCrc := by
    rfl
  have magicField : little [block 3, block 2, block 1, block 0] =
      little [updateBootBlockMagic3, updateBootBlockMagic2, updateBootBlockMagic1,
        updateBootBlockMagic0] := rfl
  have addressField : little [block 8, block 9, block 10, block 11] = address :=
    little_writeLittleEndian32 (n := address) (by omega)
  have lengthField : little [block 12, block 13, block 14, block 15] = length :=
    little_writeLittleEndian32 (n := length) (by omega)
  have crcField : little [block 20, block 21, block 22, block 23] =
      (updateCrc32Final (updateCrc32Update updateCrc32Initial
        (bootBlockHeader address length imageCrc))).toNat :=
    little_writeLittleEndian32 (BitVec.isLt _)
  rw [captured_valid_iff, magicField, addressField, lengthField, crcField, header, headerCrc_eq]
  exact ⟨by decide, rfl, by omega, by omega, by omega, rfl⟩

theorem build_ok {image : List Byte} {address : Nat}
    (low : MakeBootBlock.bootBlockAddress ≤ address) (some : 0 < image.length)
    (within : address + image.length ≤ MakeBootBlock.deviceBytes) :
    MakeBootBlock.build image address =
      .ok (MakeBootBlock.block address image.length (MakeBootBlock.crc32 image)) := by
  have image_ne : image ≠ [] := List.length_pos_iff.mp some
  rw [MakeBootBlock.build, if_neg image_ne, if_neg (by omega), if_neg (by omega), Int.toNat_natCast]

/-- The three checksums are one, for an image cut anywhere, and the two encoders write
the same twenty-four bytes, which the boot loader accepts. -/
theorem encoders_agree :
    (∀ blocks : List (List Byte),
      updateCrc32Final (blocks.foldl updateCrc32Update updateCrc32Initial) =
        MakeBootBlock.crc32 blocks.flatten ∧
      MakeBootBlock.crc32 blocks.flatten = Crc32.crcOf blocks.flatten) ∧
    ∀ (address length : Nat) (imageCrc : BitVec 32) (out : List Byte),
      MakeBootBlock.bootBlockAddress ≤ address → 0 < length →
      address + length ≤ MakeBootBlock.deviceBytes →
      let written := (updateBootBlockEncode out address length imageCrc).take
        updateBootBlockLength
      written = MakeBootBlock.block address length imageCrc ∧
      (∀ image : List Byte, image.length = length → MakeBootBlock.crc32 image = imageCrc →
        MakeBootBlock.build image address = .ok written) ∧
      headerValid (captured (fun k => written.getD k 0) 24)
        (Crc32.crcOf (written.take updateBootBlockHeaderLength)) = true := by
  constructor
  · intro blocks
    exact ⟨(updateCrc32_blocks blocks).trans (crc32_eq_crcOf _).symm, crc32_eq_crcOf _⟩
  · intro address length imageCrc out low some within written
    have bytes_eq : written = UpdateProtocol.bootBlockBytes address length imageCrc :=
      take_encoded out address length imageCrc
    have same : written = MakeBootBlock.block address length imageCrc :=
      bytes_eq.trans (bootBlockBytes_eq address length imageCrc)
    refine ⟨same, ?_, ?_⟩
    · rintro image rfl rfl
      rw [build_ok low some within, same]
    · have accepted := encoded_valid some within imageCrc
      rw [bytes_eq]
      exact accepted

theorem one_byte_image : MakeBootBlock.build [0] 0x200000 =
    .ok ((updateBootBlockEncode (List.replicate 32 0) 0x200000 1
      (MakeBootBlock.crc32 [0])).take 24) :=
  (encoders_agree.2 0x200000 1 (MakeBootBlock.crc32 [0]) (List.replicate 32 0) (by decide)
    (by decide) (by decide)).2.1 [0] rfl rfl

/-- Past the twenty-four bytes lies whatever the buffer held. -/
theorem thirty_two_bytes : ∃ block, MakeBootBlock.build [0] 0x200000 = .ok block ∧
    (updateBootBlockEncode (List.replicate 32 0) 0x200000 1 (MakeBootBlock.crc32 [0])).take 32 ≠
      block := by
  refine ⟨_, build_ok (by decide) (by decide) (by decide), ?_⟩
  rintro same
  have := congrArg List.length same
  simp [updateBootBlockEncode, ← bootBlockBytes_eq, length_bootBlockBytes,
    updateBootBlockLength] at this

end BootBlock
