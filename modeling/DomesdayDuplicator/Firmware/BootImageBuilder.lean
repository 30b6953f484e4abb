import DomesdayDuplicator.Firmware.BootFormat

/-!
# Building a boot image

`fx3/mkimage/src/fx3-bootimage.c`: the segments of an ELF file, and the image made of them.
-/

namespace BootImageBuilder

open BootFormat UpdateProtocol

inductive Fx3Status where
  | truncated | notElf | notElf32Lsb | notArm | notExec | tooManySegments | noSegments | noMem
  deriving DecidableEq

/-! ## The ELF file -/

/-- A segment as the file describes it. -/
structure ElfSegment where
  address : BitVec 32
  offset : Nat
  fileSize : Nat
  memSize : Nat
  deriving DecidableEq

def rd16 (bytes : List Byte) (offset : Nat) : BitVec 16 :=
  bytes.getD (offset + 1) 0 ++ bytes.getD offset 0

def elfHeaderSize : Nat := 0x34
def phMinSize : Nat := 0x20

/-- The loop over the program headers, of which `left` are to come. -/
def walkHeaders (elf : List Byte) (phentsize maxSegs : Nat) :
    Nat → Nat → List ElfSegment → Except Fx3Status (List ElfSegment)
  | 0, _, segs => .ok segs
  | left + 1, ph, segs =>
    let seg : ElfSegment :=
      { address := read32 elf (ph + 0x0C)
        offset := (read32 elf (ph + 0x04)).toNat
        fileSize := (read32 elf (ph + 0x10)).toNat
        memSize := (read32 elf (ph + 0x14)).toNat }
    if read32 elf ph ≠ 1 then walkHeaders elf phentsize maxSegs left (ph + phentsize) segs
    else if seg.memSize = 0 then walkHeaders elf phentsize maxSegs left (ph + phentsize) segs
    else if seg.fileSize > seg.memSize then .error .truncated
    else if seg.offset > elf.length then .error .truncated
    else if seg.fileSize > elf.length - seg.offset then .error .truncated
    else if segs.length ≥ maxSegs then .error .tooManySegments
    else walkHeaders elf phentsize maxSegs left (ph + phentsize) (segs ++ [seg])

/-- The segments to load, and the entry point. -/
def fx3ElfParse (elf : List Byte) (maxSegs : Nat) :
    Except Fx3Status (List ElfSegment × BitVec 32) :=
  if elf.length < elfHeaderSize then .error .truncated
  else if elf.take 4 ≠ [0x7F, 0x45, 0x4C, 0x46] then .error .notElf
  else if elf.getD 4 0 ≠ 1 ∨ elf.getD 5 0 ≠ 1 then .error .notElf32Lsb
  else if rd16 elf 0x10 ≠ 2 then .error .notExec
  else if rd16 elf 0x12 ≠ 40 then .error .notArm
  else
    let phoff := (read32 elf 0x1C).toNat
    let phentsize := (rd16 elf 0x2A).toNat
    let phnum := (rd16 elf 0x2C).toNat
    if phnum = 0 ∨ phentsize < phMinSize then .error .truncated
    else if phoff > elf.length then .error .truncated
    else if phnum > (elf.length - phoff) / phentsize then .error .truncated
    else
      match walkHeaders elf phentsize maxSegs phnum phoff [] with
      | .error status => .error status
      | .ok [] => .error .noSegments
      | .ok segs => .ok (segs, read32 elf 0x18)

/-! ## The image -/

/-- A segment with its bytes: `file_size` is their number. -/
structure Segment where
  address : BitVec 32
  data : List Byte
  memSize : Nat
  deriving DecidableEq

def ElfSegment.loaded (elf : List Byte) (s : ElfSegment) : Segment :=
  ⟨s.address, (elf.drop s.offset).take s.fileSize, s.memSize⟩

def kVectorAreaEnd : Nat := 0x100
def kMaxSectionBytes : Nat := 0x10000
def kMaxSegments : Nat := 64

def roundUp4 (n : Nat) : Nat := (n + 3) / 4 * 4

/-- What is left of a segment outside the vector area, if anything is. -/
def trimVectors (s : Segment) : Option Segment :=
  if kVectorAreaEnd ≤ s.address.toNat then some s
  else
    let skip := kVectorAreaEnd - s.address.toNat
    if skip ≥ s.memSize then none
    else some ⟨BitVec.ofNat 32 kVectorAreaEnd, s.data.drop skip, s.memSize - skip⟩

def keepSegment (keepVectors : Bool) (s : Segment) : Option Segment :=
  if keepVectors then some s else trimVectors s

def sectionsOf (s : Segment) : Nat :=
  (roundUp4 s.memSize + kMaxSectionBytes - 1) / kMaxSectionBytes

/-- The size the buffer is given. -/
def imageSize (work : List Segment) : Nat :=
  work.foldl (fun total s => total + (sectionsOf s * 8 + roundUp4 s.memSize)) 4 + (8 + 4)

def wr32 (v : BitVec 32) : List Byte :=
  [v.extractLsb' 0 8, v.extractLsb' 8 8, v.extractLsb' 16 8, v.extractLsb' 24 8]

/-- The image up to `pos`, and the checksum so far. -/
structure Output where
  bytes : List Byte
  checksum : BitVec 32

/-- The bytes of one section; the buffer holds zeros where the file has nothing. -/
def chunkBytes (data : List Byte) (copied chunk : Nat) : List Byte :=
  let n := min (data.length - copied) chunk
  (data.drop copied).take n ++ List.replicate (chunk - n) 0

/-- The sections of one segment. Each turn takes a byte at least. -/
def writeSections (data : List Byte) : Nat → BitVec 32 → Nat → Nat → Output → Output
  | 0, _, _, _, out => out
  | turns + 1, address, copied, remaining, out =>
    if remaining = 0 then out
    else
      let chunk := min remaining kMaxSectionBytes
      let payload := chunkBytes data copied chunk
      writeSections data turns (address + BitVec.ofNat 32 chunk) (copied + chunk)
        (remaining - chunk)
        { bytes := out.bytes ++ wr32 (BitVec.ofNat 32 (chunk / 4)) ++ wr32 address ++ payload
          checksum := addWords payload (chunk / 4) 0 out.checksum }

def writeSegment (out : Output) (s : Segment) : Output :=
  writeSections s.data (roundUp4 s.memSize) s.address 0 (roundUp4 s.memSize) out

/-- `calloc` says whether there is memory for so many bytes. -/
def fx3BuildImage (calloc : Nat → Bool) (segs : List Segment) (entry : BitVec 32)
    (imageCtl imageType : Byte) (keepVectors : Bool) : Except Fx3Status (List Byte) :=
  if segs.length > kMaxSegments then .error .tooManySegments
  else
    let work := segs.filterMap (keepSegment keepVectors)
    if work = [] then .error .noSegments
    else if ¬ calloc (imageSize work) then .error .noMem
    else
      let out := work.foldl writeSegment
        ⟨[kSignatureFirst, kSignatureSecond, imageCtl, imageType], 0⟩
      .ok (out.bytes ++ wr32 0 ++ wr32 entry ++ wr32 out.checksum)

end BootImageBuilder
