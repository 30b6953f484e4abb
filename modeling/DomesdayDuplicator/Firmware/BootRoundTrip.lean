import DomesdayDuplicator.Firmware.BootDownload
import Mathlib.Algebra.BigOperators.Group.List.Basic

/-!
# From the segments to the device's memory

The image the builder makes is one the host's parser accepts, and sending its sections
leaves the segments' bytes in memory, but where the rounding of a later segment covers
them.
-/

namespace BootRoundTrip

open AddressSpace BootFormat BootImageBuilder BootDownload UpdateProtocol

/-! ## From segments to sections -/

theorem roundUp4_ge (n : Nat) : n ≤ roundUp4 n := by
  simp only [roundUp4]
  omega

theorem roundUp4_words (n : Nat) : roundUp4 n / 4 * 4 = roundUp4 n := by
  simp only [roundUp4]
  omega

/-- What `fx3_elf_parse` promises of a segment. -/
structure Valid (s : Segment) : Prop where
  occupied : 0 < s.memSize
  filled : s.data.length ≤ s.memSize
  word : s.memSize < 2 ^ 32

/-- The bytes of a segment with the zeros behind them, in whole words. -/
def padded (s : Segment) : List Byte :=
  s.data ++ List.replicate (roundUp4 s.memSize - s.data.length) 0

theorem length_padded {s : Segment} (valid : Valid s) : (padded s).length = roundUp4 s.memSize := by
  have filled := valid.filled
  have room := roundUp4_ge s.memSize
  rw [padded, List.length_append, List.length_replicate]
  omega

theorem getD_padded (s : Segment) (i : Nat) : (padded s).getD i 0 = s.data.getD i 0 := by
  rcases Nat.lt_or_ge i s.data.length with inside | behind
  · rw [padded, List.getD_append _ _ _ _ inside]
  · rw [padded, List.getD_append_right _ _ _ _ behind, List.getD_eq_default s.data _ behind]
    rw [List.getD_eq_getElem?_getD, List.getElem?_replicate]
    split <;> rfl

/-- The sections of a run of bytes. -/
def chunks : Nat → BitVec 32 → List Byte → List Section
  | 0, _, _ => []
  | turns + 1, address, bytes =>
    if bytes.length = 0 then []
    else (address, bytes.take kMaxSectionBytes) :: chunks turns
      (address + BitVec.ofNat 32 (min bytes.length kMaxSectionBytes)) (bytes.drop kMaxSectionBytes)

def segmentSections (s : Segment) : List Section :=
  chunks (roundUp4 s.memSize) s.address (padded s)

section Chunks

variable {turns : Nat} {address : BitVec 32} {bytes : List Byte}

theorem chunks_sized (words : bytes.length / 4 * 4 = bytes.length) :
    ∀ s ∈ chunks turns address bytes, WellSized s := by
  induction turns generalizing address bytes with
  | zero => exact nofun
  | succ turns ih =>
    rw [chunks]
    split
    · exact nofun
    rename_i some
    intro s member
    rcases List.mem_cons.mp member with rfl | later
    · constructor
      · rw [List.length_take]
        simp only [kMaxSectionBytes]
        omega
      · rw [List.length_take]
        simp only [kMaxSectionBytes]
        omega
      · exact List.length_take_le _ _
    · refine ih ?_ s later
      rw [List.length_drop]
      simp only [kMaxSectionBytes]
      omega

/-- The sections put the whole run in memory. -/
theorem placeAll_chunks (enough : bytes.length ≤ turns) (fits : bytes.length ≤ 2 ^ 32) (ram : Ram) :
    placeAll ram (chunks turns address bytes) = place ram address bytes := by
  induction turns generalizing address bytes ram with
  | zero =>
    obtain rfl := List.eq_nil_of_length_eq_zero (Nat.le_zero.mp enough)
    rfl
  | succ turns ih =>
    rw [chunks]
    split
    · rename_i none
      obtain rfl := List.eq_nil_of_length_eq_zero none
      rfl
    rename_i some
    have left : (bytes.drop kMaxSectionBytes).length ≤ turns := by
      rw [List.length_drop]
      simp only [kMaxSectionBytes]
      omega
    have halves := List.take_append_drop kMaxSectionBytes bytes
    have whole : (bytes.take kMaxSectionBytes ++ bytes.drop kMaxSectionBytes).length ≤ 2 ^ 32 := by
      rwa [halves]
    have rest : (bytes.drop kMaxSectionBytes).length ≤ 2 ^ 32 := by
      rw [List.length_drop]
      omega
    have taken : min bytes.length kMaxSectionBytes = (bytes.take kMaxSectionBytes).length := by
      rw [List.length_take, Nat.min_comm]
    rw [placeAll, List.foldl_cons]
    refine (ih left rest _).trans ?_
    rw [taken, place_append whole, halves]

theorem length_chunks (enough : bytes.length ≤ turns) : (chunks turns address bytes).length =
    (bytes.length + kMaxSectionBytes - 1) / kMaxSectionBytes := by
  induction turns generalizing address bytes with
  | zero =>
    rw [Nat.le_zero.mp enough]
    rfl
  | succ turns ih =>
    rw [chunks]
    split
    · rename_i none
      rw [none]
      rfl
    · have left : (bytes.drop kMaxSectionBytes).length ≤ turns := by
        rw [List.length_drop]
        simp only [kMaxSectionBytes]
        omega
      rw [List.length_cons, ih left, List.length_drop]
      simp only [kMaxSectionBytes]
      omega

theorem length_flatMap_encode (enough : bytes.length ≤ turns) :
    ((chunks turns address bytes).flatMap encode).length =
      (chunks turns address bytes).length * 8 + bytes.length := by
  induction turns generalizing address bytes with
  | zero =>
    rw [Nat.le_zero.mp enough]
    rfl
  | succ turns ih =>
    rw [chunks]
    split
    · rename_i none
      rw [none]
      rfl
    · have left : (bytes.drop kMaxSectionBytes).length ≤ turns := by
        rw [List.length_drop]
        simp only [kMaxSectionBytes]
        omega
      rw [List.flatMap_cons, List.length_append, length_encode, ih left, List.length_cons,
        List.length_take, List.length_drop]
      simp only [kMaxSectionBytes]
      omega

end Chunks

/-- What is still to be written of a segment. -/
def restOf (data : List Byte) (copied remaining : Nat) : List Byte :=
  data.drop copied ++ List.replicate (remaining - (data.length - copied)) 0

theorem length_restOf {data : List Byte} {copied remaining : Nat}
    (fits : data.length - copied ≤ remaining) : (restOf data copied remaining).length = remaining := by
  rw [restOf, List.length_append, List.length_drop, List.length_replicate]
  omega

theorem take_restOf {data : List Byte} {copied remaining chunk : Nat}
    (inside : chunk ≤ remaining) :
    (restOf data copied remaining).take chunk = chunkBytes data copied chunk := by
  rw [restOf, List.take_append, List.length_drop, List.take_replicate, chunkBytes]
  congr 1
  · rcases Nat.le_total chunk (data.length - copied) with less | more
    · rw [Nat.min_eq_right less]
    · rw [Nat.min_eq_left more, List.take_of_length_le (by rwa [List.length_drop]),
        List.take_of_length_le (by rw [List.length_drop])]
  · congr 1
    omega

theorem drop_restOf (data : List Byte) (copied remaining chunk : Nat) :
    (restOf data copied remaining).drop chunk =
      restOf data (copied + chunk) (remaining - chunk) := by
  rw [restOf, restOf, List.drop_append, List.length_drop, List.drop_drop, List.drop_replicate]
  congr 2
  omega

theorem writeSections_eq {data : List Byte} {turns copied remaining : Nat} {address : BitVec 32}
    {out : Output} (fits : data.length - copied ≤ remaining) :
    writeSections data turns address copied remaining out =
      ⟨out.bytes ++ (chunks turns address (restOf data copied remaining)).flatMap encode,
        sumSections out.checksum (chunks turns address (restOf data copied remaining))⟩ := by
  induction turns generalizing address copied remaining out with
  | zero => simp [writeSections, chunks, sumSections]
  | succ turns ih =>
    rw [writeSections, chunks, length_restOf fits]
    split
    · simp [sumSections]
    · have size : (chunkBytes data copied (min remaining kMaxSectionBytes)).length =
          min remaining kMaxSectionBytes := by
        rw [← take_restOf (Nat.min_le_left _ _), List.length_take, length_restOf fits]
        omega
      have taken : (restOf data copied remaining).take kMaxSectionBytes =
          chunkBytes data copied (min remaining kMaxSectionBytes) := by
        rw [← take_restOf (Nat.min_le_left _ _), List.take_eq_take_iff, length_restOf fits]
        omega
      have dropped : (restOf data copied remaining).drop kMaxSectionBytes =
          restOf data (copied + min remaining kMaxSectionBytes)
            (remaining - min remaining kMaxSectionBytes) := by
        rcases Nat.le_total remaining kMaxSectionBytes with less | more
        · rw [Nat.min_eq_left less, Nat.sub_self, List.drop_of_length_le
            (by rwa [length_restOf fits]), restOf, List.drop_of_length_le (by omega)]
          rw [Nat.zero_sub]
          rfl
        · rw [Nat.min_eq_right more, drop_restOf]
      have left : data.length - (copied + min remaining kMaxSectionBytes) ≤
          remaining - min remaining kMaxSectionBytes := by omega
      dsimp only
      rw [ih left, dropped, taken, List.flatMap_cons, encode, sumSections, sumSections,
        List.foldl_cons]
      simp only [size, List.append_assoc]

theorem writeSegment_eq {s : Segment} (valid : Valid s) (out : Output) : writeSegment out s =
    ⟨out.bytes ++ (segmentSections s).flatMap encode,
      sumSections out.checksum (segmentSections s)⟩ := by
  have filled := valid.filled
  have room := roundUp4_ge s.memSize
  exact writeSections_eq (by omega)

theorem foldl_writeSegment {work : List Segment} (valid : ∀ s ∈ work, Valid s) (out : Output) :
    work.foldl writeSegment out = ⟨out.bytes ++ (work.flatMap segmentSections).flatMap encode,
      sumSections out.checksum (work.flatMap segmentSections)⟩ := by
  induction work generalizing out with
  | nil => simp [sumSections]
  | cons s rest ih =>
    rw [List.foldl_cons, writeSegment_eq (valid s (List.mem_cons_self ..)),
      ih fun t later => valid t (List.mem_cons_of_mem _ later)]
    simp only [List.flatMap_cons, List.flatMap_append, List.append_assoc, sumSections,
      List.foldl_append]

theorem length_segmentSections {s : Segment} (valid : Valid s) :
    (segmentSections s).length = sectionsOf s := by
  rw [segmentSections, length_chunks (Nat.le_of_eq (length_padded valid)), length_padded valid,
    sectionsOf]

theorem imageSize_cons (s : Segment) (work : List Segment) :
    imageSize (s :: work) = sectionsOf s * 8 + roundUp4 s.memSize + imageSize work := by
  have moved : ∀ (rest : List Segment) (total more : Nat),
      rest.foldl (fun total s => total + (sectionsOf s * 8 + roundUp4 s.memSize)) (total + more) =
        more + rest.foldl (fun total s => total + (sectionsOf s * 8 + roundUp4 s.memSize)) total := by
    intro rest
    induction rest with
    | nil => exact fun total more => Nat.add_comm total more
    | cons first rest ih =>
      intro total more
      rw [List.foldl_cons, List.foldl_cons, ← ih, Nat.add_right_comm]
  rw [imageSize, imageSize, List.foldl_cons, moved, Nat.add_assoc]

theorem length_sections {work : List Segment} (valid : ∀ s ∈ work, Valid s) :
    ((work.flatMap segmentSections).flatMap encode).length + 16 = imageSize work := by
  induction work with
  | nil => rfl
  | cons s rest ih =>
    have one := valid s (List.mem_cons_self ..)
    have own : ((segmentSections s).flatMap encode).length =
        sectionsOf s * 8 + roundUp4 s.memSize := by
      rw [segmentSections, length_flatMap_encode (Nat.le_of_eq (length_padded one)),
        ← segmentSections, length_segmentSections one, length_padded one]
    rw [imageSize_cons, List.flatMap_cons, List.flatMap_append, List.length_append, own,
      ← ih fun t later => valid t (List.mem_cons_of_mem _ later)]
    omega

/-! ## The image, parsed -/

/-- The segments the builder works on. -/
def kept (keepVectors : Bool) (segs : List Segment) : List Segment :=
  segs.filterMap (keepSegment keepVectors)

theorem keepSegment_valid {keepVectors : Bool} {s k : Segment} (valid : Valid s)
    (keeps : keepSegment keepVectors s = some k) : Valid k := by
  obtain ⟨occupied, filled, word⟩ := valid
  rw [keepSegment] at keeps
  split at keeps
  · obtain rfl := Option.some.inj keeps
    exact ⟨occupied, filled, word⟩
  rw [trimVectors] at keeps
  split at keeps
  · obtain rfl := Option.some.inj keeps
    exact ⟨occupied, filled, word⟩
  dsimp only at keeps
  split at keeps
  · cases keeps
  · obtain rfl := Option.some.inj keeps
    constructor
    · dsimp only
      omega
    · rw [List.length_drop]
      dsimp only
      omega
    · dsimp only
      omega

theorem kept_valid {keepVectors : Bool} {segs : List Segment} (valid : ∀ s ∈ segs, Valid s) :
    ∀ s ∈ kept keepVectors segs, Valid s := by
  intro k member
  obtain ⟨s, mine, keeps⟩ := List.mem_filterMap.mp member
  exact keepSegment_valid (valid s mine) keeps

/-- A byte outside the vector area is kept, at the address it had. -/
theorem keepSegment_byte {keepVectors : Bool} {s : Segment} {i : Nat} (valid : Valid s)
    (inside : i < s.memSize)
    (outside : keepVectors = true ∨ kVectorAreaEnd ≤ (s.address + BitVec.ofNat 32 i).toNat) :
    ∃ k j, keepSegment keepVectors s = some k ∧ j < k.memSize ∧
      k.address + BitVec.ofNat 32 j = s.address + BitVec.ofNat 32 i ∧
      k.data.getD j 0 = s.data.getD i 0 := by
  by_cases keeps : keepVectors = true
  · exact ⟨s, i, by rw [keepSegment, if_pos keeps], inside, rfl, rfl⟩
  by_cases clear : kVectorAreaEnd ≤ s.address.toNat
  · exact ⟨s, i, by rw [keepSegment, if_neg keeps, trimVectors, if_pos clear], inside, rfl, rfl⟩
  have beyond := outside.resolve_left keeps
  have word := valid.word
  have skipped : kVectorAreaEnd - s.address.toNat ≤ i := by
    rw [BitVec.toNat_add, BitVec.toNat_ofNat] at beyond
    rcases Nat.lt_or_ge (s.address.toNat + i % 2 ^ 32) (2 ^ 32) with low | high
    · rw [Nat.mod_eq_of_lt low, Nat.mod_eq_of_lt (by omega)] at beyond
      omega
    · rw [Nat.mod_eq_of_lt (a := i) (by omega)] at high
      simp only [kVectorAreaEnd] at clear ⊢
      omega
  have trimmed : keepSegment keepVectors s = some ⟨BitVec.ofNat 32 kVectorAreaEnd,
      s.data.drop (kVectorAreaEnd - s.address.toNat),
      s.memSize - (kVectorAreaEnd - s.address.toNat)⟩ := by
    rw [keepSegment, if_neg keeps, trimVectors, if_neg clear]
    dsimp only
    rw [if_neg (by omega)]
  refine ⟨_, i - (kVectorAreaEnd - s.address.toNat), trimmed, ?_, ?_, ?_⟩
  · dsimp only
    omega
  · apply BitVec.eq_of_toNat_eq
    simp only [BitVec.toNat_add, BitVec.toNat_ofNat, kVectorAreaEnd] at *
    omega
  · dsimp only
    rw [List.getD_eq_getElem?_getD, List.getElem?_drop, ← List.getD_eq_getElem?_getD]
    congr 1
    omega

section Image

variable {calloc : Nat → Bool} {segs : List Segment} {entry : BitVec 32}
  {imageCtl imageType : Byte} {keepVectors : Bool} {image : List Byte}

/-- What the builder puts out. -/
theorem image_eq (valid : ∀ s ∈ segs, Valid s)
    (built : fx3BuildImage calloc segs entry imageCtl imageType keepVectors = .ok image) :
    kept keepVectors segs ≠ [] ∧
      image = [kSignatureFirst, kSignatureSecond, imageCtl, imageType] ++
        (((kept keepVectors segs).flatMap segmentSections).flatMap encode ++ (wr32 0 ++
          (wr32 entry ++ wr32 (sumSections 0 ((kept keepVectors segs).flatMap segmentSections))))) := by
  rw [fx3BuildImage] at built
  split at built
  · cases built
  dsimp only at built
  split at built
  · cases built
  rename_i some
  split at built
  · cases built
  refine ⟨some, ?_⟩
  have work : ∀ s ∈ segs.filterMap (keepSegment keepVectors), Valid s := kept_valid valid
  rw [foldl_writeSegment work] at built
  obtain rfl := Except.ok.inj built
  simp only [List.append_assoc]
  rfl

theorem length_image (valid : ∀ s ∈ segs, Valid s)
    (built : fx3BuildImage calloc segs entry imageCtl imageType keepVectors = .ok image) :
    image.length = imageSize (kept keepVectors segs) := by
  obtain ⟨-, rfl⟩ := image_eq valid built
  rw [← length_sections (kept_valid valid)]
  simp only [List.length_append, List.length_cons, List.length_nil, length_wr32]
  omega

theorem segmentSections_sized {s : Segment} (valid : Valid s) :
    ∀ t ∈ segmentSections s, WellSized t := by
  refine chunks_sized ?_
  rw [length_padded valid, roundUp4_words]

theorem segmentSections_some {s : Segment} (valid : Valid s) : segmentSections s ≠ [] := by
  intro none
  have count := length_segmentSections valid
  have occupied := valid.occupied
  rw [none, List.length_nil, sectionsOf] at count
  simp only [roundUp4, kMaxSectionBytes] at count
  omega

/-- How many sections the builder makes. -/
def sectionCount (work : List Segment) : Nat := (work.map sectionsOf).sum

theorem length_all_sections {work : List Segment} (valid : ∀ s ∈ work, Valid s) :
    (work.flatMap segmentSections).length = sectionCount work := by
  rw [List.length_flatMap, sectionCount]
  congr 1
  exact List.map_congr_left fun s member => length_segmentSections (valid s member)

/-- The parser accepts the image, and its sections are those that were written. -/
theorem parse_image (valid : ∀ s ∈ segs, Valid s)
    (built : fx3BuildImage calloc segs entry imageCtl imageType keepVectors = .ok image)
    (executable : imageCtl &&& kControlNotExecutable = 0)
    (kind : imageType = kImageTypeNormalFirmware)
    (few : sectionCount (kept keepVectors segs) ≤ kMaximumSections) :
    ∃ parsed, parseBootImage image = .ok parsed ∧ parsed.entryAddress = entry ∧
      parsed.sections.map (sectionBytes image) = (kept keepVectors segs).flatMap segmentSections := by
  obtain ⟨some, whole⟩ := image_eq valid built
  have work : ∀ s ∈ kept keepVectors segs, Valid s := kept_valid valid
  have length := length_image valid built
  have sizes := length_sections work
  have sized : ∀ t ∈ (kept keepVectors segs).flatMap segmentSections, WellSized t := by
    intro t member
    obtain ⟨s, mine, there⟩ := List.mem_flatMap.mp member
    exact segmentSections_sized (work s mine) t there
  have count := length_all_sections work
  generalize sections' : (kept keepVectors segs).flatMap segmentSections = sections at *
  have header : checkHeader image = .ok () := by
    refine checkHeader_ok.mpr ⟨by omega, ?_⟩
    rw [whole]
    exact ⟨⟨rfl, rfl⟩, executable, kind⟩
  obtain ⟨after, loop, position, checksum, same⟩ := @parseSections_encoded image
    [kSignatureFirst, kSignatureSecond, imageCtl, imageType]
    (wr32 (sumSections 0 sections)) entry sections kMaximumSections
    ⟨[], 0, 0, kHeaderBytes⟩ whole rfl (by omega) sized
  have place : after.position = 4 + (sections.flatMap encode).length + 8 := position
  have trailing : ¬ image.length - after.position ≠ kChecksumBytes := by
    simp only [kChecksumBytes]
    omega
  have sum : read32 image after.position = after.checksum := by
    have framed : image = ([kSignatureFirst, kSignatureSecond, imageCtl, imageType] ++
        (sections.flatMap encode ++ (wr32 0 ++ wr32 entry))) ++ wr32 (sumSections 0 sections) := by
      rw [whole]
      simp only [List.append_assoc]
    have far : after.position = ([kSignatureFirst, kSignatureSecond, imageCtl, imageType] ++
        (sections.flatMap encode ++ (wr32 0 ++ wr32 entry))).length + 0 := by
      rw [place]
      simp only [List.length_append, List.length_cons, List.length_nil, length_wr32]
      omega
    rw [framed, far, read32_right, checksum]
    exact read32_wr32 _ []
  have program : after.sections ≠ [] := by
    intro none
    rw [none] at same
    have empty : sections = [] := same.symm
    obtain ⟨s, mine⟩ := List.exists_mem_of_ne_nil _ some
    obtain ⟨t, there⟩ := List.exists_mem_of_ne_nil _ (segmentSections_some (work s mine))
    have : t ∈ sections := by
      rw [← sections']
      exact List.mem_flatMap.mpr ⟨s, mine, there⟩
    rw [empty] at this
    exact List.not_mem_nil this
  refine ⟨⟨after.sections, entry, after.payloadBytes⟩, ?_, rfl, same⟩
  simp only [parseBootImage, header, loop, if_neg trailing, sum, ne_eq, not_true_eq_false,
    if_false, if_neg program]

/-! ## The memory after the download -/

theorem download_eq {parsed : BootImage}
    (sized : ∀ s ∈ parsed.sections.map (sectionBytes image), WellSized s) (ram : Ram) :
    download image parsed ram = placeAll ram (parsed.sections.map (sectionBytes image)) := by
  rw [download, placeAll, List.foldl_map]
  apply List.foldl_ext
  intro m s member
  have small := (sized _ (List.mem_map_of_mem member)).small
  refine writeRam_eq ?_ m
  simp only [kMaxSectionBytes] at small
  omega

/-- A segment's bytes as one run. -/
def run (s : Segment) : Write 32 Byte := (s.address, padded s)

theorem placeAll_sections {work : List Segment} (valid : ∀ s ∈ work, Valid s) (ram : Ram) :
    placeAll ram (work.flatMap segmentSections) = placeAll ram (work.map run) := by
  induction work generalizing ram with
  | nil => rfl
  | cons s rest ih =>
    have one := valid s (List.mem_cons_self ..)
    have fits : (padded s).length ≤ 2 ^ 32 := by
      have word := one.word
      rw [length_padded one]
      simp only [roundUp4]
      omega
    rw [List.flatMap_cons, List.map_cons, placeAll, List.foldl_append]
    refine (ih (fun t later => valid t (List.mem_cons_of_mem _ later)) _).trans ?_
    have own : placeAll ram (segmentSections s) = place ram s.address (padded s) :=
      placeAll_chunks (Nat.le_of_eq (length_padded one)) fits ram
    rw [placeAll] at own
    rw [own]
    rfl

/-- The memory holds the segments, each written whole after those before it. -/
theorem download_image {parsed : BootImage} (valid : ∀ s ∈ segs, Valid s)
    (same : parsed.sections.map (sectionBytes image) =
      (kept keepVectors segs).flatMap segmentSections) (ram : Ram) :
    download image parsed ram = placeAll ram ((kept keepVectors segs).map run) := by
  have work : ∀ s ∈ kept keepVectors segs, Valid s := kept_valid valid
  have sized : ∀ t ∈ parsed.sections.map (sectionBytes image), WellSized t := by
    intro t member
    rw [same] at member
    obtain ⟨s, mine, there⟩ := List.mem_flatMap.mp member
    exact segmentSections_sized (work s mine) t there
  rw [download_eq sized, same, placeAll_sections work]

end Image

/-- Where a segment's whole words go. -/
def reaches (s : Segment) (x : BitVec 32) : Prop := (x - s.address).toNat < roundUp4 s.memSize

/-- A byte of a segment is in memory, unless a later segment's last word is over it. -/
theorem byte_downloaded {keepVectors : Bool} {early late : List Segment} {s : Segment} {i : Nat}
    (valid : ∀ t ∈ early ++ s :: late, Valid t) (inside : i < s.memSize)
    (outside : keepVectors = true ∨ kVectorAreaEnd ≤ (s.address + BitVec.ofNat 32 i).toNat)
    (clear : ∀ t ∈ kept keepVectors late, ¬ reaches t (s.address + BitVec.ofNat 32 i)) (ram : Ram) :
    placeAll ram ((kept keepVectors (early ++ s :: late)).map run)
      (s.address + BitVec.ofNat 32 i) = s.data.getD i 0 := by
  have mine : Valid s := valid s (List.mem_append_right _ (List.mem_cons_self ..))
  obtain ⟨k, j, keeps, there, address, byte⟩ := keepSegment_byte mine inside outside
  have work : Valid k := keepSegment_valid mine keeps
  have split : kept keepVectors (early ++ s :: late) =
      kept keepVectors early ++ k :: kept keepVectors late := by
    rw [kept, List.filterMap_append, List.filterMap_cons_some keeps]
    rfl
  have room := roundUp4_ge k.memSize
  have fits : (padded k).length ≤ 2 ^ 32 := by
    have word := work.word
    rw [length_padded work]
    simp only [roundUp4]
    omega
  have within : j < (padded k).length := by
    rw [length_padded work]
    omega
  rw [split, List.map_append, List.map_cons, ← address, ← byte, ← getD_padded]
  refine placeAll_last fits within 0 fun write member => ?_
  obtain ⟨t, later, rfl⟩ := List.mem_map.mp member
  have apart := clear t later
  have sound : Valid t := kept_valid (fun u of => valid u (List.mem_append_right _
    (List.mem_cons_of_mem _ of))) t later
  rw [← address] at apart
  intro covers
  refine apart ?_
  rw [Write.covers, run, length_padded sound] at covers
  exact covers

/-! ## The ELF file's segments -/

theorem walkHeaders_inside {elf : List Byte} {phentsize maxSegs left ph : Nat}
    {segs found : List ElfSegment}
    (before : ∀ s ∈ segs, s.offset + s.fileSize ≤ elf.length ∧ Valid (s.loaded elf))
    (walked : walkHeaders elf phentsize maxSegs left ph segs = .ok found) :
    ∀ s ∈ found, s.offset + s.fileSize ≤ elf.length ∧ Valid (s.loaded elf) := by
  induction left generalizing ph segs with
  | zero =>
    obtain rfl := Except.ok.inj walked
    exact before
  | succ left ih =>
    rw [walkHeaders] at walked
    dsimp only at walked
    split_ifs at walked with other empty long away beyond many
    · exact ih before walked
    · exact ih before walked
    · refine ih ?_ walked
      intro s member
      rcases List.mem_append.mp member with earlier | this
      · exact before s earlier
      · obtain rfl := List.mem_singleton.mp this
        dsimp only
        refine ⟨by omega, ?_, ?_, (read32 elf (ph + 0x14)).isLt⟩
        · exact Nat.pos_of_ne_zero empty
        · rw [ElfSegment.loaded, List.length_take]
          dsimp only
          omega

/-- `fx3_elf_parse` yields segments inside of the file. -/
theorem fx3ElfParse_inside {elf : List Byte} {maxSegs : Nat} {segs : List ElfSegment}
    {entry : BitVec 32} (parsed : fx3ElfParse elf maxSegs = .ok (segs, entry)) :
    ∀ s ∈ segs, s.offset + s.fileSize ≤ elf.length ∧ Valid (s.loaded elf) := by
  rw [fx3ElfParse] at parsed
  split_ifs at parsed
  dsimp only at parsed
  split_ifs at parsed
  split at parsed
  · cases parsed
  · cases parsed
  · rename_i walked
    obtain ⟨rfl, -⟩ := Prod.mk.inj (Except.ok.inj parsed)
    exact walkHeaders_inside (fun _ none => absurd none List.not_mem_nil) walked

/-- The program survives the builder, the parser and the downloader: the image has the size
that was computed, is accepted with its entry point, and leaves every byte outside the
vector area in memory but where a later segment's last word is over it. -/
theorem program_preserved :
    (∀ (elf : List Byte) (maxSegs : Nat) (segs : List ElfSegment) (entry : BitVec 32),
      fx3ElfParse elf maxSegs = .ok (segs, entry) →
        ∀ s ∈ segs, s.offset + s.fileSize ≤ elf.length ∧ Valid (s.loaded elf)) ∧
    ∀ (calloc : Nat → Bool) (segs : List Segment) (entry : BitVec 32) (imageCtl imageType : Byte)
      (keepVectors : Bool) (image : List Byte), (∀ s ∈ segs, Valid s) →
      fx3BuildImage calloc segs entry imageCtl imageType keepVectors = .ok image →
      imageCtl &&& kControlNotExecutable = 0 → imageType = kImageTypeNormalFirmware →
      sectionCount (kept keepVectors segs) ≤ kMaximumSections →
        image.length = imageSize (kept keepVectors segs) ∧
        ∃ parsed, parseBootImage image = .ok parsed ∧ parsed.entryAddress = entry ∧
          ∀ (ram : Ram) (early late : List Segment) (s : Segment) (i : Nat),
            segs = early ++ s :: late → i < s.memSize →
            (keepVectors = true ∨ kVectorAreaEnd ≤ (s.address + BitVec.ofNat 32 i).toNat) →
            (∀ t ∈ kept keepVectors late, ¬ reaches t (s.address + BitVec.ofNat 32 i)) →
              download image parsed ram (s.address + BitVec.ofNat 32 i) = s.data.getD i 0 := by
  constructor
  · exact fun _ _ _ _ parsed => fx3ElfParse_inside parsed
  · intro calloc segs entry imageCtl imageType keepVectors image valid built executable kind few
    refine ⟨length_image valid built, ?_⟩
    obtain ⟨parsed, accepted, start, same⟩ := parse_image valid built executable kind few
    refine ⟨parsed, accepted, start, ?_⟩
    rintro ram early late s i rfl inside outside clear
    rw [download_image valid same]
    exact byte_downloaded valid inside outside clear ram

/-- A file with one segment, of three bytes and three zeros. -/
def sampleElf : List Byte :=
  [0x7F, 0x45, 0x4C, 0x46, 1, 1, 1, 0, 0, 0, 0, 0, 0, 0, 0, 0] ++
  [2, 0, 40, 0, 1, 0, 0, 0, 0x00, 0x10, 0, 0, 0x34, 0, 0, 0] ++
  [0, 0, 0, 0, 0, 0, 0, 0, 0x34, 0, 0x20, 0, 1, 0, 0, 0, 0, 0, 0, 0] ++
  [1, 0, 0, 0, 0x54, 0, 0, 0, 0x00, 0x10, 0, 0, 0x00, 0x10, 0, 0] ++
  [3, 0, 0, 0, 6, 0, 0, 0, 5, 0, 0, 0, 4, 0, 0, 0] ++ [1, 2, 3]

def sampleImage : List Byte :=
  [0x43, 0x59, 0x1C, 0xB0] ++ [2, 0, 0, 0, 0x00, 0x10, 0, 0, 1, 2, 3, 0, 0, 0, 0, 0] ++
  [0, 0, 0, 0, 0x00, 0x10, 0, 0, 1, 2, 3, 0]

theorem sample_preserved :
    (∀ s ∈ [(⟨0x1000, 0x54, 3, 6⟩ : ElfSegment)],
      s.offset + s.fileSize ≤ sampleElf.length ∧ Valid (s.loaded sampleElf)) ∧
    ∃ parsed, parseBootImage sampleImage = .ok parsed ∧ parsed.entryAddress = 0x1000 ∧
      ∀ ram : Ram, download sampleImage parsed ram 0x1002 = 3 ∧
        download sampleImage parsed ram 0x1005 = 0 := by
  have inside := program_preserved.left sampleElf kMaxSegments [⟨0x1000, 0x54, 3, 6⟩] 0x1000
    (by decide +kernel)
  have valid : ∀ s ∈ [(⟨0x1000, [1, 2, 3], 6⟩ : Segment)], Valid s := by
    intro s member
    obtain rfl := List.mem_singleton.mp member
    exact ⟨by decide, by decide, by decide⟩
  obtain ⟨-, parsed, accepted, start, bytes⟩ := program_preserved.right (fun _ => true)
    [⟨0x1000, [1, 2, 3], 6⟩] 0x1000 0x1C 0xB0 false sampleImage valid (by decide +kernel)
    (by decide) rfl (by decide)
  refine ⟨inside, parsed, accepted, start, fun ram => ⟨?_, ?_⟩⟩
  · exact bytes ram [] [] ⟨0x1000, [1, 2, 3], 6⟩ 2 rfl (by decide) (Or.inr (by decide)) nofun
  · exact bytes ram [] [] ⟨0x1000, [1, 2, 3], 6⟩ 5 rfl (by decide) (Or.inr (by decide)) nofun

/-- Two segments that do not overlap, the one at the higher address first. -/
def crowded : List Segment := [⟨0x1006, [1, 2, 3, 4], 4⟩, ⟨0x1000, [5, 6, 7, 8, 9], 5⟩]

def crowdedImage : List Byte :=
  [0x43, 0x59, 0x1C, 0xB0] ++ [1, 0, 0, 0, 0x06, 0x10, 0, 0, 1, 2, 3, 4] ++
  [2, 0, 0, 0, 0x00, 0x10, 0, 0, 5, 6, 7, 8, 9, 0, 0, 0] ++
  [0, 0, 0, 0, 0x00, 0x10, 0, 0, 0x0F, 0x08, 0x0A, 0x0C]

/-- The zeros that round up one segment are over the start of another. -/
theorem padding_covers_start : (∀ s ∈ crowded, Valid s) ∧
    (∀ i < 4, ∀ j < 5, 0x1006 + BitVec.ofNat 32 i ≠ 0x1000 + BitVec.ofNat 32 j) ∧
    fx3BuildImage (fun _ => true) crowded 0x1000 0x1C 0xB0 false = .ok crowdedImage ∧
    ∃ parsed, parseBootImage crowdedImage = .ok parsed ∧
      download crowdedImage parsed (fun _ => 0xFF) 0x1006 = 0 := by
  refine ⟨?_, by decide, by decide +kernel, ?_⟩
  · intro s member
    rcases List.mem_cons.mp member with rfl | other
    · exact ⟨by decide, by decide, by decide⟩
    · obtain rfl := List.mem_singleton.mp other
      exact ⟨by decide, by decide, by decide⟩
  · exact ⟨⟨[⟨0x1006, 12, 4⟩, ⟨0x1000, 24, 8⟩], 0x1000, 12⟩, by decide +kernel, by decide +kernel⟩

end BootRoundTrip
