import DomesdayDuplicator.Firmware.BootImageBuilder
import DomesdayDuplicator.Foundations.AddressSpace

/-!
# Sending a boot image

`ddd-gui/src/capture/device_programmer.cpp`, `WriteRam`, and `device_recovery.cpp`, which
sends the sections in file order. A list of sections written one after the other is read
back as it was by the parser.
-/

namespace BootDownload

open AddressSpace BootFormat BootImageBuilder UpdateProtocol

/-! ## The downloader -/

abbrev Ram := Store 32 Byte

def kMaximumDownloadBytes : Nat := 2048

/-- The loop of `WriteRam`; a block is what one transfer carries. -/
def writeBlocks (address : BitVec 32) (data : List Byte) : Nat → Nat → Ram → Ram
  | 0, _, ram => ram
  | turns + 1, sent, ram =>
    if sent < data.length then
      let block := min kMaximumDownloadBytes (data.length - sent)
      writeBlocks address data turns (sent + block)
        (place ram (address + BitVec.ofNat 32 sent) ((data.drop sent).take block))
    else ram

def writeRam (ram : Ram) (address : BitVec 32) (data : List Byte) : Ram :=
  writeBlocks address data data.length 0 ram

/-- The bytes of a parsed section, with where they go. -/
def sectionBytes (image : List Byte) (s : BootImageSection) : Write 32 Byte :=
  (s.address, (image.drop s.offset).take s.length)

/-- The sections in file order. -/
def download (image : List Byte) (parsed : BootImage) (ram : Ram) : Ram :=
  parsed.sections.foldl (fun ram s =>
    writeRam ram (sectionBytes image s).1 (sectionBytes image s).2) ram

theorem writeBlocks_eq {address : BitVec 32} {data : List Byte} (fits : data.length ≤ 2 ^ 32)
    {turns sent : Nat} (left : data.length - sent ≤ turns) (inside : sent ≤ data.length)
    (ram : Ram) : writeBlocks address data turns sent (place ram address (data.take sent)) =
      place ram address data := by
  induction turns generalizing sent with
  | zero => rw [writeBlocks, List.take_of_length_le (by omega)]
  | succ turns ih =>
    rw [writeBlocks]
    split
    · rename_i more
      have size : min kMaximumDownloadBytes (data.length - sent) ≤ data.length - sent :=
        Nat.min_le_right _ _
      have some : 0 < min kMaximumDownloadBytes (data.length - sent) := by
        simp only [kMaximumDownloadBytes]
        omega
      have taken : (data.take sent).length = sent := List.length_take_of_le inside
      dsimp only
      generalize min kMaximumDownloadBytes (data.length - sent) = block at size some
      have short : (data.take sent ++ (data.drop sent).take block).length ≤ 2 ^ 32 := by
        rw [← List.take_add, List.length_take]
        omega
      have joined : place (place ram address (data.take sent))
          (address + BitVec.ofNat 32 (data.take sent).length) ((data.drop sent).take block) =
          place ram address (data.take sent ++ (data.drop sent).take block) := place_append short
      rw [taken, ← List.take_add] at joined
      rw [joined]
      exact ih (by omega) (by omega)
    · rw [List.take_of_length_le (by omega)]

theorem writeRam_eq {address : BitVec 32} {data : List Byte} (fits : data.length ≤ 2 ^ 32)
    (ram : Ram) : writeRam ram address data = place ram address data := by
  have whole : writeBlocks address data data.length 0 (place ram address (data.take 0)) =
      place ram address data := writeBlocks_eq fits (Nat.le_refl _) (Nat.zero_le _) ram
  rwa [List.take_zero, place_nil] at whole

/-! ## Words of a byte string -/

@[simp] theorem length_wr32 (v : BitVec 32) : (wr32 v).length = 4 := rfl

theorem read32_right (front rest : List Byte) (p : Nat) :
    read32 (front ++ rest) (front.length + p) = read32 rest p := by
  simp only [read32, Nat.add_assoc, List.getD_append_right front rest _ _ (Nat.le_add_right _ _),
    Nat.add_sub_cancel_left]

theorem read32_left {bytes : List Byte} {p : Nat} (inside : p + 4 ≤ bytes.length)
    (tail : List Byte) : read32 (bytes ++ tail) p = read32 bytes p := by
  simp only [read32]
  rw [List.getD_append _ _ _ _ (by omega), List.getD_append _ _ _ _ (by omega),
    List.getD_append _ _ _ _ (by omega), List.getD_append _ _ _ _ (by omega)]

theorem read32_wr32 (v : BitVec 32) (tail : List Byte) : read32 (wr32 v ++ tail) 0 = v := by
  have bytes : read32 (wr32 v ++ tail) 0 = v.extractLsb' 24 8 ++ v.extractLsb' 16 8 ++
      v.extractLsb' 8 8 ++ v.extractLsb' 0 8 := by
    rw [read32]
    rfl
  rw [bytes]
  apply BitVec.eq_of_getLsbD_eq
  intro i small
  simp only [BitVec.getLsbD_append, BitVec.getLsbD_extractLsb']
  split
  · simp [*]
  · split
    · simp only [show i - 8 < 8 by omega, decide_true, Bool.true_and]
      congr 1
      omega
    · split
      · simp only [show i - 8 - 8 < 8 by omega, decide_true, Bool.true_and]
        congr 1
        omega
      · simp only [show i - 8 - 8 - 8 < 8 by omega, decide_true, Bool.true_and]
        congr 1
        omega

theorem addWords_within {payload : List Byte} (front tail : List Byte) {words p : Nat}
    (inside : p + 4 * words ≤ payload.length) (checksum : BitVec 32) :
    addWords (front ++ payload ++ tail) words (front.length + p) checksum =
      addWords payload words p checksum := by
  induction words generalizing p checksum with
  | zero => rfl
  | succ words ih =>
    rw [addWords, addWords, Nat.add_assoc, ih (by omega), List.append_assoc, read32_right,
      read32_left (by omega)]

/-! ## Sections -/

abbrev Section := Write 32 Byte

def encode (s : Section) : List Byte :=
  wr32 (BitVec.ofNat 32 (s.2.length / 4)) ++ wr32 s.1 ++ s.2

def sumSections (checksum : BitVec 32) (sections : List Section) : BitVec 32 :=
  sections.foldl (fun sum s => addWords s.2 (s.2.length / 4) 0 sum) checksum

/-- Whole words, and one at least. -/
structure WellSized (s : Section) : Prop where
  words : s.2.length / 4 * 4 = s.2.length
  some : 0 < s.2.length
  small : s.2.length ≤ kMaxSectionBytes

theorem length_encode (s : Section) : (encode s).length = 8 + s.2.length := by
  rw [encode, List.length_append, List.length_append, length_wr32, length_wr32]

/-- The parser reads sections back as they were written. -/
theorem parseSections_encoded {image front tail : List Byte} {entry : BitVec 32}
    {sections : List Section} {left : Nat} {walk : Walk}
    (whole : image = front ++ (sections.flatMap encode ++ (wr32 0 ++ (wr32 entry ++ tail))))
    (here : walk.position = front.length) (few : sections.length ≤ left)
    (sized : ∀ s ∈ sections, WellSized s) : ∃ after,
    parseSections image left walk = .ok (entry, after) ∧
      after.position = front.length + (sections.flatMap encode).length + 8 ∧
      after.checksum = sumSections walk.checksum sections ∧
      after.sections.map (sectionBytes image) =
        walk.sections.map (sectionBytes image) ++ sections := by
  induction sections generalizing front left walk with
  | nil =>
    rw [List.flatMap_nil, List.nil_append] at whole
    have room : ¬ image.length - walk.position < kSectionHeaderBytes := by
      rw [whole, here, List.length_append, List.length_append, List.length_append, length_wr32,
        length_wr32]
      simp only [kSectionHeaderBytes]
      omega
    have zero : read32 image walk.position = 0 := by
      rw [whole, here, ← Nat.add_zero front.length, read32_right, read32_wr32]
    have address : read32 image (walk.position + 4) = entry := by
      rw [whole, here, read32_right]
      exact (read32_right (wr32 0) (wr32 entry ++ tail) 0).trans (read32_wr32 entry tail)
    rw [parseSections, if_neg room]
    simp only [zero, if_true, address]
    refine ⟨_, rfl, ?_, rfl, (List.append_nil _).symm⟩
    simp only [here, kSectionHeaderBytes, List.flatMap_nil, List.length_nil, Nat.add_zero]
  | cons s rest ih =>
    obtain ⟨words, some, small⟩ := sized s (List.mem_cons_self ..)
    have kept : ∀ t ∈ rest, WellSized t := fun t later => sized t (List.mem_cons_of_mem _ later)
    obtain ⟨left, rfl⟩ : ∃ k, left = k + 1 := ⟨left - 1, by
      rw [List.length_cons] at few
      omega⟩
    rw [List.length_cons] at few
    generalize after : rest.flatMap encode ++ (wr32 0 ++ (wr32 entry ++ tail)) = further at ih
    have split : image = front ++ (wr32 (BitVec.ofNat 32 (s.2.length / 4)) ++
        (wr32 s.1 ++ (s.2 ++ further))) := by
      rw [whole, List.flatMap_cons, encode, ← after]
      simp only [List.append_assoc]
    have count : (BitVec.ofNat 32 (s.2.length / 4)).toNat = s.2.length / 4 := by
      rw [BitVec.toNat_ofNat, Nat.mod_eq_of_lt]
      simp only [kMaxSectionBytes] at small
      omega
    have first : read32 image walk.position = BitVec.ofNat 32 (s.2.length / 4) := by
      rw [split, here, ← Nat.add_zero front.length, read32_right, read32_wr32]
    have second : read32 image (walk.position + 4) = s.1 := by
      rw [split, here, read32_right]
      exact (read32_right (wr32 _) (wr32 s.1 ++ (s.2 ++ further)) 0).trans (read32_wr32 s.1 _)
    have goes : BitVec.ofNat 32 (s.2.length / 4) ≠ 0 := by
      intro zero
      have := congrArg BitVec.toNat zero
      rw [count] at this
      simp at this
      omega
    have fits : image.length = front.length + (8 + s.2.length) + further.length := by
      rw [split]
      simp only [List.length_append, length_wr32]
      omega
    have room : ¬ image.length - walk.position < kSectionHeaderBytes := by
      simp only [kSectionHeaderBytes]
      omega
    have inside : ¬ s.2.length > image.length - (front.length + 8) := by omega
    have placed : walk.position + kSectionHeaderBytes = front.length + 8 := by
      rw [here]
      rfl
    have front' : (front ++ encode s).length = front.length + 8 + s.2.length := by
      rw [List.length_append, length_encode, Nat.add_assoc]
    have heads : (front ++ (wr32 (BitVec.ofNat 32 (s.2.length / 4)) ++ wr32 s.1)).length =
        front.length + 8 := by
      rw [List.length_append, List.length_append, length_wr32, length_wr32]
    have framed : image = front ++ (wr32 (BitVec.ofNat 32 (s.2.length / 4)) ++ wr32 s.1) ++ s.2 ++
        further := by
      rw [split]
      simp only [List.append_assoc]
    rw [parseSections, if_neg room]
    simp only [first, second, count, words, placed, if_neg goes, if_neg inside]
    have sum : addWords image (s.2.length / 4) (front.length + 8) walk.checksum =
        addWords s.2 (s.2.length / 4) 0 walk.checksum := by
      rw [framed, ← heads]
      exact addWords_within _ further (p := 0) (by omega) walk.checksum
    have next : image = front ++ encode s ++ further := by
      rw [split, encode]
      simp only [List.append_assoc]
    obtain ⟨end', parsed, position, checksum, sections⟩ := @ih (front ++ encode s) left
      ⟨walk.sections ++ [⟨s.1, front.length + 8, s.2.length⟩], walk.payloadBytes + s.2.length,
        addWords image (s.2.length / 4) (front.length + 8) walk.checksum,
        front.length + 8 + s.2.length⟩ next front'.symm (by omega) kept
    refine ⟨end', parsed, ?_, ?_, ?_⟩
    · rw [position, front', List.flatMap_cons, List.length_append, length_encode]
      omega
    · rw [checksum, sum]
      rfl
    · have bytes : sectionBytes image ⟨s.1, front.length + 8, s.2.length⟩ = s := by
        rw [sectionBytes, framed, ← heads, List.append_assoc, List.drop_left, List.take_left]
      rw [sections, List.map_append, List.map_cons, bytes, List.append_assoc]
      rfl

end BootDownload
