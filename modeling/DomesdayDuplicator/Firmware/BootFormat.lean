import DomesdayDuplicator.Foundations.PagedMemory
import DomesdayDuplicator.Firmware.UpdateProtocol
import Mathlib.Tactic.SplitIfs

/-!
# The FX3 boot image

`ddd-gui/src/capture/boot_image.cpp`: a header, sections with their load addresses, a
termination record and a sum over the payload words. Everything behind the header is
32-bit words, and the parser's verdict is described by where its walk over them goes.
-/

namespace BootFormat

open UpdateProtocol PagedMemory

def kHeaderBytes : Nat := 4
def kSectionHeaderBytes : Nat := 8
def kChecksumBytes : Nat := 4
def kSignatureFirst : Byte := 0x43
def kSignatureSecond : Byte := 0x59
def kControlNotExecutable : Byte := 0x01
def kImageTypeNormalFirmware : Byte := 0xB0
def kMaximumSections : Nat := 1024

@[irreducible] def read32 (image : List Byte) (offset : Nat) : BitVec 32 :=
  image.getD (offset + 3) 0 ++ image.getD (offset + 2) 0 ++ image.getD (offset + 1) 0 ++
    image.getD offset 0

structure BootImageSection where
  address : BitVec 32
  offset : Nat
  length : Nat
  deriving DecidableEq

structure BootImage where
  sections : List BootImageSection
  entryAddress : BitVec 32
  payloadBytes : Nat
  deriving DecidableEq

/-- What the loop over the sections carries along. -/
structure Walk where
  sections : List BootImageSection
  payloadBytes : Nat
  checksum : BitVec 32
  position : Nat

def endsPartWay : String :=
  "That firmware image ends part way through. It may not have downloaded completely."

def notLaidOut : String :=
  "That firmware image is not laid out the way this device's firmware is."

/-- The checksum with so many words added. -/
def addWords (image : List Byte) : Nat → Nat → BitVec 32 → BitVec 32
  | 0, _, checksum => checksum
  | words + 1, position, checksum =>
    addWords image words (position + 4) (checksum + read32 image position)

/-- The loop over the sections, of which `left` may still come, to the entry address. -/
def parseSections (image : List Byte) : Nat → Walk → Except String (BitVec 32 × Walk)
  | left, walk =>
    if image.length - walk.position < kSectionHeaderBytes then .error endsPartWay
    else
      let words := read32 image walk.position
      let address := read32 image (walk.position + 4)
      let position := walk.position + kSectionHeaderBytes
      if words = 0 then .ok (address, { walk with position := position })
      else
        match left with
        | 0 => .error notLaidOut
        | left + 1 =>
          let payload := words.toNat * 4
          if payload > image.length - position then .error endsPartWay
          else parseSections image left
            { sections := walk.sections ++ [⟨address, position, payload⟩]
              payloadBytes := walk.payloadBytes + payload
              checksum := addWords image words.toNat position walk.checksum
              position := position + payload }

/-- The bytes before the first section. -/
def checkHeader (image : List Byte) : Except String Unit :=
  if image.length < kHeaderBytes + kSectionHeaderBytes + kChecksumBytes then
    .error "That file is too short to be firmware for this device."
  else if image.getD 0 0 ≠ kSignatureFirst ∨ image.getD 1 0 ≠ kSignatureSecond then
    .error "That file is not firmware for this device."
  else if image.getD 2 0 &&& kControlNotExecutable ≠ 0 then
    .error "That firmware image does not contain a program the device can run."
  else if image.getD 3 0 ≠ kImageTypeNormalFirmware then
    .error "That firmware image is of a kind this device cannot boot."
  else .ok ()

def parseBootImage (image : List Byte) : Except String BootImage :=
  match checkHeader image with
  | .error problem => .error problem
  | .ok () =>
    match parseSections image kMaximumSections ⟨[], 0, 0, kHeaderBytes⟩ with
    | .error problem => .error problem
    | .ok (entry, walk) =>
      if image.length - walk.position ≠ kChecksumBytes then .error notLaidOut
      else if read32 image walk.position ≠ walk.checksum then
        .error "That firmware image failed its own checksum, so it is damaged. Download it again."
      else if walk.sections = [] then
        .error "That firmware image contains no program to load."
      else .ok ⟨walk.sections, entry, walk.payloadBytes⟩

/-! ## The walk over the words -/

/-- Which words are payload, and where the termination record is. -/
structure Layout where
  payload : List Nat
  termination : Nat
  deriving DecidableEq

def layout (word : Nat → BitVec 32) : Nat → Nat → Option Layout
  | left, place =>
    if word place = 0 then some ⟨[], place⟩
    else
      match left with
      | 0 => none
      | left + 1 => (layout word left (place + 2 + (word place).toNat)).map fun rest =>
          ⟨List.range' (place + 2) (word place).toNat ++ rest.payload, rest.termination⟩

/-- The words at these places, summed. -/
def sumOver (word : Nat → BitVec 32) (places : List Nat) : BitVec 32 := (places.map word).sum

theorem sumOver_append {word : Nat → BitVec 32} (first second : List Nat) :
    sumOver word (first ++ second) = sumOver word first + sumOver word second := by
  rw [sumOver, sumOver, sumOver, List.map_append, List.sum_append]

theorem layout_stop {word : Nat → BitVec 32} {left place : Nat} (ends : word place = 0) :
    layout word left place = some ⟨[], place⟩ := by
  cases left <;> simp [layout, ends]

theorem layout_section {word : Nat → BitVec 32} {left place : Nat} (goes : word place ≠ 0) :
    layout word (left + 1) place = (layout word left (place + 2 + (word place).toNat)).map fun rest =>
      ⟨List.range' (place + 2) (word place).toNat ++ rest.payload, rest.termination⟩ := by
  rw [layout, if_neg goes]

theorem layout_none {word : Nat → BitVec 32} {place : Nat} (goes : word place ≠ 0) :
    layout word 0 place = none := by
  rw [layout, if_neg goes]

/-- A walk goes forwards, and what it passes lies before its end. -/
theorem layout_forward {word : Nat → BitVec 32} {left place : Nat} {found : Layout}
    (walked : layout word left place = some found) :
    place ≤ found.termination ∧ ∀ i ∈ found.payload, i < found.termination := by
  induction left generalizing place found with
  | zero =>
    by_cases ends : word place = 0
    · rw [layout_stop ends] at walked
      obtain rfl := Option.some.inj walked
      simp
    · simp [layout_none ends] at walked
  | succ left ih =>
    by_cases ends : word place = 0
    · rw [layout_stop ends] at walked
      obtain rfl := Option.some.inj walked
      simp
    · rw [layout_section ends, Option.map_eq_some_iff] at walked
      obtain ⟨rest, inner, rfl⟩ := walked
      obtain ⟨forward, before⟩ := ih inner
      refine ⟨by simp only; omega, fun i member => ?_⟩
      rcases List.mem_append.mp member with here | later
      · have := List.mem_range'_1.mp here
        simp only
        omega
      · exact before i later

theorem layout_congr {word word' : Nat → BitVec 32} {left place : Nat} {found : Layout}
    (walked : layout word left place = some found)
    (same : ∀ i, i ≤ found.termination → word' i = word i) :
    layout word' left place = some found := by
  have here : word' place = word place := same place (layout_forward walked).left
  induction left generalizing place found with
  | zero =>
    by_cases ends : word place = 0
    · rw [layout_stop ends] at walked
      rw [layout_stop (here.trans ends), walked]
    · simp [layout_none ends] at walked
  | succ left ih =>
    by_cases ends : word place = 0
    · rw [layout_stop ends] at walked
      rw [layout_stop (here.trans ends), walked]
    · rw [layout_section ends, Option.map_eq_some_iff] at walked
      obtain ⟨rest, inner, rfl⟩ := walked
      have next := ih inner same (same _ (layout_forward inner).left)
      rw [layout_section (by rwa [here]), here, next]
      rfl

/-- A word of an image that is given as bytes. -/
def wordAt (image : List Byte) (i : Nat) : BitVec 32 := read32 image (4 * i)

theorem addWords_eq (image : List Byte) (words place : Nat) (checksum : BitVec 32) :
    addWords image words (4 * place) checksum =
      checksum + sumOver (wordAt image) (List.range' place words) := by
  induction words generalizing place checksum with
  | zero => simp [addWords, sumOver]
  | succ words ih =>
    have next : 4 * place + 4 = 4 * (place + 1) := by omega
    rw [addWords, next, ih, List.range'_succ, sumOver, sumOver, List.map_cons, List.sum_cons,
      BitVec.add_assoc]
    rfl

section Sections

variable {image : List Byte} {left place : Nat} {entry : BitVec 32}
  {walk after : Walk}

theorem parseSections_stop (here : walk.position = 4 * place)
    (room : 4 * (place + 2) ≤ image.length) (ends : wordAt image place = 0) :
    parseSections image left walk =
      .ok (read32 image (walk.position + 4), { walk with position := 4 * (place + 2) }) := by
  have fits : ¬ image.length - walk.position < kSectionHeaderBytes := by
    simp only [kSectionHeaderBytes]
    omega
  have zero : read32 image walk.position = 0 := by rw [here]; exact ends
  have moved : walk.position + kSectionHeaderBytes = 4 * (place + 2) := by
    simp only [kSectionHeaderBytes]
    omega
  rw [parseSections, if_neg fits]
  simp only [zero, if_true, moved]

/-- The walk after a section of so many words. -/
def Walk.pass (walk : Walk) (image : List Byte) (place : Nat) : Walk where
  sections := walk.sections ++
    [⟨read32 image (4 * place + 4), 4 * (place + 2), (wordAt image place).toNat * 4⟩]
  payloadBytes := walk.payloadBytes + (wordAt image place).toNat * 4
  checksum := addWords image (wordAt image place).toNat (4 * (place + 2)) walk.checksum
  position := 4 * (place + 2 + (wordAt image place).toNat)

theorem parseSections_go (here : walk.position = 4 * place)
    (room : 4 * (place + 2 + (wordAt image place).toNat) ≤ image.length)
    (goes : wordAt image place ≠ 0) :
    parseSections image (left + 1) walk = parseSections image left (walk.pass image place) := by
  have fits : ¬ image.length - walk.position < kSectionHeaderBytes := by
    simp only [kSectionHeaderBytes]
    omega
  have word : read32 image walk.position = wordAt image place := by rw [here]; rfl
  have moved : walk.position + kSectionHeaderBytes = 4 * (place + 2) := by
    simp only [kSectionHeaderBytes]
    omega
  have inside : ¬ (wordAt image place).toNat * 4 > image.length - 4 * (place + 2) := by omega
  have passed : 4 * (place + 2) + (wordAt image place).toNat * 4 =
      4 * (place + 2 + (wordAt image place).toNat) := by omega
  rw [parseSections, if_neg fits]
  simp only [word, moved, if_neg goes, if_neg inside, passed]
  rw [here]
  rfl

/-- What the parser needs of each turn of the loop. -/
theorem parseSections_room (here : walk.position = 4 * place)
    (parsed : parseSections image left walk = .ok (entry, after)) :
    4 * (place + 2) ≤ image.length ∧ (wordAt image place ≠ 0 →
      4 * (place + 2 + (wordAt image place).toNat) ≤ image.length ∧ ∃ k, left = k + 1) := by
  have word : read32 image walk.position = wordAt image place := by rw [here]; rfl
  rw [parseSections] at parsed
  by_cases fits : image.length - walk.position < kSectionHeaderBytes
  · rw [if_pos fits] at parsed
    cases parsed
  rw [if_neg fits] at parsed
  simp only [kSectionHeaderBytes] at fits
  refine ⟨by omega, fun goes => ?_⟩
  simp only [word, if_neg goes] at parsed
  cases left with
  | zero => cases parsed
  | succ left =>
    simp only at parsed
    split_ifs at parsed with outside
    simp only [kSectionHeaderBytes] at outside
    exact ⟨by omega, left, rfl⟩

/-- The parser's loop is the walk over the words. -/
theorem parseSections_ok (here : walk.position = 4 * place)
    (parsed : parseSections image left walk = .ok (entry, after)) :
    ∃ found, layout (wordAt image) left place = some found ∧
      4 * (found.termination + 2) ≤ image.length ∧
      after.position = 4 * (found.termination + 2) ∧
      after.checksum = walk.checksum + sumOver (wordAt image) found.payload ∧
      (after.sections = [] ↔ walk.sections = [] ∧ wordAt image place = 0) := by
  induction left generalizing walk place with
  | zero =>
    obtain ⟨room, more⟩ := parseSections_room here parsed
    by_cases ends : wordAt image place = 0
    · rw [parseSections_stop here room ends] at parsed
      obtain ⟨-, rfl⟩ := Prod.mk.inj (Except.ok.inj parsed)
      exact ⟨⟨[], place⟩, layout_stop ends, room, rfl, by simp [sumOver],
        by simp [ends]⟩
    · obtain ⟨-, k, absurd⟩ := more ends
      cases absurd
  | succ left ih =>
    obtain ⟨room, more⟩ := parseSections_room here parsed
    by_cases ends : wordAt image place = 0
    · rw [parseSections_stop here room ends] at parsed
      obtain ⟨-, rfl⟩ := Prod.mk.inj (Except.ok.inj parsed)
      exact ⟨⟨[], place⟩, layout_stop ends, room, rfl, by simp [sumOver],
        by simp [ends]⟩
    · rw [parseSections_go here (more ends).left ends] at parsed
      have sum : (walk.pass image place).checksum = _ :=
        addWords_eq image (wordAt image place).toNat (place + 2) walk.checksum
      have moved : (walk.pass image place).position =
          4 * (place + 2 + (wordAt image place).toNat) := rfl
      obtain ⟨found, walked, inside, position, checksum, sections⟩ := ih moved parsed
      have grown : layout (wordAt image) (left + 1) place = some
          ⟨List.range' (place + 2) (wordAt image place).toNat ++ found.payload,
            found.termination⟩ := by
        rw [layout_section ends, walked]
        rfl
      refine ⟨_, grown, inside, position, ?_, ?_⟩
      · rw [checksum, sum, sumOver_append, BitVec.add_assoc]
      · simp only [sections, Walk.pass, List.append_eq_nil_iff, List.cons_ne_nil, and_false,
          false_and, ends]

theorem parseSections_of_layout {found : Layout} (here : walk.position = 4 * place)
    (walked : layout (wordAt image) left place = some found)
    (room : 4 * (found.termination + 2) ≤ image.length) :
    ∃ entry after, parseSections image left walk = .ok (entry, after) := by
  induction left generalizing walk place found with
  | zero =>
    by_cases ends : wordAt image place = 0
    · rw [layout_stop ends] at walked
      obtain rfl := Option.some.inj walked
      exact ⟨_, _, parseSections_stop here room ends⟩
    · simp [layout_none ends] at walked
  | succ left ih =>
    by_cases ends : wordAt image place = 0
    · rw [layout_stop ends] at walked
      obtain rfl := Option.some.inj walked
      exact ⟨_, _, parseSections_stop here room ends⟩
    · rw [layout_section ends, Option.map_eq_some_iff] at walked
      obtain ⟨rest, inner, rfl⟩ := walked
      have forward := (layout_forward inner).left
      simp only at room
      rw [parseSections_go here (by omega) ends]
      exact ih rfl inner room

end Sections

/-! ## The verdict -/

/-- The four header bytes of a program. -/
structure Header (image : List Byte) : Prop where
  signature : image.getD 0 0 = kSignatureFirst ∧ image.getD 1 0 = kSignatureSecond
  executable : image.getD 2 0 &&& kControlNotExecutable = 0
  kind : image.getD 3 0 = kImageTypeNormalFirmware

/-- The walk of the words comes to an end, in a file of this many bytes, with the sum of
the payload it passed. -/
structure Summed (word : Nat → BitVec 32) (found : Layout) : Prop where
  walked : layout word kMaximumSections 1 = some found
  sum : sumOver word found.payload = word (found.termination + 2)

theorem checkHeader_ok {image : List Byte} : checkHeader image = .ok () ↔
    16 ≤ image.length ∧ Header image := by
  have smallest : kHeaderBytes + kSectionHeaderBytes + kChecksumBytes = 16 := rfl
  rw [checkHeader, smallest]
  constructor
  · intro passed
    split_ifs at passed with short signature control kind
    rw [not_or, not_not, not_not] at signature
    exact ⟨Nat.le_of_not_lt short, signature, not_not.mp control, not_not.mp kind⟩
  · rintro ⟨long, signature, executable, kind⟩
    have signed : ¬ (image.getD 0 0 ≠ kSignatureFirst ∨ image.getD 1 0 ≠ kSignatureSecond) := by
      rw [not_or, not_not, not_not]
      exact signature
    rw [if_neg (Nat.not_lt.mpr long), if_neg signed, if_neg (not_not.mpr executable),
      if_neg (not_not.mpr kind)]

/-- The loop starts behind the header. -/
theorem start_position : (⟨[], 0, 0, kHeaderBytes⟩ : Walk).position = 4 * 1 := rfl

/-- What `ParseBootImage` accepts. -/
theorem parseBootImage_ok {image : List Byte} : (∃ parsed, parseBootImage image = .ok parsed) ↔
    Header image ∧ wordAt image 1 ≠ 0 ∧ ∃ found, Summed (wordAt image) found ∧
      image.length = 4 * (found.termination + 3) := by
  constructor
  · rintro ⟨parsed, passed⟩
    rw [parseBootImage] at passed
    split at passed
    · cases passed
    rename_i header
    obtain ⟨-, header⟩ := checkHeader_ok.mp header
    split at passed
    · cases passed
    rename_i entry walk sections
    obtain ⟨found, walked, inside, position, checksum, empty⟩ :=
      parseSections_ok start_position sections
    split_ifs at passed with trailing damaged nothing
    rw [not_not] at trailing damaged
    simp only [kChecksumBytes] at trailing
    refine ⟨header, fun zero => nothing (empty.mpr ⟨rfl, zero⟩), found, ⟨walked, ?_⟩, by omega⟩
    calc sumOver (wordAt image) found.payload
        = 0 + sumOver (wordAt image) found.payload := (BitVec.zero_add _).symm
      _ = read32 image walk.position := by rw [damaged, checksum]
      _ = wordAt image (found.termination + 2) := by rw [position, wordAt]
  · rintro ⟨header, program, found, ⟨walked, sum⟩, length⟩
    obtain ⟨entry, walk, sections⟩ := parseSections_of_layout start_position walked (by omega)
    obtain ⟨same, walked', -, position, checksum, empty⟩ :=
      parseSections_ok start_position sections
    obtain rfl : found = same := Option.some.inj (walked.symm.trans walked')
    have forward := (layout_forward walked).left
    have passed := checkHeader_ok.mpr ⟨by omega, header⟩
    refine ⟨⟨walk.sections, entry, walk.payloadBytes⟩, ?_⟩
    have trailing : ¬ image.length - walk.position ≠ kChecksumBytes := by
      simp only [kChecksumBytes]
      omega
    have undamaged : ¬ read32 image walk.position ≠ walk.checksum := by
      rw [not_not, checksum, position]
      exact sum.symm.trans (BitVec.zero_add _).symm
    have loads : ¬ walk.sections = [] := fun nothing =>
      program (empty.mp nothing).right
    simp only [parseBootImage, passed, sections, if_neg trailing, if_neg undamaged, if_neg loads]

/-! ## The medium -/

/-- A word of the medium the boot ROM reads. -/
def word (m : Memory) (i : Nat) : BitVec 32 :=
  m (4 * i + 3) ++ m (4 * i + 2) ++ m (4 * i + 1) ++ m (4 * i)

/-- The parser's checks, on the medium from byte 0. -/
def Boots (m : Memory) : Prop :=
  ∃ length, length ≤ updateEepromSize ∧ ∃ parsed, parseBootImage (read m 0 length) = .ok parsed

theorem getD_read {m : Memory} {n i : Nat} (inside : i < n) : (read m 0 n).getD i 0 = m i := by
  have bound : i < (read m 0 n).length := by rwa [length_read]
  rw [List.getD_eq_getElem _ _ bound, getElem_read, Nat.zero_add]

theorem wordAt_read {m : Memory} {n i : Nat} (inside : 4 * i + 3 < n) :
    wordAt (read m 0 n) i = word m i := by
  rw [wordAt, read32, word, getD_read inside, getD_read (by omega), getD_read (by omega),
    getD_read (by omega)]

theorem header_congr {image image' : List Byte}
    (same : ∀ i, i < kHeaderBytes → image'.getD i 0 = image.getD i 0) (header : Header image) :
    Header image' where
  signature := by
    rw [same 0 (by decide), same 1 (by decide)]
    exact header.signature
  executable := by
    rw [same 2 (by decide)]
    exact header.executable
  kind := by
    rw [same 3 (by decide)]
    exact header.kind

theorem Summed.congr {word word' : Nat → BitVec 32} {found : Layout} (summed : Summed word found)
    (same : ∀ i, i ≤ found.termination + 2 → word' i = word i) : Summed word' found where
  walked := layout_congr summed.walked fun i before => same i (by omega)
  sum := by
    rw [same _ (Nat.le_refl _), ← summed.sum, sumOver, sumOver]
    congr 1
    apply List.map_congr_left
    intro i member
    have := (layout_forward summed.walked).right i member
    exact same i (by omega)

/-- What the parser accepts of a medium: a header, something to load, and a walk that ends inside
of it on the sum of the words passed. -/
theorem boots_iff {m : Memory} : Boots m ↔ Header (read m 0 kHeaderBytes) ∧ word m 1 ≠ 0 ∧
    ∃ found, Summed (word m) found ∧ 4 * (found.termination + 3) ≤ updateEepromSize := by
  constructor
  · rintro ⟨n, fits, parsed⟩
    obtain ⟨header, program, found, summed, length⟩ := parseBootImage_ok.mp parsed
    rw [length_read] at length
    have forward := (layout_forward summed.walked).left
    have same : ∀ i, i ≤ found.termination + 2 → word m i = wordAt (read m 0 n) i :=
      fun i inside => (wordAt_read (by omega)).symm
    refine ⟨header_congr (fun i inside => ?_) header, ?_, found, summed.congr same, by omega⟩
    · have : i < n := by
        simp only [kHeaderBytes] at inside
        omega
      rw [getD_read inside, getD_read this]
    · rw [same 1 (by omega)]
      exact program
  · rintro ⟨header, program, found, summed, fits⟩
    have forward := (layout_forward summed.walked).left
    have same : ∀ i, i ≤ found.termination + 2 →
        wordAt (read m 0 (4 * (found.termination + 3))) i = word m i :=
      fun i inside => wordAt_read (by omega)
    refine ⟨4 * (found.termination + 3), fits, parseBootImage_ok.mpr ⟨header_congr
      (fun i inside => ?_) header, ?_, found, summed.congr same, length_read _ _ _⟩⟩
    · have : i < 4 * (found.termination + 3) := by
        simp only [kHeaderBytes] at inside
        omega
      rw [getD_read inside, getD_read this]
    · rw [same 1 (by omega)]
      exact program

end BootFormat
