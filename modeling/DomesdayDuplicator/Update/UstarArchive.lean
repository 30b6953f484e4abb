import DomesdayDuplicator.Foundations.ByteFields
import DomesdayDuplicator.Foundations.FuelLoop
import DomesdayDuplicator.Update.UpdateManifest
import Mathlib.Algebra.Order.BigOperators.Group.List
import Mathlib.Algebra.Order.Group.Nat
import Mathlib.Data.List.Nodup
import Mathlib.Data.List.TakeWhile

/-!
# The bundle's archive

The ustar reader and writer of an update bundle. Sizes and offsets are a `size_t`
and wrap like one, so that none of them does is a statement about every turn of the
reader's loop.
-/

namespace UstarArchive

open ByteFields FuelLoop
open Manifest (Text text)

def kBlockSize : Nat := 512
def kNameSize : Nat := 100
def kSizeOffset : Nat := 124
def kSizeSize : Nat := 12
def kChecksumOffset : Nat := 148
def kChecksumSize : Nat := 8
def kTypeFlagOffset : Nat := 156
def kMagicOffset : Nat := 257
def kVersionOffset : Nat := 263
def kPrefixOffset : Nat := 345
def kMaximumEntryBytes : Nat := 64 * 1024 * 1024

/-- What a `size_t` holds of a number. -/
def sizeT (n : Nat) : Nat := n % 2 ^ 64

/-- No object is larger than `PTRDIFF_MAX`. -/
def Addressable (bytes : List Byte) : Prop := bytes.length < 2 ^ 63

/-! ## Octal fields -/

def space : Byte := 0x20
def slash : Byte := 0x2F
def digitZero : Byte := 0x30

def isPadding (b : Byte) : Bool := b == space || b == 0

/-- The digits up to the terminator, then padding to the field's end. -/
def readDigits : List Byte → Nat → Bool → Option Nat
  | [], value, anyDigits => if anyDigits then some value else none
  | character :: rest, value, anyDigits =>
    if isPadding character then
      if rest.all isPadding && anyDigits then some value else none
    else if character.toNat < 0x30 ∨ 0x37 < character.toNat then none
    else if (2 ^ 64 - 1) >>> 3 < value then none
    else readDigits rest (sizeT (value <<< 3) ||| (character.toNat - 0x30)) true

def readOctal (bytes : List Byte) : Option Nat :=
  readDigits (bytes.dropWhile isPadding) 0 false

def octalDigits (value : Nat) : Nat → List Byte
  | 0 => []
  | count + 1 => octalDigits (value >>> 3) count ++ [BitVec.ofNat 8 (0x30 + (value &&& 7))]

def writeOctal (value size : Nat) : List Byte := octalDigits value (size - 1) ++ [0]

/-! ## The reader -/

structure Span where
  start : Nat
  size : Nat
  deriving DecidableEq

def Span.bytes (archive : List Byte) (span : Span) : List Byte :=
  field archive span.start span.size

structure BundleEntry where
  name : Text
  data : Span
  deriving DecidableEq

def headerChecksum (block : List Byte) : Nat :=
  ((List.range kBlockSize).map fun index =>
    if kChecksumOffset ≤ index ∧ index < kChecksumOffset + kChecksumSize then space.toNat
    else (block.getD index 0).toNat).sum

def readField (bytes : List Byte) : Text := bytes.takeWhile (· != 0)

def isZeroBlock (block : List Byte) : Bool := block.all (· == 0)

def findEntry (entries : List BundleEntry) (name : Text) : Option BundleEntry :=
  entries.find? fun entry => entry.name == name

/-- The name and the size a header block declares, or why it is refused. -/
def readHeader (entries : List BundleEntry) (block : List Byte) : Except String (Text × Nat) :=
  let name := readField (field block 0 kNameSize)
  if readOctal (field block kChecksumOffset kChecksumSize) ≠ some (headerChecksum block) then
    .error "a header block has a bad checksum"
  else if field block kMagicOffset 5 ≠ text "ustar" then
    .error "a header block is not in ustar format"
  else if block.getD kTypeFlagOffset 0 ≠ digitZero ∧ block.getD kTypeFlagOffset 0 ≠ 0 then
    .error "the archive contains something that is not a regular file"
  else if block.getD kPrefixOffset 0 ≠ 0 then
    .error "the archive contains a path prefix"
  else if name = [] ∨ slash ∈ name then
    .error "the archive contains an entry that is not a bare filename"
  else if (findEntry entries name).isSome then
    .error "the archive contains two entries with the same name"
  else
    match readOctal (field block kSizeOffset kSizeSize) with
    | none => .error "a header block has a malformed size"
    | some size =>
      if kMaximumEntryBytes < size then .error "the archive contains an implausibly large entry"
      else .ok (name, size)

def paddedSize (size : Nat) : Nat :=
  sizeT (sizeT (sizeT (size + kBlockSize) - 1) / kBlockSize * kBlockSize)

/-- The reader's place in the archive and what it has found. -/
structure Walk where
  offset : Nat
  entries : List BundleEntry

def Walk.start : Walk := ⟨0, []⟩

def turn (archive : List Byte) (walk : Walk) : Turn Walk (Except String (List BundleEntry)) :=
  if sizeT (walk.offset + kBlockSize) ≤ archive.length then
    let block := field archive walk.offset kBlockSize
    if isZeroBlock block then .done (.ok walk.entries)
    else
      match readHeader walk.entries block with
      | .error reason => .done (.error reason)
      | .ok (name, size) =>
        let dataOffset := sizeT (walk.offset + kBlockSize)
        let next := sizeT (dataOffset + paddedSize size)
        if archive.length < next then .done (.error "an entry runs past the end of the archive")
        else .again ⟨next, walk.entries ++ [⟨name, ⟨dataOffset, size⟩⟩]⟩
  else .done (.ok walk.entries)

def finished (entries : List BundleEntry) : Except String (List BundleEntry) :=
  if entries = [] then .error "the archive contains no entries" else .ok entries

/-- The reader with so many turns of its loop; `none` where they do not suffice. -/
def readUstarArchive (fuel : Nat) (archive : List Byte) :
    Option (Except String (List BundleEntry)) :=
  if archive = [] ∨ archive.length % kBlockSize ≠ 0 then
    some (.error "the archive is empty or not a whole number of 512-byte blocks")
  else (run (turn archive) fuel .start).map fun result => result.bind finished

/-! ## The writer -/

structure File where
  name : Text
  data : List Byte
  deriving DecidableEq

/-- The fields written before the checksum is known; spaces stand in its own. -/
def headerEntries (name : Text) (size : Nat) : List (Nat × List Byte) :=
  [(0, name.take kNameSize), (100, writeOctal 0o644 8), (108, writeOctal 0 8),
    (116, writeOctal 0 8), (kSizeOffset, writeOctal size kSizeSize), (136, writeOctal 0 12),
    (kTypeFlagOffset, [digitZero]), (kMagicOffset, text "ustar"), (kVersionOffset, text "00"),
    (kChecksumOffset, List.replicate kChecksumSize space)]

def headerFields (name : Text) (size : Nat) : List Byte :=
  putAll (headerEntries name size) (List.replicate kBlockSize 0)

/-- Six digits, a NUL and a space. -/
def checksumEntries (checksum : Nat) : List (Nat × List Byte) :=
  [(kChecksumOffset, writeOctal checksum 7), (kChecksumOffset + 7, [space])]

def header (name : Text) (size : Nat) : List Byte :=
  let fields := headerFields name size
  putAll (checksumEntries (headerChecksum fields)) fields

def padding (size : Nat) : List Byte :=
  if size % kBlockSize ≠ 0 then List.replicate (kBlockSize - size % kBlockSize) 0 else []

def addFile (blocks : List Byte) (file : File) : List Byte :=
  blocks ++ header file.name file.data.length ++ file.data ++ padding file.data.length

def finish (blocks : List Byte) : List Byte := blocks ++ List.replicate (2 * kBlockSize) 0

def writeArchive (files : List File) : List Byte := finish (files.foldl addFile [])

/-! ## Octal fields are read as they are written -/

theorem length_octalDigits (value count : Nat) : (octalDigits value count).length = count := by
  induction count generalizing value with
  | zero => rfl
  | succ count ih => simp [octalDigits, ih]

@[simp] theorem length_writeOctal {value size : Nat} (room : 0 < size) :
    (writeOctal value size).length = size := by
  simp [writeOctal, length_octalDigits]
  omega

theorem digit_toNat (value : Nat) : (BitVec.ofNat 8 (0x30 + (value &&& 7))).toNat =
    0x30 + value % 8 := by
  rw [show value &&& 7 = value % 8 from Nat.and_two_pow_sub_one_eq_mod value 3,
    BitVec.toNat_ofNat, Nat.mod_eq_of_lt (by omega)]

theorem digit_not_padding (value : Nat) :
    isPadding (BitVec.ofNat 8 (0x30 + (value &&& 7))) = false := by
  have code := digit_toNat value
  generalize BitVec.ofNat 8 (0x30 + (value &&& 7)) = digit at code
  have not_space : digit ≠ space := by
    rintro rfl
    simp [space] at code
    omega
  have not_nul : digit ≠ 0#8 := by
    rintro rfl
    simp at code
    omega
  simp [isPadding, not_space, not_nul]

/-- One more digit keeps the value inside a `uint64_t`, by the check before it. -/
theorem shift_or {value digit : Nat} (checked : ¬(2 ^ 64 - 1) >>> 3 < value) (small : digit < 8) :
    sizeT (value <<< 3) ||| digit = value * 8 + digit ∧ value * 8 + digit < 2 ^ 64 := by
  have limit : (2 ^ 64 - 1) >>> 3 = 2 ^ 61 - 1 := by decide
  have shifted : value <<< 3 = value * 8 := Nat.shiftLeft_eq value 3
  have kept : sizeT (value <<< 3) = value <<< 3 := Nat.mod_eq_of_lt (by omega)
  rw [kept, ← Nat.shiftLeft_add_eq_or_of_lt small, shifted]
  omega

theorem readDigits_digit {start value : Nat} (rest : List Byte) (anyDigits : Bool)
    (room : start * 8 + value % 8 < 2 ^ 64) :
    readDigits (BitVec.ofNat 8 (0x30 + (value &&& 7)) :: rest) start anyDigits =
      readDigits rest (start * 8 + value % 8) true := by
  have limit : (2 ^ 64 - 1) >>> 3 = 2 ^ 61 - 1 := by decide
  have digit : ¬(0x30 + value % 8 < 0x30 ∨ 0x37 < 0x30 + value % 8) := by omega
  have checked : ¬(2 ^ 64 - 1) >>> 3 < start := by omega
  rw [readDigits, digit_not_padding, digit_toNat, if_neg (by simp), if_neg digit, if_neg checked,
    Nat.add_sub_cancel_left, (shift_or checked (by omega)).left]

theorem readDigits_digits {value count start : Nat} {rest : List Byte} {anyDigits : Bool}
    (small : value < 8 ^ count) (room : start * 8 ^ count + value < 2 ^ 64) :
    readDigits (octalDigits value count ++ rest) start anyDigits =
      readDigits rest (start * 8 ^ count + value) (anyDigits || decide (0 < count)) := by
  induction count generalizing value rest with
  | zero =>
    have none_left : value = 0 := by simpa using small
    simp [octalDigits, none_left]
  | succ count ih =>
    have split : start * 8 ^ (count + 1) + value = (start * 8 ^ count + value / 8) * 8 + value % 8 := by
      rw [Nat.pow_succ]
      have := Nat.div_add_mod value 8
      grind
    have shifted : value >>> 3 = value / 8 := Nat.shiftRight_eq_div_pow value 3
    have low : value / 8 < 8 ^ count := by
      rw [Nat.pow_succ] at small
      omega
    rw [split] at room
    rw [octalDigits, List.append_assoc, List.singleton_append, shifted, ih low (by omega),
      readDigits_digit _ _ room, split]
    simp

/-- A written number is read back, whatever padding follows it. -/
theorem readOctal_written {value count : Nat} {rest : List Byte} (some_digits : 0 < count)
    (small : value < 8 ^ count) (room : value < 2 ^ 64) (padded : rest.all isPadding) :
    readOctal (octalDigits value count ++ 0 :: rest) = some value := by
  have first : (octalDigits value count ++ 0 :: rest).dropWhile isPadding =
      octalDigits value count ++ 0 :: rest := by
    obtain ⟨k, rfl⟩ := Nat.exists_eq_add_of_lt some_digits
    have heads : ∀ (n v : Nat) (tail : List Byte), (octalDigits v (n + 1) ++ tail).dropWhile isPadding =
        octalDigits v (n + 1) ++ tail := by
      intro n
      induction n with
      | zero =>
        intro v tail
        simp [octalDigits, digit_not_padding]
      | succ n ih =>
        intro v tail
        rw [octalDigits, List.append_assoc]
        exact ih _ _
    simpa using heads k value (0 :: rest)
  rw [readOctal, first, readDigits_digits small (by simpa using room)]
  simp [readDigits, isPadding, padded, some_digits]

/-- The number the digits of a field make. -/
def octalValue (bytes : List Byte) : Nat :=
  ((bytes.dropWhile isPadding).takeWhile fun b => !isPadding b).foldl
    (fun value digit => value * 8 + (digit.toNat - 0x30)) 0

theorem readDigits_exact {bytes : List Byte} {value result : Nat} {anyDigits : Bool}
    (small : value < 2 ^ 64) (read : readDigits bytes value anyDigits = some result) :
    result = (bytes.takeWhile fun b => !isPadding b).foldl
      (fun value digit => value * 8 + (digit.toNat - 0x30)) value ∧ result < 2 ^ 64 := by
  induction bytes generalizing value anyDigits with
  | nil =>
    have same : value = result := by simpa [readDigits] using (Option.ite_none_right_eq_some.mp read).right
    exact ⟨same.symm, same ▸ small⟩
  | cons character rest ih =>
    rw [readDigits] at read
    by_cases pad : isPadding character = true
    · rw [if_pos pad] at read
      have same : value = result := by simpa using (Option.ite_none_right_eq_some.mp read).right
      exact ⟨by simp [pad, same], same ▸ small⟩
    rw [if_neg pad] at read
    split at read
    · cases read
    split at read
    · cases read
    rename_i digit checked
    have small : character.toNat - 0x30 < 8 := by omega
    obtain ⟨next, bound⟩ := shift_or checked small
    rw [next] at read
    simpa [pad] using ih bound read

/-- What is read of a field is the number it holds, and a `uint64_t` holds it. -/
theorem readOctal_exact {bytes : List Byte} {result : Nat} (read : readOctal bytes = some result) :
    result = octalValue bytes ∧ result < 2 ^ 64 :=
  readDigits_exact (by decide) read

/-! ## A header is read as it is written -/

theorem length_ustar : (text "ustar").length = 5 := by decide

theorem length_version : (text "00").length = 2 := by decide

theorem headerEntries_fit (name : Text) (size : Nat) :
    Fit (headerEntries name size) (List.replicate kBlockSize (0 : Byte)).length := by
  rw [List.length_replicate]
  simp [Fit, headerEntries, kNameSize, kSizeOffset, kSizeSize, kTypeFlagOffset, kMagicOffset,
    kVersionOffset, kChecksumOffset, kChecksumSize, kBlockSize, length_ustar, length_version]

@[simp] theorem length_headerFields (name : Text) (size : Nat) :
    (headerFields name size).length = kBlockSize := by
  rw [headerFields, length_putAll (headerEntries_fit name size), List.length_replicate]

theorem checksumEntries_fit (checksum : Nat) {block : List Byte}
    (whole : block.length = kBlockSize) : Fit (checksumEntries checksum) block.length := by
  rw [whole]
  simp [Fit, checksumEntries, kChecksumOffset, kBlockSize]

@[simp] theorem length_header (name : Text) (size : Nat) :
    (header name size).length = kBlockSize := by
  rw [header, length_putAll (checksumEntries_fit _ (length_headerFields name size)),
    length_headerFields]

theorem headerChecksum_congr {a b : List Byte}
    (same : ∀ i, i < kChecksumOffset ∨ kChecksumOffset + kChecksumSize ≤ i →
      a.getD i 0 = b.getD i 0) : headerChecksum a = headerChecksum b := by
  apply congrArg List.sum
  apply List.map_congr_left
  intro i _
  by_cases inside : kChecksumOffset ≤ i ∧ i < kChecksumOffset + kChecksumSize
  · simp [inside]
  · rw [if_neg inside, if_neg inside, same i (by omega)]

/-- Nothing but the checksum is written after the other fields. -/
theorem field_header {name : Text} {size first width : Nat}
    (apart : first + width ≤ kChecksumOffset ∨ kChecksumOffset + kChecksumSize ≤ first) :
    field (header name size) first width = field (headerFields name size) first width := by
  apply field_putAll_apart (checksumEntries_fit _ (length_headerFields name size))
  simp [Apart, checksumEntries]
  simp only [kChecksumOffset, kChecksumSize] at apart ⊢
  omega

theorem headerChecksum_header (name : Text) (size : Nat) :
    headerChecksum (header name size) = headerChecksum (headerFields name size) := by
  apply headerChecksum_congr
  intro i outside
  rw [getD_eq_field, field_header (by omega), ← getD_eq_field]

theorem headerChecksum_lt (block : List Byte) : headerChecksum block < 8 ^ 6 := by
  have each : ∀ n ∈ (List.range kBlockSize).map (fun index =>
      if kChecksumOffset ≤ index ∧ index < kChecksumOffset + kChecksumSize then space.toNat
      else (block.getD index 0).toNat), n ≤ 255 := by
    intro n member
    obtain ⟨index, -, rfl⟩ := List.mem_map.mp member
    split
    · decide
    · exact Nat.le_of_lt_succ (block.getD index 0).isLt
  have total := List.sum_le_card_nsmul _ _ each
  rw [List.length_map, List.length_range, kBlockSize] at total
  simp only [headerChecksum, kBlockSize]
  exact Nat.lt_of_le_of_lt total (by decide)

/-- One field of the header, where nothing written later lies over it. -/
theorem field_headerEntries {name : Text} {size k offset : Nat} {bytes : List Byte}
    (entry : (headerEntries name size)[k]? = some (offset, bytes))
    (apart : Apart ((headerEntries name size).drop (k + 1)) offset bytes.length)
    (outside : offset + bytes.length ≤ kChecksumOffset ∨
      kChecksumOffset + kChecksumSize ≤ offset) :
    field (header name size) offset bytes.length = bytes := by
  rw [field_header outside]
  exact field_putAll (headerEntries_fit name size) entry apart

theorem field_size (name : Text) (size : Nat) :
    field (header name size) kSizeOffset kSizeSize = writeOctal size kSizeSize := by
  have width : (writeOctal size kSizeSize).length = kSizeSize := length_writeOctal (by decide)
  have entry : (headerEntries name size)[4]? = some (kSizeOffset, writeOctal size kSizeSize) := rfl
  have later : Apart ((headerEntries name size).drop 5) kSizeOffset kSizeSize := by
    simp [Apart, headerEntries, kSizeOffset, kSizeSize, kTypeFlagOffset, kMagicOffset,
      kVersionOffset, kChecksumOffset]
  rw [← width] at later
  have written := field_headerEntries entry later (.inl (by rw [width]; decide))
  rwa [width] at written

theorem field_magic (name : Text) (size : Nat) :
    field (header name size) kMagicOffset 5 = text "ustar" := by
  have entry : (headerEntries name size)[7]? = some (kMagicOffset, text "ustar") := rfl
  have later : Apart ((headerEntries name size).drop 8) kMagicOffset (text "ustar").length := by
    simp [Apart, headerEntries, kMagicOffset, kVersionOffset, kChecksumOffset, kChecksumSize,
      length_ustar, length_version]
  have written := field_headerEntries entry later (.inr (by decide))
  rwa [length_ustar] at written

theorem getD_typeFlag (name : Text) (size : Nat) :
    (header name size).getD kTypeFlagOffset 0 = digitZero := by
  have entry : (headerEntries name size)[6]? = some (kTypeFlagOffset, [digitZero]) := rfl
  have later : Apart ((headerEntries name size).drop 7) kTypeFlagOffset [digitZero].length := by
    simp [Apart, headerEntries, kTypeFlagOffset, kMagicOffset, kVersionOffset, kChecksumOffset,
      kChecksumSize]
  have written := field_headerEntries entry later (.inr (by decide))
  rw [getD_eq_field]
  exact congrArg (fun bytes => bytes.getD 0 0) written

theorem field_checksum (checksum : Nat) {block : List Byte} (whole : block.length = kBlockSize) :
    field (putAll (checksumEntries checksum) block) kChecksumOffset kChecksumSize =
      writeOctal checksum 7 ++ [space] := by
  have width : (writeOctal checksum 7).length = 7 := length_writeOctal (by decide)
  have fit := checksumEntries_fit checksum whole
  have first : (checksumEntries checksum)[0]? =
      some (kChecksumOffset, writeOctal checksum 7) := rfl
  have second : (checksumEntries checksum)[1]? = some (kChecksumOffset + 7, [space]) := rfl
  have digits := field_putAll fit first (by simp [Apart, checksumEntries, width])
  have last := field_putAll fit second (by simp [Apart, checksumEntries])
  rw [width] at digits
  rw [List.length_singleton] at last
  rw [show kChecksumSize = 7 + 1 from rfl, field_add, digits, last]

/-- The checksum's own field: six digits, a NUL and a space. -/
theorem readOctal_checksum (name : Text) (size : Nat) :
    readOctal (field (header name size) kChecksumOffset kChecksumSize) =
      some (headerChecksum (header name size)) := by
  have small := headerChecksum_lt (headerFields name size)
  have written : field (header name size) kChecksumOffset kChecksumSize =
      octalDigits (headerChecksum (headerFields name size)) 6 ++ 0 :: [space] := by
    have field_eq := field_checksum (headerChecksum (headerFields name size))
      (length_headerFields name size)
    rw [writeOctal, List.append_assoc] at field_eq
    exact field_eq
  rw [written, readOctal_written (by decide) small (by omega) (by decide), headerChecksum_header]

theorem getD_prefix (name : Text) (size : Nat) :
    (header name size).getD kPrefixOffset 0 = 0 := by
  have apart : Apart (headerEntries name size) kPrefixOffset 1 := by
    simp [Apart, headerEntries, kPrefixOffset, kNameSize, kSizeOffset, kSizeSize,
      kTypeFlagOffset, kMagicOffset, kVersionOffset, kChecksumOffset, kChecksumSize,
      length_ustar, length_version]
  rw [getD_eq_field, field_header (by decide), headerFields,
    field_putAll_apart (headerEntries_fit name size) apart]
  rw [field_replicate _ _ _ (by decide)]
  rfl

/-- A file the format has room for: a bare name in a NUL-terminated field of a hundred
bytes, and data within the limit. -/
structure Storable (file : File) : Prop where
  named : file.name ≠ []
  bare : slash ∉ file.name
  terminated : (0 : Byte) ∉ file.name
  short : file.name.length ≤ kNameSize
  small : file.data.length ≤ kMaximumEntryBytes

theorem field_name {name : Text} (size : Nat) (short : name.length ≤ kNameSize) :
    field (header name size) 0 kNameSize =
      name ++ List.replicate (kNameSize - name.length) 0 := by
  have apart : Apart ((headerEntries name size).drop 1) 0 kNameSize := by
    simp [Apart, headerEntries, kNameSize, kSizeOffset, kTypeFlagOffset, kMagicOffset,
      kVersionOffset, kChecksumOffset]
  have kept := List.take_of_length_le short
  have wide : (name.take kNameSize).length ≤ kNameSize := List.length_take_le _ _
  have written := field_putAll_first (headerEntries_fit name size) wide apart
  have room : 0 + name.length + (kNameSize - name.length) ≤ kBlockSize := by
    simp only [kBlockSize, kNameSize] at short ⊢
    omega
  calc field (header name size) 0 kNameSize
      = field (headerFields name size) 0 kNameSize := field_header (by decide)
    _ = _ := written
    _ = _ := by rw [kept, field_replicate _ _ _ room]

theorem readField_name {name : Text} (size : Nat) (short : name.length ≤ kNameSize)
    (terminated : (0 : Byte) ∉ name) :
    readField (field (header name size) 0 kNameSize) = name := by
  have kept : ∀ b ∈ name, (b != 0) = true := by
    intro b member
    have : b ≠ 0 := fun zero => terminated (zero ▸ member)
    simpa using this
  rw [field_name size short, readField, List.takeWhile_append_of_pos kept]
  simp

theorem header_not_zero (name : Text) (size : Nat) : isZeroBlock (header name size) = false := by
  by_contra all
  have zero : ∀ b ∈ header name size, b = 0#8 := by simpa [isZeroBlock] using all
  have inside : kTypeFlagOffset < (header name size).length := by
    rw [length_header]
    decide
  have flag := getD_typeFlag name size
  rw [List.getD_eq_getElem _ _ inside, zero _ (List.getElem_mem inside)] at flag
  exact absurd flag (by decide)

/-- What the writer puts at the head of a file the reader takes for it. -/
theorem readHeader_header {file : File} {entries : List BundleEntry} (storable : Storable file)
    (fresh : findEntry entries file.name = none) :
    readHeader entries (header file.name file.data.length) =
      .ok (file.name, file.data.length) := by
  have bound : file.data.length < 8 ^ 11 := by
    have := storable.small
    simp only [kMaximumEntryBytes] at this
    omega
  have size : readOctal (field (header file.name file.data.length) kSizeOffset kSizeSize) =
      some file.data.length := by
    rw [field_size, writeOctal]
    exact readOctal_written (by decide) bound (by omega) rfl
  simp only [readHeader, readOctal_checksum, field_magic, getD_typeFlag, getD_prefix,
    readField_name _ storable.short storable.terminated, size, fresh]
  simp [storable.named, storable.bare, Nat.not_lt.mpr storable.small]

end UstarArchive
