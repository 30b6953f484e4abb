import DomesdayDuplicator.Firmware.BootDownload
import DomesdayDuplicator.Firmware.ProgrammerDownload

/-!
# Two downloaders of one format

`device_recovery.cpp` parses an image before it sends any of it; the command-line programmer
sends what it finds on its way through the file. The transfers of the one are those of the
other for an accepted file that is read whole, and the programmer looks neither at how the
file ends nor at its checksum.
-/

namespace DownloadAgreement

open Attempts BootDownload BootFormat FuelLoop ProgrammerDownload UpdateProtocol

/-! ## The application's download -/

def kRamDownloadRequest : Byte := 0xA0

/-- A download request, its address split over the two fields. -/
def request (target : BitVec 32) (block : List Byte) : Transfer :=
  ⟨kRamDownloadRequest, (target &&& 0xFFFF).setWidth 16,
    ((target >>> 16) &&& 0xFFFF).setWidth 16, block⟩

/-- The loop of `WriteRam`. -/
def writeRam (device : Device) (address : BitVec 32) (data : List Byte) :
    Nat → Nat → List Transfer → Bool × List Transfer
  | 0, _, issued => (true, issued)
  | turns + 1, sent, issued =>
    if sent < data.length then
      let block := min kMaximumDownloadBytes (data.length - sent)
      let target := address + BitVec.ofNat 32 sent
      let t := request target ((data.drop sent).take block)
      let written := device.answer issued t
      if written ≠ block then (false, issued ++ [t])
      else writeRam device address data turns (sent + block) (issued ++ [t])
    else (true, issued)

/-- The loop over the sections in `Wake`. -/
def writeSections (device : Device) (file : List Byte) :
    List BootImageSection → List Transfer → Bool × List Transfer
  | [], issued => (true, issued)
  | s :: rest, issued =>
    let bytes := (sectionBytes file s).2
    let sent := writeRam device s.address bytes bytes.length 0 issued
    if sent.1 then writeSections device file rest sent.2 else sent

/-- `Wake`, of a parsed image and as far as the jump of `Start`. -/
def wake (device : Device) (file : List Byte) (image : BootImage) : Bool × List Transfer :=
  let sent := writeSections device file image.sections []
  if sent.1 then (true, sent.2 ++ [request image.entryAddress []]) else sent

/-- All the blocks of the sections. -/
def blocks (file : List Byte) (sections : List BootImageSection) : List Transfer :=
  sections.flatMap fun s => sectionTransfers s.address (sectionBytes file s).2

theorem request_eq (address : BitVec 32) (data : List Byte) :
    request address data = dlCmd address data := by
  have high : ((address >>> 16) &&& 0xFFFF).setWidth 16 = (address >>> 16).setWidth 16 := by
    apply BitVec.eq_of_toNat_eq
    have mask : (0xFFFF : BitVec 32).toNat = 2 ^ 16 - 1 := rfl
    rw [BitVec.toNat_setWidth, BitVec.toNat_and, BitVec.toNat_setWidth, mask,
      Nat.and_two_pow_sub_one_eq_mod, Nat.mod_mod]
  rw [request, dlCmd, high]
  rfl

theorem dlCmd_injective {a b : BitVec 32} {data : List Byte}
    (same : dlCmd a data = dlCmd b data) : a = b := by
  rw [dlCmd, dlCmd, Transfer.mk.injEq] at same
  obtain ⟨-, low, high, -⟩ := same
  have mask : (0xFFFF : BitVec 32).toNat = 2 ^ 16 - 1 := rfl
  have low := congrArg BitVec.toNat low
  have high := congrArg BitVec.toNat high
  simp only [getLsw, getMsw, BitVec.toNat_setWidth, BitVec.toNat_and, mask,
    Nat.and_two_pow_sub_one_eq_mod, BitVec.toNat_ushiftRight, Nat.shiftRight_eq_div_pow] at low high
  apply BitVec.eq_of_toNat_eq
  have := a.isLt
  have := b.isLt
  omega

section Whole

variable {device : Device} {address : BitVec 32} {data file : List Byte}
  {turns sent : Nat} {issued : List Transfer} {sections : List BootImageSection}
  {image : BootImage}

theorem writeRam_eq (whole : device.Whole) :
    writeRam device address data turns sent issued =
      issue device issued (chunks address data turns sent) := by
  induction turns generalizing sent issued with
  | zero => rfl
  | succ turns ih =>
    rw [writeRam, chunks]
    by_cases more : sent < data.length
    · have size : min kMaximumDownloadBytes (data.length - sent) =
          (chunk address data sent).data.length := length_chunk.symm
      have same : request (address + BitVec.ofNat 32 sent)
          ((data.drop sent).take (chunk address data sent).data.length) =
            chunk address data sent := by
        have own : ∀ size : Nat, (data.drop sent).take ((data.drop sent).take size).length =
            (data.drop sent).take size := fun size => by
          rw [List.length_take, ← List.take_take, List.take_length]
        rw [request_eq]
        exact congrArg (dlCmd _) (own _)
      rw [if_pos more, if_pos more]
      simp only [size, same]
      by_cases refused : device.answer issued (chunk address data sent) < 0
      · have short : device.answer issued (chunk address data sent) ≠
            ((chunk address data sent).data.length : Int) := by omega
        have failed : ¬ (tryTransfer device issued (chunk address data sent)).1 = true := by
          rw [tryTransfer, decide_eq_true_eq]
          omega
        rw [issue, perform_cons_failed failed, if_pos short]
        rfl
      · have taken := (whole issued (chunk address data sent)).resolve_right refused
        have ok : (tryTransfer device issued (chunk address data sent)).1 = true := by
          rw [tryTransfer, decide_eq_true_eq]
          omega
        rw [issue, perform_cons_ok ok, if_neg (not_not.mpr taken), ih]
        rfl
    · rw [if_neg more, if_neg more]
      rfl

theorem writeSections_eq (whole : device.Whole) :
    writeSections device file sections issued = issue device issued (blocks file sections) := by
  induction sections generalizing issued with
  | nil => rfl
  | cons s rest ih =>
    rw [writeSections, blocks, List.flatMap_cons, issue, perform_append]
    simp only [writeRam_eq whole, ih]
    rfl

/-- The application's download, beside the way the programmer's comes out. -/
theorem wake_eq (whole : device.Whole) :
    (.returned (if (wake device file image).1 then 0 else -1), (wake device file image).2) =
      finish image.entryAddress (issue device [] (blocks file image.sections)) := by
  rw [wake, writeSections_eq whole, request_eq]
  rcases issue device [] (blocks file image.sections) with ⟨_ | _, log⟩
  · rfl
  · rfl

end Whole

/-! ## What the parser accepts, the programmer walks -/

theorem toInt_word {word : BitVec 32} (small : word.toNat * 4 < 2 ^ 33) :
    word.toInt = word.toNat := by
  refine BitVec.toInt_eq_toNat_of_lt ?_
  omega

/-- The section whose header is at this place. -/
def sectionAt (file : List Byte) (p : Nat) : BootImageSection :=
  ⟨read32 file (p + 4), p + 8, (read32 file p).toNat * 4⟩

/-- Where it ends. -/
def behind (file : List Byte) (p : Nat) : Nat := p + 8 + (read32 file p).toNat * 4

section Records

variable {file : List Byte} {p : Nat}

theorem readRecord_entry (room : p + 8 ≤ file.length) (zero : read32 file p = 0) :
    readRecord file p = .entry (read32 file (p + 4)) := by
  have none' : (0 : BitVec 32).toInt = 0 := rfl
  rw [readRecord]
  simp only [zero, none']
  rw [if_neg (by omega), if_pos trivial, if_pos (by omega)]

theorem readRecord_payload (some : read32 file p ≠ 0) (inside : behind file p ≤ file.length)
    (small : file.length < 2 ^ 31) :
    readRecord file p = .payload (sectionAt file p).address
      (sectionBytes file (sectionAt file p)).2 (behind file p) := by
  have positive : 0 < (read32 file p).toNat :=
    Nat.pos_of_ne_zero fun zero => some (BitVec.eq_of_toNat_eq zero)
  rw [behind] at inside
  have signed : (read32 file p).toInt = (read32 file p).toNat := toInt_word (by omega)
  rw [readRecord, behind, sectionBytes, sectionAt]
  simp only [signed]
  generalize (read32 file p).toNat = words at *
  have length : ((words : Int) * 4).toNat = words * 4 := by omega
  have next : ((p : Int) + 8 + (words : Int) * 4).toNat = p + 8 + words * 4 := by omega
  rw [if_neg (by omega), if_neg (by omega), if_neg (by omega), if_neg (by omega),
    if_neg (by omega), if_neg (by omega), length, next]

theorem readRecord_entry_inv {address : BitVec 32} (ends : readRecord file p = .entry address) :
    p + 8 ≤ file.length ∧ read32 file p = 0 := by
  rw [readRecord] at ends
  dsimp only at ends
  split_ifs at ends with short zero inside
  refine ⟨by omega, BitVec.eq_of_toInt_eq ?_⟩
  rw [zero]
  rfl

theorem readRecord_payload_inv {address : BitVec 32} {data : List Byte} {next : Nat}
    (found : readRecord file p = .payload address data next) :
    p + 8 ≤ file.length ∧ read32 file p ≠ 0 ∧
      (next : Int) = p + 8 + (read32 file p).toInt * 4 := by
  rw [readRecord] at found
  dsimp only at found
  split_ifs at found with short zero outside wide long back
  obtain ⟨-, -, rfl⟩ := Record.payload.inj found
  refine ⟨by omega, ?_, by omega⟩
  intro none'
  exact zero (by rw [none']; rfl)

end Records

section Accepted

variable {file buf : List Byte} {left : Nat} {walk after : Walk} {entry start : BitVec 32}
  {image : BootImage} {transfers : List Transfer}

/-- One turn of the parser's loop. -/
theorem parseSections_turn (parsed : parseSections file left walk = .ok (entry, after)) :
    walk.position + 8 ≤ file.length ∧
      ((read32 file walk.position = 0 ∧ entry = read32 file (walk.position + 4) ∧
        after.sections = walk.sections ∧ after.position = walk.position + 8) ∨
      (read32 file walk.position ≠ 0 ∧ behind file walk.position ≤ file.length ∧
        ∃ left' walk', left = left' + 1 ∧ parseSections file left' walk' = .ok (entry, after) ∧
          walk'.position = behind file walk.position ∧
          walk'.sections = walk.sections ++ [sectionAt file walk.position])) := by
  rw [parseSections] at parsed
  by_cases short : file.length - walk.position < kSectionHeaderBytes
  · rw [if_pos short] at parsed
    cases parsed
  rw [if_neg short] at parsed
  have moved : walk.position + kSectionHeaderBytes = walk.position + 8 := rfl
  rw [moved] at parsed
  simp only [kSectionHeaderBytes] at short
  refine ⟨by omega, ?_⟩
  by_cases zero : read32 file walk.position = 0
  · simp only [zero, if_true] at parsed
    obtain ⟨rfl, rfl⟩ := Prod.mk.inj (Except.ok.inj parsed)
    exact Or.inl ⟨zero, rfl, rfl, rfl⟩
  simp only [if_neg zero] at parsed
  cases left with
  | zero => cases parsed
  | succ left =>
    simp only at parsed
    by_cases outside : (read32 file walk.position).toNat * 4 >
        file.length - (walk.position + 8)
    · rw [if_pos outside] at parsed
      cases parsed
    · rw [if_neg outside] at parsed
      refine Or.inr ⟨zero, ?_, left, _, rfl, parsed, rfl, rfl⟩
      rw [behind]
      omega

/-- Behind the header of an accepted file, as long as an `int` holds its length, the programmer
finds the sections the parser found. -/
theorem spells_of_parsed (small : file.length < 2 ^ 31)
    (parsed : parseSections file left walk = .ok (entry, after)) :
    ∃ sections, after.sections = walk.sections ++ sections ∧
      Spells file walk.position (blocks file sections) entry := by
  induction left generalizing walk with
  | zero =>
    obtain ⟨room, ⟨zero, rfl, same, -⟩ | ⟨-, -, left, walk', absurd, -⟩⟩ :=
      parseSections_turn parsed
    · exact ⟨[], by rw [same, List.append_nil], .entry (readRecord_entry room zero)⟩
    · cases absurd
  | succ left ih =>
    obtain ⟨room, ⟨zero, rfl, same, -⟩ |
      ⟨some, inside, left', walk', count, rest, place, grown⟩⟩ := parseSections_turn parsed
    · exact ⟨[], by rw [same, List.append_nil], .entry (readRecord_entry room zero)⟩
    · obtain rfl := Nat.succ.inj count
      obtain ⟨sections, found, spells⟩ := ih rest
      rw [place] at spells
      refine ⟨sectionAt file walk.position :: sections, ?_,
        .payload (readRecord_payload some inside small) spells⟩
      rw [found, grown, List.append_assoc, List.singleton_append]

/-- In the front of an accepted file, as long as no length of it is negative, no entry point is
found. -/
theorem front_spells_nothing {m : Nat} (front : m + 12 ≤ file.length)
    (small : file.length < 2 ^ 33) (ends : after.position + 4 = file.length)
    (parsed : parseSections file left walk = .ok (entry, after)) :
    ¬ Spells (file.take m) walk.position transfers start := by
  have length : (file.take m).length = m := List.length_take_of_le (by omega)
  have same {p : Nat} (inside : p + 4 ≤ m) : read32 (file.take m) p = read32 file p := by
    have split := read32_left (show p + 4 ≤ (file.take m).length by omega) (file.drop m)
    rwa [List.take_append_drop, eq_comm] at split
  induction left generalizing walk transfers with
  | zero =>
    obtain ⟨room, ⟨zero, rfl, -, place⟩ | ⟨-, -, left, walk', absurd, -⟩⟩ :=
      parseSections_turn parsed
    · rintro (stops | ⟨found, more⟩)
      · obtain ⟨inside, -⟩ := readRecord_entry_inv stops
        omega
      · obtain ⟨inside, -⟩ := readRecord_payload_inv found
        omega
    · cases absurd
  | succ left ih =>
    obtain ⟨room, ⟨zero, rfl, -, place⟩ |
      ⟨some, inside, left', walk', count, rest, place, -⟩⟩ := parseSections_turn parsed
    · rintro (stops | ⟨found, more⟩)
      · obtain ⟨inside, -⟩ := readRecord_entry_inv stops
        omega
      · obtain ⟨inside, -⟩ := readRecord_payload_inv found
        omega
    · obtain rfl := Nat.succ.inj count
      intro spells
      cases spells with
      | entry stops =>
        obtain ⟨within, zero⟩ := readRecord_entry_inv stops
        rw [same (by omega)] at zero
        exact some zero
      | @payload _ next _ _ _ _ found more =>
        obtain ⟨within, -, length⟩ := readRecord_payload_inv found
        rw [behind] at inside place
        rw [same (by omega), toInt_word (by omega)] at length
        have there : next = walk'.position := by omega
        rw [there] at more
        exact ih rest more

/-- What the parser's verdict is made of. -/
theorem parseBootImage_walk (parsed : parseBootImage file = .ok image) :
    checkHeader file = .ok () ∧ ∃ walk,
      parseSections file kMaximumSections ⟨[], 0, 0, kHeaderBytes⟩ =
        .ok (image.entryAddress, walk) ∧
      walk.sections = image.sections ∧ walk.position + 4 = file.length := by
  rw [parseBootImage] at parsed
  split at parsed
  · cases parsed
  rename_i header
  split at parsed
  · cases parsed
  rename_i entry walk sections
  split_ifs at parsed with trailing damaged nothing
  obtain rfl := Except.ok.inj parsed
  rw [not_not, kChecksumBytes] at trailing
  exact ⟨header, walk, sections, rfl, by omega⟩

end Accepted

/-! ## The file in memory -/

section Loading

variable {readLimit : Nat} {file buf : List Byte}

/-- An `int` holds the length, and one `read` delivers it. -/
def ReadWhole (readLimit : Nat) (file : List Byte) : Prop :=
  file.length < 2 ^ 31 ∧ file.length ≤ readLimit

theorem loadFirmware_whole (whole : ReadWhole readLimit file) :
    loadFirmware readLimit file = some file := by
  obtain ⟨small, delivered⟩ := whole
  have size : (BitVec.ofNat 32 file.length).toInt = file.length := by
    rw [toInt_word, BitVec.toNat_ofNat, Nat.mod_eq_of_lt (by omega)]
    rw [BitVec.toNat_ofNat, Nat.mod_eq_of_lt (by omega)]
    omega
  rw [loadFirmware]
  simp only [size, Int.toNat_natCast, Nat.min_eq_left delivered, List.take_length]
  rw [if_neg (by omega), if_neg (not_not.mpr rfl)]

/-- Otherwise there is less of it in memory, by 4 GiB at least. -/
theorem loadFirmware_some (loaded : loadFirmware readLimit file = some buf) :
    (ReadWhole readLimit file ∧ buf = file) ∨
      ∃ m, buf = file.take m ∧ m + 2 ^ 32 ≤ file.length := by
  rw [loadFirmware] at loaded
  have word : (BitVec.ofNat 32 file.length).toNat = file.length % 2 ^ 32 := BitVec.toNat_ofNat ..
  have signed := BitVec.toInt_eq_toNat_cond (BitVec.ofNat 32 file.length)
  rw [word] at signed
  dsimp only at loaded
  generalize (BitVec.ofNat 32 file.length).toInt = size at loaded signed
  split_ifs at loaded with negative short
  obtain rfl := Option.some.inj loaded
  rw [not_not, List.length_take] at short
  split_ifs at signed with low
  · rcases Nat.lt_or_ge file.length (2 ^ 31) with small | large
    · refine Or.inl ⟨⟨small, by omega⟩, List.take_of_length_le ?_⟩
      omega
    · exact Or.inr ⟨_, rfl, by omega⟩
  · omega

end Loading

/-! ## When they agree -/

/-- What the programmer asks of the first four bytes. -/
def HeaderOk (buf : List Byte) : Prop := 4 ≤ buf.length ∧ Header buf

/-- A step that is undefined promises nothing, and so no failure either. -/
def MayReportSuccess (outcome : Outcome) : Prop := outcome = .returned 0 ∨ outcome = .undefined

/-- Success is reported for accepted files only, and these are sent as the application sends
them: the same transfers, as far as the device takes them, and the same verdict. -/
structure Agrees (readLimit : Nat) (file : List Byte) : Prop where
  accepted : ∀ (device : Device) (fuel : Nat) (outcome : Outcome) (issued : List Transfer),
    fx3DownloadFirmware readLimit device file fuel = some (outcome, issued) →
      MayReportSuccess outcome → ∃ image, parseBootImage file = .ok image
  same : ∀ image, parseBootImage file = .ok image →
    ∀ device : Device, device.isBootloader = true → device.Whole →
      ∃ fuel, fx3DownloadFirmware readLimit device file fuel =
        some (.returned (if (wake device file image).1 then 0 else -1),
          (wake device file image).2)

/-- A file that `int` has no room for, and of which the bytes in memory spell the download all
the same. -/
def SpelledByChance (readLimit : Nat) (file : List Byte) (image : BootImage) : Prop :=
  2 ^ 33 ≤ file.length ∧ ∃ buf, loadFirmware readLimit file = some buf ∧ HeaderOk buf ∧
    Spells buf 4 (blocks file image.sections) image.entryAddress

/-- An accepted file is read whole; of a file that is not accepted the header is refused, or
the chain of its sections does not end. -/
def Agreeable (readLimit : Nat) (file : List Byte) : Prop :=
  match parseBootImage file with
  | .ok image => ReadWhole readLimit file ∨ SpelledByChance readLimit file image
  | .error _ => ∀ buf, loadFirmware readLimit file = some buf → HeaderOk buf → Endless buf 4

section Agreement

variable {readLimit fuel : Nat} {file buf : List Byte} {device : Device} {outcome : Outcome}
  {issued : List Transfer} {image : BootImage}

theorem fx3DownloadFirmware_run (bootloader : device.isBootloader = true)
    (loaded : loadFirmware readLimit file = some buf) (header : HeaderOk buf) :
    fx3DownloadFirmware readLimit device file fuel = run (turn device buf) fuel (.sections 4 []) := by
  obtain ⟨long, ⟨c, y⟩, executable, kind⟩ := header
  have signed : ¬ (buf.length < 4 ∨ buf.getD 0 0 ≠ 0x43 ∨ buf.getD 1 0 ≠ 0x59) := by
    rw [not_or, not_or, not_not, not_not]
    exact ⟨by omega, c, y⟩
  have runs : device.isBootloader ≠ false := by rw [bootloader]; exact Bool.noConfusion
  have runnable : ¬ buf.getD 2 0 &&& 0x01 ≠ 0 := not_not.mpr executable
  have normal : ¬ buf.getD 3 0 ≠ 0xB0 := not_not.mpr kind
  simp only [fx3DownloadFirmware, if_neg runs, loaded, if_neg signed, if_neg runnable,
    if_neg normal]

/-- What comes back other than a failure comes from the walk. -/
theorem fx3DownloadFirmware_some
    (returned : fx3DownloadFirmware readLimit device file fuel = some (outcome, issued))
    (success : outcome ≠ .returned (-1)) :
    ∃ buf, loadFirmware readLimit file = some buf ∧ HeaderOk buf ∧
      run (turn device buf) fuel (.sections 4 []) = some (outcome, issued) := by
  have failed {log : List Transfer} : some (Outcome.returned (-1), log) ≠ some (outcome, issued) :=
    fun same => success (Prod.mk.inj (Option.some.inj same)).left.symm
  rw [fx3DownloadFirmware] at returned
  split at returned
  · exact absurd returned failed
  split at returned
  · exact absurd returned failed
  rename_i buf loaded
  split_ifs at returned with short control kind
  · exact absurd returned failed
  · exact absurd returned failed
  · exact absurd returned failed
  · rw [not_or, not_or, not_not, not_not] at short
    exact ⟨buf, loaded, ⟨by omega, short.right, not_not.mp control, not_not.mp kind⟩, returned⟩

theorem success_ne (success : MayReportSuccess outcome) : outcome ≠ .returned (-1) := by
  rcases success with rfl | rfl
  · simp
  · simp

/-- An accepted file that is read whole spells its own download. -/
theorem spells_of_accepted (small : file.length < 2 ^ 31)
    (parsed : parseBootImage file = .ok image) :
    HeaderOk file ∧ Spells file 4 (blocks file image.sections) image.entryAddress := by
  obtain ⟨header, walk, sections, same, -⟩ := parseBootImage_walk parsed
  obtain ⟨found, grown, spells⟩ := spells_of_parsed small sections
  obtain ⟨long, header⟩ := checkHeader_ok.mp header
  rw [← same, grown, List.nil_append]
  exact ⟨⟨by omega, header⟩, spells⟩

/-- A download that is spelled is issued as the application issues it. -/
theorem same_of_spelled (loaded : loadFirmware readLimit file = some buf) (header : HeaderOk buf)
    (spells : Spells buf 4 (blocks file image.sections) image.entryAddress)
    (bootloader : device.isBootloader = true) (whole : device.Whole) :
    ∃ fuel, fx3DownloadFirmware readLimit device file fuel =
      some (.returned (if (wake device file image).1 then 0 else -1),
        (wake device file image).2) := by
  obtain ⟨fuel, ran⟩ := (spells_returns whole spells).mpr (wake_eq whole)
  exact ⟨fuel, (fx3DownloadFirmware_run bootloader loaded header).trans ran⟩

/-- A chain that ends in another way than with a refused transfer. -/
theorem ends_of_success (returned : Returns (turn device buf) (.sections 4 []) (outcome, issued))
    (success : outcome ≠ .returned (-1)) : ∃ n, follow buf n 4 = none := by
  by_contra endless
  exact success (endless_returns (not_exists.mp endless) returned)

/-- What the programmer issues to a device that takes everything, when it is what the application
issues. -/
theorem spelled_of_same (parsed : parseBootImage file = .ok image)
    (same : fx3DownloadFirmware readLimit accepting file fuel =
      some (.returned (if (wake accepting file image).1 then 0 else -1),
        (wake accepting file image).2)) :
    ReadWhole readLimit file ∨ SpelledByChance readLimit file image := by
  have sent : (Outcome.returned (if (wake accepting file image).1 then 0 else -1),
      (wake accepting file image).2) =
      (.returned 0, blocks file image.sections ++ [dlCmd image.entryAddress []]) := by
    rw [wake_eq accepting_whole, issue_accepting]
    rfl
  rw [sent] at same
  obtain ⟨buf, loaded, header, ran⟩ := fx3DownloadFirmware_some same (by simp)
  have returned : Returns (turn accepting buf) (.sections 4 []) _ := ⟨fuel, ran⟩
  obtain ⟨n, ends⟩ := ends_of_success returned (by simp)
  obtain ⟨outcome, log, returned', verdict⟩ := chain_ends ends []
  obtain ⟨rfl, log'⟩ := Prod.mk.inj (returns_unique returned' returned)
  rw [List.nil_append] at log'
  rcases verdict with undef | ⟨-, ⟨transfers, entry, spells, rfl⟩ | blocks'⟩
  · cases undef
  · obtain ⟨rfl, jump⟩ := List.append_inj' log' rfl
    obtain rfl := dlCmd_injective (List.singleton_inj.mp jump)
    rcases loadFirmware_some loaded with ⟨whole, -⟩ | ⟨m, rfl, front⟩
    · exact Or.inl whole
    rcases Nat.lt_or_ge file.length (2 ^ 33) with small | large
    · obtain ⟨-, walk, sections, -, position⟩ := parseBootImage_walk parsed
      exact absurd spells (front_spells_nothing (by omega) small position sections)
    · exact Or.inr ⟨large, _, loaded, header, spells⟩
  · refine absurd rfl (blocks' (dlCmd image.entryAddress []) ?_)
    rw [log']
    exact List.mem_append_right _ (List.mem_singleton_self _)

end Agreement

/-- The programmer agrees with the application on a file exactly when the file is accepted and
read whole, or is not accepted and its header or its endless chain keeps the programmer from
saying anything of it. -/
theorem agrees_iff (readLimit : Nat) (file : List Byte) :
    Agrees readLimit file ↔ Agreeable readLimit file := by
  rw [Agreeable]
  cases parsed : parseBootImage file with
  | ok image =>
    constructor
    · intro agrees
      obtain ⟨fuel, same⟩ := agrees.same image parsed accepting rfl accepting_whole
      exact spelled_of_same parsed same
    · intro agreeable
      have spelled : ∃ buf, loadFirmware readLimit file = some buf ∧ HeaderOk buf ∧
          Spells buf 4 (blocks file image.sections) image.entryAddress := by
        rcases agreeable with whole | ⟨-, chance⟩
        · exact ⟨file, loadFirmware_whole whole, spells_of_accepted whole.left parsed⟩
        · exact chance
      obtain ⟨buf, loaded, header, spells⟩ := spelled
      refine ⟨fun _ _ _ _ _ _ => ⟨image, parsed⟩, fun image' parsed' device bootloader whole => ?_⟩
      obtain rfl := Except.ok.inj (parsed.symm.trans parsed')
      exact same_of_spelled loaded header spells bootloader whole
  | error problem =>
    constructor
    · rintro agrees buf loaded header n ends
      obtain ⟨outcome, log, ⟨fuel, ran⟩, verdict⟩ := chain_ends ends []
      have success : MayReportSuccess outcome := by
        rcases verdict with undef | ⟨zero, -⟩
        · exact Or.inr undef
        · exact Or.inl zero
      obtain ⟨image, accepted⟩ := agrees.accepted accepting fuel outcome _
        ((fx3DownloadFirmware_run rfl loaded header).trans ran) success
      cases parsed.symm.trans accepted
    · intro agreeable
      refine ⟨fun device fuel outcome issued returned success => ?_, fun image accepted => ?_⟩
      · obtain ⟨buf, loaded, header, ran⟩ := fx3DownloadFirmware_some returned (success_ne success)
        have failure := endless_returns (agreeable buf loaded header) ⟨fuel, ran⟩
        exact absurd failure (success_ne success)
      · cases parsed.symm.trans accepted

/-- An image of one word. -/
def oneWord : List Byte :=
  [0x43, 0x59, 0x1C, 0xB0] ++ [1, 0, 0, 0, 0, 0x10, 0, 0, 1, 2, 3, 4] ++
  [0, 0, 0, 0, 0, 0x10, 0, 0, 1, 2, 3, 4]

/-- Truncated, with a byte too many, and with a wrong checksum: success is reported of each, and in
the last two cases the device is sent to the entry point. -/
theorem damaged_files_succeed :
    (parseBootImage (oneWord.take 20) = .error endsPartWay ∧
      fx3DownloadFirmware 100 accepting (oneWord.take 20) 9 =
        some (.returned 0, [dlCmd 0x1000 [1, 2, 3, 4]])) ∧
    (parseBootImage (oneWord ++ [0]) = .error notLaidOut ∧
      fx3DownloadFirmware 100 accepting (oneWord ++ [0]) 9 =
        some (.returned 0, [dlCmd 0x1000 [1, 2, 3, 4], dlCmd 0x1000 []])) ∧
    ((∀ image, parseBootImage (oneWord.set 12 0) ≠ .ok image) ∧
      fx3DownloadFirmware 100 accepting (oneWord.set 12 0) 9 =
        some (.returned 0, [dlCmd 0x1000 [0, 2, 3, 4], dlCmd 0x1000 []])) := by
  refine ⟨⟨by decide +kernel, by decide +kernel⟩, ⟨by decide +kernel, by decide +kernel⟩, ?_,
    by decide +kernel⟩
  have refused : parseBootImage (oneWord.set 12 0) = .error
      "That firmware image failed its own checksum, so it is damaged. Download it again." := by
    decide +kernel
  intro image accepted
  cases refused.symm.trans accepted

end DownloadAgreement
