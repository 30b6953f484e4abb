import DomesdayDuplicator.Firmware.TransferRun
import DomesdayDuplicator.Firmware.VerifyGuard

/-!
# What the verification has established

One assertion for each place of `updateAgentVerify`, over the shared state the
thread finds there. Calm runs keep them, because nothing the thread relies on is
stored to by a request while it works; a transfer that is COMPLETE has its
digest on the medium, and an application has its boot block as well.
-/

namespace Verification

open Execution UpdateProtocol Medium PagedMemory UpdateAgent UpdateSteps TransferRun VerifyGuard

variable {sha256 : List Byte → Digest} {faults : Faults}

/-- Neither idle nor failed: the fields of the transfer are in use. -/
def Engaged (d : Device) : Prop :=
  d.update.phase ≠ .idle ∧ d.update.phase ≠ .failed

/-- The target and length that an admitted BEGIN stored. -/
def Sized (d : Device) : Prop :=
  (updateTargetIsEpcs d.update.target = true ∧
    d.update.length ≤ updateEpcsTargetCapacity d.update.target) ∨
  (d.update.target = updateTargetEeprom ∧ updateImageMinimumLength ≤ d.update.length ∧
    d.update.length ≤ updateEepromSize)

/-- The region of the EPCS that the transfer is about. -/
def region (d : Device) : List Byte :=
  read d.media.epcs (updateEpcsTargetBase d.update.target) d.update.length

def RegionProved (sha256 : List Byte → Digest) (d : Device) : Prop :=
  updateTargetIsEpcs d.update.target = true ∧ sha256 (region d) = d.update.digest

/-- The boot block of the application in the region. -/
def regionBlock (d : Device) : List Byte :=
  bootBlockBytes updateEpcsApplicationAddress d.update.length
    (updateCrc32Final (updateCrc32Update updateCrc32Initial (region d)))

def onBootSector (a : Nat) : Prop :=
  a / updateEpcsSectorSize = updateEpcsBootBlockAddress / updateEpcsSectorSize

/-- The sector holds the block and is blank after it. -/
def BootSector (m : Memory) (block : List Byte) : Prop :=
  ∀ a, onBootSector a → m a = block.getD (a - updateEpcsBootBlockAddress) 0xFF

/-- Successful reads one after the other, from `start` up to an address. -/
inductive ReadsFrom (start : Nat) : List EepromCommand → Nat → List Byte → Prop
  | nil : ReadsFrom start [] start []
  | read {log address back} (data : List Byte) : ReadsFrom start log address back →
      ReadsFrom start (log ++ [.read address data]) (address + data.length) (back ++ data)
  | failed {log address back} (asked : Nat) : ReadsFrom start log address back →
      ReadsFrom start (log ++ [.readFailed asked]) address back

/-- The bytes from the second page up to `address` have been read back, after
everything that was written. -/
def ReadBack (m : Media) (address : Nat) : Prop :=
  ∃ before reads, m.eepromLog = before ++ reads ∧
    ReadsFrom updateEepromPageSize reads address
      (read m.eeprom updateEepromPageSize (address - updateEepromPageSize))

/-- The digest over the page in RAM and the rest of the medium. -/
def BodyProved (sha256 : List Byte → Digest) (d : Device) : Prop :=
  sha256 (d.firstPage ++ read d.media.eeprom updateEepromPageSize
    (d.update.length - updateEepromPageSize)) = d.update.digest

def Stage (sha256 : List Byte → Digest) (d : Device) : Prop :=
  match d.thread with
  | .epcsReading offset hashed imageCrc =>
    updateTargetIsEpcs d.update.target = true ∧ offset ≤ d.update.length ∧
      hashed = read d.media.epcs (updateEpcsTargetBase d.update.target) offset ∧
      imageCrc = updateCrc32Update updateCrc32Initial hashed
  | .epcsProved imageCrc =>
    RegionProved sha256 d ∧ d.update.target = updateTargetEpcs ∧
      imageCrc = updateCrc32Update updateCrc32Initial (region d)
  | .epcsErasing block =>
    RegionProved sha256 d ∧ d.update.target = updateTargetEpcs ∧ block = regionBlock d
  | .epcsProgramming block =>
    RegionProved sha256 d ∧ d.update.target = updateTargetEpcs ∧ block = regionBlock d ∧
      ∀ a, onBootSector a → d.media.epcs a = 0xFF
  | .epcsWritten block | .epcsRereading block | .epcsComparing block _ =>
    RegionProved sha256 d ∧ d.update.target = updateTargetEpcs ∧ block = regionBlock d ∧
      BootSector d.media.epcs block
  | .eepromReading address hashed =>
    d.update.target = updateTargetEeprom ∧ updateEepromPageSize ≤ address ∧
      address ≤ d.update.length ∧ ReadBack d.media address ∧
      hashed = d.firstPage ++
        read d.media.eeprom updateEepromPageSize (address - updateEepromPageSize)
  | .eepromCommitting =>
    d.update.target = updateTargetEeprom ∧ ReadBack d.media d.update.length ∧
      BodyProved sha256 d
  | .eepromWritten | .eepromRereading =>
    d.update.target = updateTargetEeprom ∧ BodyProved sha256 d
  | .eepromComparing readback =>
    d.update.target = updateTargetEeprom ∧ BodyProved sha256 d ∧
      readback = read d.media.eeprom 0 updateEepromPageSize
  | _ => True

/-- What COMPLETE promises about the medium. -/
structure Finished (sha256 : List Byte → Digest) (d : Device) : Prop where
  eeprom : d.update.target = updateTargetEeprom →
    sha256 (read d.media.eeprom 0 d.update.length) = d.update.digest
  epcs : updateTargetIsEpcs d.update.target = true → sha256 (region d) = d.update.digest
  boot : d.update.target = updateTargetEpcs → BootSector d.media.epcs (regionBlock d)

structure Verified (sha256 : List Byte → Digest) (d : Device) : Prop where
  sized : Engaged d → Sized d
  stage : Stage sha256 d
  finished : d.update.phase = .complete → Finished sha256 d

theorem ReadsFrom.retried {start address : Nat} {log : List EepromCommand} {back : List Byte}
    (h : ReadsFrom start log address back) (asked n : Nat) :
    ReadsFrom start (log ++ List.replicate n (.readFailed asked)) address back := by
  induction n with
  | zero => simpa using h
  | succ n ih =>
    rw [List.replicate_succ', ← List.append_assoc]
    exact .failed asked ih

theorem verified_powerOn (i2cComesUp : Bool) (media : Media) :
    Verified sha256 (powerOn i2cComesUp media) :=
  ⟨fun engaged => absurd rfl engaged.1, trivial, fun complete => by cases complete⟩

namespace Verified

/-- A request served while the thread is not at work. -/
theorem store {d d' : Device} (h : Verified sha256 d) (idle : d'.thread = .idle ∨ Ending d')
    (update : d'.update.phase = .failed ∨ d'.update.phase = .idle ∨
      d'.update = d.update ∧ d'.media = d.media ∧ d'.firstPage = d.firstPage) :
    Verified sha256 d' := by
  have nowhere : Stage sha256 d' := by
    rcases idle with t | t | ⟨e, t⟩ <;> simp only [Stage, t]
  rcases update with failed | idle | ⟨update, media, page⟩
  · exact ⟨fun engaged => absurd failed engaged.2, nowhere, fun complete => by
      rw [failed] at complete; cases complete⟩
  · exact ⟨fun engaged => absurd idle engaged.1, nowhere, fun complete => by
      rw [idle] at complete; cases complete⟩
  · refine ⟨fun engaged => ?_, nowhere, fun complete => ?_⟩
    · rw [Engaged, update] at engaged
      rw [Sized, update]
      exact h.sized engaged
    · rw [update] at complete
      obtain ⟨eeprom, epcs, boot⟩ := h.finished complete
      refine ⟨?_, ?_, ?_⟩
      · rw [update, media]; exact eeprom
      · rw [update, region, update, media]; exact epcs
      · rw [update, media, regionBlock, region, update, media]; exact boot

/-- Fields the assertions do not mention. -/
theorem other {d d' : Device} (h : Verified sha256 d) (thread : d'.thread = d.thread)
    (update : d'.update = d.update) (media : d'.media = d.media)
    (page : d'.firstPage = d.firstPage) : Verified sha256 d' := by
  obtain ⟨i2c, u, pending, fp, hash, collection, active, t, m⟩ := d
  obtain ⟨i2c', u', pending', fp', hash', collection', active', t', m'⟩ := d'
  obtain ⟨rfl, rfl, rfl, rfl⟩ : t' = t ∧ u' = u ∧ m' = m ∧ fp' = fp :=
    ⟨thread, update, media, page⟩
  exact ⟨h.sized, h.stage, fun complete =>
    ⟨(h.finished complete).eeprom, (h.finished complete).epcs, (h.finished complete).boot⟩⟩

theorem serve {d d' : Device} {r : Request} {e : Event} (h : Verified sha256 d)
    (settled : Settled d) (calm : Calm d (.request r)) (served : Served sha256 faults d r d' e) :
    Verified sha256 d' := by
  obtain ⟨away, closed⟩ := calm
  cases served with
  | unchanged => exact h
  | beginRefused r error _ free =>
    exact h.store (settled.rest (not_inProgress free)).2
      (Or.inl (updateStateFail_phase _ _))
  | beginAdmitted r target begin probe carried admitted =>
    have lets : Admits d r := Or.inl ⟨target, begin, probe, carried, admitted⟩
    obtain ⟨_, idle⟩ := settled.idle lets.not_under fun ending => closed ending lets
    refine ⟨fun _ => ?_, by simp [Stage, Device.open, idle], fun complete => by cases complete⟩
    rcases (updateBeginIsAllowed_none (updateAgentBeginRefusal_none admitted).1).2.2 with
      ⟨epcs, _, fits⟩ | ⟨eeprom, minimum, fits⟩
    · exact Or.inl ⟨epcs, fits⟩
    · exact Or.inr ⟨eeprom, minimum, fits⟩
  | failed r error e probes _ _ =>
    exact h.store (settled.rest (away probes)).2 (Or.inl (updateStateFail_phase _ _))
  | chunk r target index data e probes short allowed image =>
    have receiving := (updateChunkIsAllowed_none allowed).2.1
    have taken := updateAgentData_taken faults allowed image
    have idle : d.thread = .idle :=
      (settled.rest (away probes)).2.resolve_right fun ending => by
        have := settled.ending ending
        rw [receiving] at this
        simp at this
    have sized := h.sized ⟨by simp [receiving], by simp [receiving]⟩
    refine ⟨fun engaged => ?_, by simp [Stage, taken.thread, idle], fun complete => ?_⟩
    · cases accepted : (updateAgentData faults d target index data).2 with
      | true =>
        obtain ⟨w, update⟩ := taken.counted accepted
        rw [Sized, update]
        exact sized
      | false =>
        obtain ⟨w, update⟩ := taken.failed accepted
        exact absurd (by rw [update]; exact updateStateFail_phase _ _) engaged.2
    · cases accepted : (updateAgentData faults d target index data).2 with
      | true =>
        obtain ⟨w, update⟩ := taken.counted accepted
        rw [update] at complete
        simp [receiving] at complete
      | false =>
        obtain ⟨w, update⟩ := taken.failed accepted
        rw [update, updateStateFail_phase] at complete
        cases complete
  | finishAccepted r target probes allowed digest =>
    have receiving := (updateFinishIsAllowed_none allowed).2.1
    have idle : d.thread = .idle :=
      (settled.rest (away probes)).2.resolve_right fun ending => by
        have := settled.ending ending
        rw [receiving] at this
        simp at this
    have sized := h.sized ⟨by simp [receiving], by simp [receiving]⟩
    exact ⟨fun _ => sized, by simp [Stage, Device.handOver, idle],
      fun complete => by cases complete⟩
  | reset r up => exact verified_powerOn up d.media
  | captureStarted => exact h.other rfl rfl rfl rfl
  | captureStopped => exact h.other rfl rfl rfl rfl

/-! ### One step of the thread -/

/-- What a step has to re-establish. -/
def Next (sha256 : List Byte → Digest) (d : Device) : Prop :=
  Stage sha256 d ∧ (d.update.phase = .complete → Finished sha256 d)

theorem next_epcsReading {d : Device} {offset : Nat} {hashed : List Byte}
    {imageCrc : BitVec 32} (h : Verified sha256 d)
    (place : d.thread = .epcsReading offset hashed imageCrc)
    (under : UnderVerification d) : Next sha256 (threadStep sha256 faults d).1 := by
  have stage := h.stage
  rw [Stage, place] at stage
  obtain ⟨epcs, below, bytes, crc⟩ := stage
  have notComplete : d.update.phase ≠ .complete := by
    rcases under with w | v
    · simp [w]
    · simp [v]
  unfold threadStep
  rw [place]
  dsimp only
  by_cases more : offset < d.update.length
  · rw [if_pos more]
    obtain ⟨n, media⟩ := epcsFlashRead_media faults
      (updateEpcsTargetBase d.update.target + offset)
      (min (d.update.length - offset) updateReadbackSize) d.media
    cases got : (epcsFlashRead faults (updateEpcsTargetBase d.update.target + offset)
        (min (d.update.length - offset) updateReadbackSize) d.media).2 with
    | none => exact ⟨trivial, fun complete => absurd complete notComplete⟩
    | some data =>
      have span := epcsFlashRead_data faults got
      refine ⟨⟨epcs, ?_, ?_, ?_⟩, fun complete => absurd complete notComplete⟩
      · show offset + min (d.update.length - offset) updateReadbackSize ≤ d.update.length
        omega
      · show hashed ++ data = read (epcsFlashRead faults _ _ d.media).1.epcs
          (updateEpcsTargetBase d.update.target)
          (offset + min (d.update.length - offset) updateReadbackSize)
        rw [media, read_add, ← bytes, span]
      · rw [crc, updateCrc32Update, updateCrc32Update, updateCrc32Update, List.foldl_append]
  · rw [if_neg more]
    have whole : offset = d.update.length := by omega
    subst whole
    by_cases digest : sha256 hashed = d.update.digest
    · rw [if_neg (not_not.mpr digest)]
      have proved : sha256 (region d) = d.update.digest := by
        rw [region, ← bytes]
        exact digest
      by_cases factory : d.update.target = updateTargetEpcsFactory
      · rw [if_pos factory]
        refine ⟨trivial, fun _ => ⟨?_, fun _ => proved, ?_⟩⟩
        · intro eeprom
          rw [show d.update.target = updateTargetEeprom from eeprom] at epcs
          cases epcs
        · intro application
          rw [show d.update.target = updateTargetEpcs from application] at factory
          cases factory
      · rw [if_neg factory]
        have application : d.update.target = updateTargetEpcs :=
          (updateEpcsTarget_eq epcs).resolve_right factory
        refine ⟨⟨⟨epcs, proved⟩, application, ?_⟩, fun complete => by cases complete⟩
        rw [crc, bytes]
        rfl
    · rw [if_pos digest]
      exact ⟨trivial, fun complete => absurd complete notComplete⟩

/-- Writes to the boot sector leave the application region alone. -/
theorem region_frame {d : Device} (d' : Device) (application : d.update.target = updateTargetEpcs)
    (target : d'.update.target = d.update.target) (length : d'.update.length = d.update.length)
    (cells : ∀ a, ¬ onBootSector a → d'.media.epcs a = d.media.epcs a) :
    region d' = region d ∧ regionBlock d' = regionBlock d := by
  have same : region d' = region d := by
    rw [region, region, target, length, application]
    apply read_congr
    intro i _
    apply cells
    unfold onBootSector
    rw [show updateEpcsTargetBase updateTargetEpcs = updateEpcsApplicationAddress from rfl]
    simp only [updateEpcsApplicationAddress, updateEpcsBootBlockAddress, updateEpcsSectorSize]
    omega
  exact ⟨same, by rw [regionBlock, regionBlock, same, length]⟩

/-- One page programmed into a blank boot sector. -/
theorem bootSector_program {m : Memory} {block : List Byte}
    (blank : ∀ a, onBootSector a → m a = 0xFF) (short : block.length ≤ updateEpcsPageSize) :
    BootSector (program updateEpcsPageSize m updateEpcsBootBlockAddress block) block := by
  intro a on
  have fits : updateEpcsBootBlockAddress % updateEpcsPageSize + block.length ≤
      updateEpcsPageSize := by
    rw [show updateEpcsBootBlockAddress % updateEpcsPageSize = 0 from rfl]
    omega
  have above : updateEpcsBootBlockAddress ≤ a := by
    unfold onBootSector at on
    simp only [updateEpcsSectorSize, updateEpcsBootBlockAddress] at *
    omega
  obtain ⟨k, rfl⟩ : ∃ k, a = updateEpcsBootBlockAddress + k :=
    ⟨a - updateEpcsBootBlockAddress, by omega⟩
  rw [Nat.add_sub_cancel_left]
  by_cases inside : k < block.length
  · rw [program_written fits inside, blank _ on, List.getD_eq_getElem _ _ inside]
    exact BitVec.allOnes_and
  · rw [program_unwritten fits (Or.inr (by omega)), blank _ on,
      List.getD_eq_default _ _ (by omega)]

/-- The steps of the boot-block commit. -/
theorem next_commit {d : Device} (h : Verified sha256 d) (under : UnderVerification d)
    (place : (∃ crc, d.thread = .epcsProved crc) ∨ ∃ block, d.thread = .epcsErasing block ∨
      d.thread = .epcsProgramming block ∨ d.thread = .epcsWritten block ∨
      d.thread = .epcsRereading block ∨ ∃ readback, d.thread = .epcsComparing block readback) :
    Next sha256 (threadStep sha256 faults d).1 := by
  have stage := h.stage
  have notComplete : d.update.phase ≠ .complete := by
    rcases under with w | v
    · simp [w]
    · simp [v]
  rcases place with ⟨crc, place⟩ | ⟨block, place | place | place | place | ⟨readback, place⟩⟩
  · rw [Stage, place] at stage
    obtain ⟨proved, application, crc⟩ := stage
    simp only [threadStep, place]
    refine ⟨⟨proved, application, ?_⟩, fun complete => absurd complete notComplete⟩
    rw [regionBlock, crc]
    rfl
  · rw [Stage, place] at stage
    obtain ⟨proved, application, block⟩ := stage
    obtain ⟨leaves, cells, _⟩ :=
      epcsFlashEraseSector_spec faults updateEpcsBootBlockAddress d.media
    simp only [threadStep, place]
    generalize epcsFlashEraseSector faults updateEpcsBootBlockAddress d.media = erased at *
    cases done : erased.2 with
    | false => exact ⟨trivial, fun complete => absurd complete notComplete⟩
    | true =>
      rw [done, if_pos rfl] at cells
      have frame := region_frame { d with media := erased.1 } application rfl rfl
        (fun a away => by
          show erased.1.epcs a = d.media.epcs a
          rw [cells]
          exact erase_outside away)
      refine ⟨⟨⟨proved.1, ?_⟩, application, ?_, ?_⟩, fun complete => absurd complete notComplete⟩
      · show sha256 (region { d with media := erased.1 }) = d.update.digest
        rw [frame.1]
        exact proved.2
      · show _ = regionBlock { d with media := erased.1 }
        rw [frame.2]
        exact block
      · intro a on
        show erased.1.epcs a = 0xFF
        rw [cells]
        exact erase_inside on
  · rw [Stage, place] at stage
    obtain ⟨proved, application, rfl, blank⟩ := stage
    have sized : 0 < (regionBlock d).length ∧ (regionBlock d).length ≤ updateEpcsPageSize := by
      rw [regionBlock, length_bootBlockBytes]
      decide
    obtain ⟨leaves, cells, _⟩ := epcsFlashProgramPage_spec faults
      updateEpcsBootBlockAddress sized.1 sized.2 d.media
    simp only [threadStep, place]
    generalize epcsFlashProgramPage faults updateEpcsBootBlockAddress (regionBlock d) d.media =
      wrote at *
    cases done : wrote.2 with
    | false => exact ⟨trivial, fun complete => absurd complete notComplete⟩
    | true =>
      rw [done, if_pos rfl] at cells
      have frame := region_frame { d with media := wrote.1 } application rfl rfl
        (fun a away => by
          show wrote.1.epcs a = d.media.epcs a
          rw [cells]
          apply program_outside
          unfold onBootSector at away
          simp only [updateEpcsSectorSize, updateEpcsPageSize, updateEpcsBootBlockAddress] at *
          omega)
      refine ⟨⟨⟨proved.1, ?_⟩, application, ?_, ?_⟩, fun complete => absurd complete notComplete⟩
      · show sha256 (region { d with media := wrote.1 }) = d.update.digest
        rw [frame.1]
        exact proved.2
      · show _ = regionBlock { d with media := wrote.1 }
        rw [frame.2]
      · show BootSector wrote.1.epcs (regionBlock d)
        rw [cells]
        exact bootSector_program blank sized.2
  · rw [Stage, place] at stage
    simp only [threadStep, place]
    exact ⟨stage, fun complete => by cases complete⟩
  · rw [Stage, place] at stage
    obtain ⟨n, media⟩ := epcsFlashRead_media faults updateEpcsBootBlockAddress
      updateBootBlockLength d.media
    simp only [threadStep, place]
    cases got : (epcsFlashRead faults updateEpcsBootBlockAddress updateBootBlockLength
        d.media).2 with
    | none => exact ⟨trivial, fun complete => absurd complete notComplete⟩
    | some readback =>
      rw [media]
      exact ⟨stage, fun complete => absurd complete notComplete⟩
  · rw [Stage, place] at stage
    obtain ⟨proved, application, same, stored⟩ := stage
    simp only [threadStep, place]
    by_cases agree : readback = block
    · rw [if_neg (not_not.mpr agree)]
      refine ⟨trivial, fun _ => ⟨?_, fun _ => proved.2, fun _ => ?_⟩⟩
      · intro eeprom
        rw [show d.update.target = updateTargetEeprom from eeprom] at application
        cases application
      · rw [same] at stored
        exact stored
    · rw [if_pos agree]
      exact ⟨trivial, fun complete => absurd complete notComplete⟩

theorem next_eepromReading {d : Device} {address : Nat} {hashed : List Byte}
    (h : Verified sha256 d) (place : d.thread = .eepromReading address hashed)
    (under : UnderVerification d) : Next sha256 (threadStep sha256 faults d).1 := by
  have stage := h.stage
  rw [Stage, place] at stage
  obtain ⟨eeprom, above, below, ⟨before, reads, log, steps⟩, bytes⟩ := stage
  have notComplete : d.update.phase ≠ .complete := by
    rcases under with w | v
    · simp [w]
    · simp [v]
  have sized : d.update.length ≤ updateEepromSize := by
    rcases h.sized ⟨by rcases under with w | v <;> simp [*], by
      rcases under with w | v <;> simp [*]⟩ with ⟨epcs, _⟩ | ⟨_, _, fits⟩
    · rw [eeprom] at epcs
      cases epcs
    · exact fits
  unfold threadStep
  rw [place]
  dsimp only
  by_cases more : address < d.update.length
  · rw [if_pos more]
    generalize hspan : updateEepromReadSpan address (d.update.length - address)
      updateReadbackSize = span
    have room : span ≤ d.update.length - address := by
      rw [← hspan]
      unfold updateEepromReadSpan
      split <;> omega
    by_cases none : span = 0
    · rw [if_pos none]
      exact ⟨trivial, fun complete => absurd complete notComplete⟩
    rw [if_neg none]
    obtain ⟨cells, data, n, attempts⟩ := readAttempts_spec faults
      (show address < updateEepromSize by omega) span updateI2cAttempts d.media
    rw [← updateEepromRead] at cells data attempts
    cases got : (updateEepromRead faults address span d.media).2 with
    | none => exact ⟨trivial, fun complete => absurd complete notComplete⟩
    | some back =>
      have same := data back got
      rw [got] at attempts
      have rest : address + span - updateEepromPageSize =
          address - updateEepromPageSize + span := by omega
      have onwards : updateEepromPageSize + (address - updateEepromPageSize) = address := by
        omega
      refine ⟨⟨eeprom, ?_, ?_, ⟨before, reads ++ List.replicate n (.readFailed address) ++
        [.read address back], ?_, ?_⟩, ?_⟩, fun complete => absurd complete notComplete⟩
      · show updateEepromPageSize ≤ address + span
        omega
      · show address + span ≤ d.update.length
        omega
      · show (updateEepromRead faults address span d.media).1.eepromLog = _
        rw [attempts, log]
        simp
      · show ReadsFrom updateEepromPageSize _ (address + span) (read
          (updateEepromRead faults address span d.media).1.eeprom updateEepromPageSize
          (address + span - updateEepromPageSize))
        rw [cells, rest, read_add, onwards, ← same]
        have length : back.length = span := by rw [same, length_read]
        rw [← length]
        exact .read back (steps.retried address n)
      · show hashed ++ back = d.firstPage ++ read
          (updateEepromRead faults address span d.media).1.eeprom updateEepromPageSize
          (address + span - updateEepromPageSize)
        rw [cells, rest, read_add, onwards, ← same, bytes, List.append_assoc]
  · rw [if_neg more]
    have whole : address = d.update.length := by omega
    subst whole
    by_cases digest : sha256 hashed = d.update.digest
    · rw [if_neg (not_not.mpr digest)]
      refine ⟨⟨eeprom, ⟨before, reads, log, steps⟩, ?_⟩, fun complete => by cases complete⟩
      rw [bytes] at digest
      exact digest
    · rw [if_pos digest]
      exact ⟨trivial, fun complete => absurd complete notComplete⟩

/-- The steps of the first-page commit. -/
theorem next_firstPage {d : Device} (h : Verified sha256 d) (under : UnderVerification d)
    (place : d.thread = .eepromCommitting ∨ d.thread = .eepromWritten ∨
      d.thread = .eepromRereading ∨ ∃ readback, d.thread = .eepromComparing readback) :
    Next sha256 (threadStep sha256 faults d).1 := by
  have stage := h.stage
  have notComplete : d.update.phase ≠ .complete := by
    rcases under with w | v
    · simp [w]
    · simp [v]
  rcases place with place | place | place | ⟨readback, place⟩
  · rw [Stage, place] at stage
    obtain ⟨eeprom, _, proved⟩ := stage
    obtain ⟨tries, _, _, _, away, _⟩ := updateEepromWritePage_spec faults
      (show 0 < updateEepromSize by decide) d.firstPage d.media
    simp only [threadStep, place]
    generalize updateEepromWritePage faults 0 d.firstPage d.media = wrote at *
    cases done : wrote.2 with
    | false => exact ⟨trivial, fun complete => absurd complete notComplete⟩
    | true =>
      refine ⟨⟨eeprom, ?_⟩, fun complete => absurd complete notComplete⟩
      have body : read wrote.1.eeprom updateEepromPageSize
          (d.update.length - updateEepromPageSize) = read d.media.eeprom updateEepromPageSize
          (d.update.length - updateEepromPageSize) := by
        apply read_congr
        intro i _
        apply away
        simp only [updateEepromPageSize]
        omega
      show sha256 (d.firstPage ++ read wrote.1.eeprom updateEepromPageSize
        (d.update.length - updateEepromPageSize)) = d.update.digest
      rw [body]
      exact proved
  · rw [Stage, place] at stage
    simp only [threadStep, place]
    exact ⟨stage, fun complete => by cases complete⟩
  · rw [Stage, place] at stage
    obtain ⟨cells, data, _⟩ := readAttempts_spec faults
      (show 0 < updateEepromSize by decide) updateEepromPageSize updateI2cAttempts d.media
    rw [← updateEepromRead] at cells data
    simp only [threadStep, place]
    cases got : (updateEepromRead faults 0 updateEepromPageSize d.media).2 with
    | none => exact ⟨trivial, fun complete => absurd complete notComplete⟩
    | some readback =>
      refine ⟨⟨stage.1, ?_, ?_⟩, fun complete => absurd complete notComplete⟩
      · show sha256 (d.firstPage ++ read (updateEepromRead faults 0 updateEepromPageSize
          d.media).1.eeprom updateEepromPageSize _) = d.update.digest
        rw [cells]
        exact stage.2
      · show readback = read (updateEepromRead faults 0 updateEepromPageSize
          d.media).1.eeprom 0 updateEepromPageSize
        rw [cells]
        exact data readback got
  · rw [Stage, place] at stage
    obtain ⟨eeprom, proved, bytes⟩ := stage
    simp only [threadStep, place]
    by_cases agree : readback = d.firstPage
    · rw [if_neg (not_not.mpr agree)]
      have minimum : updateEepromPageSize ≤ d.update.length := by
        rcases h.sized ⟨by rcases under with w | v <;> simp [*], by
          rcases under with w | v <;> simp [*]⟩ with ⟨epcs, _⟩ | ⟨_, low, _⟩
        · rw [eeprom] at epcs
          cases epcs
        · simp only [updateImageMinimumLength, updateEepromPageSize] at *
          omega
      refine ⟨trivial, fun _ => ⟨fun _ => ?_, ?_, ?_⟩⟩
      · show sha256 (read d.media.eeprom 0 d.update.length) = d.update.digest
        obtain ⟨rest, hrest⟩ := Nat.exists_eq_add_of_le minimum
        rw [BodyProved, hrest, Nat.add_sub_cancel_left, ← agree, bytes] at proved
        rw [hrest, read_add, Nat.zero_add]
        exact proved
      · intro epcs
        replace epcs : updateTargetIsEpcs d.update.target = true := epcs
        rw [eeprom] at epcs
        cases epcs
      · intro application
        rw [show d.update.target = updateTargetEpcs from application] at eeprom
        cases eeprom
    · rw [if_pos agree]
      exact ⟨trivial, fun complete => absurd complete notComplete⟩

/-- A thread at rest, or on its way out, moves nothing the assertions mention. -/
theorem next_rest {d : Device} (h : Verified sha256 d) (settled : Settled d)
    (free : ¬ UnderVerification d) : Next sha256 (threadStep sha256 faults d).1 := by
  obtain ⟨quiet, place⟩ := settled.rest free
  rcases place with idle | returning | ⟨error, failed⟩
  · simpa [threadStep, idle, quiet] using ⟨h.stage, h.finished⟩
  · simp only [threadStep, returning]
    exact ⟨trivial, fun complete =>
      ⟨(h.finished complete).eeprom, (h.finished complete).epcs, (h.finished complete).boot⟩⟩
  · simp only [threadStep, failed]
    refine ⟨trivial, fun complete => ?_⟩
    replace complete : d.update.phase = .complete := complete
    rw [settled.stored error failed] at complete
    cases complete

variable (faults) in
theorem next {d : Device} (h : Verified sha256 d) (settled : Settled d) :
    Next sha256 (threadStep sha256 faults d).1 := by
  by_cases under : UnderVerification d
  · have notComplete : d.update.phase ≠ .complete := by
      rcases under with w | v
      · simp [w]
      · simp [v]
    cases place : d.thread with
    | epcsReading => exact h.next_epcsReading place under
    | epcsProved crc => exact h.next_commit under (Or.inl ⟨crc, place⟩)
    | epcsErasing block => exact h.next_commit under (Or.inr ⟨block, Or.inl place⟩)
    | epcsProgramming block =>
      exact h.next_commit under (Or.inr ⟨block, Or.inr (Or.inl place)⟩)
    | epcsWritten block =>
      exact h.next_commit under (Or.inr ⟨block, Or.inr (Or.inr (Or.inl place))⟩)
    | epcsRereading block =>
      exact h.next_commit under (Or.inr ⟨block, Or.inr (Or.inr (Or.inr (Or.inl place)))⟩)
    | epcsComparing block readback =>
      exact h.next_commit under
        (Or.inr ⟨block, Or.inr (Or.inr (Or.inr (Or.inr ⟨readback, place⟩)))⟩)
    | eepromReading => exact h.next_eepromReading place under
    | eepromCommitting => exact h.next_firstPage under (Or.inl place)
    | eepromWritten => exact h.next_firstPage under (Or.inr (Or.inl place))
    | eepromRereading => exact h.next_firstPage under (Or.inr (Or.inr (Or.inl place)))
    | eepromComparing readback =>
      exact h.next_firstPage under (Or.inr (Or.inr (Or.inr ⟨readback, place⟩)))
    | cleared =>
      have verifying := settled.early (Or.inr (Or.inr place))
      simp only [threadStep, place, verifying, ne_eq, not_true, if_false]
      by_cases epcs : updateTargetIsEpcs d.update.target = true
      · rw [if_pos epcs]
        exact ⟨⟨epcs, Nat.zero_le _, rfl, rfl⟩, fun complete => absurd complete notComplete⟩
      · rw [if_neg epcs]
        obtain ⟨eeprom, low, _⟩ := (h.sized ⟨by simp [verifying], by simp [verifying]⟩).resolve_left
          fun sized => epcs sized.1
        refine ⟨⟨eeprom, Nat.le_refl _, ?_, ⟨d.media.eepromLog, [], by simp, ?_⟩, ?_⟩,
          fun complete => by cases complete⟩
        · show updateEepromPageSize ≤ d.update.length
          simp only [updateImageMinimumLength, updateEepromPageSize] at *
          omega
        · simpa using ReadsFrom.nil
        · simp
    | idle =>
      simp only [threadStep, place]
      split <;> exact ⟨by simp [Stage, Device.goto, place],
        fun complete => absurd complete notComplete⟩
    | called =>
      simp only [threadStep, place]
      exact ⟨trivial, fun complete => absurd complete notComplete⟩
    | failing error =>
      simp only [threadStep, place]
      split
      · exact ⟨trivial, fun complete => absurd complete notComplete⟩
      · exact ⟨trivial, fun complete => by cases complete⟩
    | failed error =>
      simp only [threadStep, place]
      exact ⟨trivial, fun complete => absurd complete notComplete⟩
    | returning =>
      simp only [threadStep, place]
      exact ⟨trivial, fun complete => absurd complete notComplete⟩
  · exact h.next_rest settled under

theorem rest_phase {d : Device} (settled : Settled d) (free : ¬ UnderVerification d) :
    (threadStep sha256 faults d).1.update.phase = d.update.phase := by
  obtain ⟨quiet, place⟩ := settled.rest free
  rcases place with idle | returning | ⟨error, failed⟩
  · simp [threadStep, idle, quiet]
  · simp [threadStep, returning, Device.goto]
  · simp [threadStep, failed]

theorem engaged_before {d : Device} (settled : Settled d)
    (engaged : Engaged (threadStep sha256 faults d).1) : Engaged d := by
  by_cases under : UnderVerification d
  · rcases under with w | v
    · exact ⟨by simp [w], by simp [w]⟩
    · exact ⟨by simp [v], by simp [v]⟩
  · rwa [Engaged, rest_phase settled under] at engaged

theorem step {d : Device} {a : Action} (h : Verified sha256 d) (settled : Settled d)
    (calm : Calm d a) : Verified sha256 (UpdateAgent.step sha256 faults d a).1 := by
  cases a with
  | request r => exact h.serve settled calm (served d r)
  | thread =>
    obtain ⟨stage, finished⟩ := h.next faults settled
    refine ⟨fun engaged => ?_, stage, finished⟩
    have frame := threadStep_frame sha256 faults d
    rw [Sized, UpdateAgent.step, frame.target, frame.length]
    exact h.sized (engaged_before settled engaged)
  | startApplication | stopApplication => exact h.other rfl rfl rfl rfl

end Verified

/-- The assertions hold of every calm run. -/
theorem verified {i2cComesUp : Bool} {media : Media} {es : List Event} {d : Device}
    (run : Trace sha256 faults Calm (powerOn i2cComesUp media) es d) : Verified sha256 d :=
  calm_invariant run (settled_powerOn i2cComesUp media) (verified_powerOn i2cComesUp media)
    fun _ _ settled verified calm _ => verified.step settled calm

/-! ## A transfer along a calm run -/

section Transfer

variable {target : Byte} {begin : UpdateBegin} {Kept : Media → List Byte → Prop}
  {Live : Media → List Byte → List Byte → Prop} {payload : List Byte} {d : Device}

/-- A transfer keeps its fields until it fails, and is whole once FINISH is accepted. -/
def Whole (target : Byte) (begin : UpdateBegin)
    (Live : Media → List Byte → List Byte → Prop) (payload : List Byte) (d : Device) : Prop :=
  Engaged d → Receiving target begin payload d ∧ Live d.media d.firstPage payload ∧
    (d.update.phase ≠ .receiving → payload.length = begin.length)

theorem Whole.step {a : Action} (h : Whole target begin Live payload d)
    (transfer : Transfer target begin Kept Live payload d)
    (discipline : Discipline sha256 faults Calm target begin Kept Live)
    (fits : begin.length < 2 ^ 32) (settled : Settled d) (calm : Calm d a)
    (notBegun : (UpdateAgent.step sha256 faults d a).2 ≠ .beginAdmitted) :
    Whole target begin Live (payload ++ (UpdateAgent.step sha256 faults d a).2.payload)
      (UpdateAgent.step sha256 faults d a).1 := by
  have next := transfer.step discipline fits calm notBegun
  cases a with
  | request r =>
    have answer : Served sha256 faults d r (serve sha256 faults d r).1
      (serve sha256 faults d r).2 := served d r
    simp only [UpdateAgent.step] at next notBegun ⊢
    generalize serve sha256 faults d r = pair at *
    obtain ⟨d', e⟩ := pair
    cases answer with
    | unchanged _ _ inert => simpa [inert.1] using h
    | beginRefused => exact fun engaged => absurd (updateStateFail_phase _ _) engaged.2
    | beginAdmitted => exact absurd rfl notBegun
    | failed => exact fun engaged => absurd (updateStateFail_phase _ _) engaged.2
    | chunk _ asked index data _ _ _ allowed image =>
      intro engaged
      have taken := updateAgentData_taken faults allowed image
      have receiving : (updateAgentData faults d asked index data).1.update.phase =
          .receiving := by
        cases accepted : (updateAgentData faults d asked index data).2 with
        | true =>
          obtain ⟨w, update⟩ := taken.counted accepted
          rw [update]
          exact (updateChunkIsAllowed_none allowed).2.1
        | false =>
          obtain ⟨w, update⟩ := taken.failed accepted
          exact absurd (by rw [update]; exact updateStateFail_phase _ _) engaged.2
      obtain ⟨facts, live⟩ := next.live receiving
      exact ⟨facts, live, fun other => absurd receiving other⟩
    | finishAccepted _ asked _ allowed =>
      intro _
      obtain ⟨_, receiving, whole⟩ := updateFinishIsAllowed_none allowed
      obtain ⟨facts, live⟩ := transfer.live receiving
      simp only [Event.payload, List.append_nil]
      refine ⟨⟨facts.page, facts.target, facts.length, facts.digest, facts.received⟩, live,
        fun _ => ?_⟩
      rw [← facts.received, ← facts.length]
      exact whole
    | reset => exact fun engaged => absurd rfl engaged.1
    | captureStarted | captureStopped =>
      intro engaged
      obtain ⟨facts, live, whole⟩ := h engaged
      simp only [Event.payload, List.append_nil]
      exact ⟨⟨facts.page, facts.target, facts.length, facts.digest, facts.received⟩, live, whole⟩
  | thread =>
    intro engaged
    have frame := threadStep_frame sha256 faults d
    have silent : (UpdateAgent.step sha256 faults d .thread).2.payload = [] := by
      simp only [UpdateAgent.step, threadStep_event]
      split <;> rfl
    rw [silent, List.append_nil]
    obtain ⟨facts, live, whole⟩ := h (Verified.engaged_before settled engaged)
    have live' := (discipline.thread transfer.within trivial).2 _ live
    refine ⟨⟨facts.page, ?_, ?_, ?_, ?_⟩, by
      simp only [UpdateAgent.step]; rw [frame.firstPage]; exact live', ?_⟩
    · exact frame.target.trans facts.target
    · exact frame.length.trans facts.length
    · exact frame.digest.trans facts.digest
    · exact frame.received.trans facts.received
    · intro other
      apply whole
      intro receiving
      have free : ¬ UnderVerification d := by simp [UnderVerification, receiving]
      exact other ((Verified.rest_phase settled free).trans receiving)
  | startApplication | stopApplication =>
    intro engaged
    obtain ⟨facts, live, whole⟩ := h engaged
    simp only [UpdateAgent.step, Event.payload, List.append_nil]
    exact ⟨⟨facts.page, facts.target, facts.length, facts.digest, facts.received⟩, live, whole⟩

end Transfer

end Verification
