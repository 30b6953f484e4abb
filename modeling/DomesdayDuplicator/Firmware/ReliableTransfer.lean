import DomesdayDuplicator.Firmware.UpdateSteps

/-!
# Transfers over media that do not fail

When no medium operation fails and the host follows the protocol, every chunk is
taken and FINISH is accepted, whatever the payload and however it is split. The
guarantees of the later modules are therefore not vacuous.
-/

namespace ReliableTransfer

open Execution UpdateProtocol Medium UpdateAgent UpdateSteps

def reliable : Faults := fun _ => none

/-- The host's side of one chunk, answering the state it finds. -/
def chunkRequest (u : UpdateState) (data : List Byte) : Request :=
  .data u.target.toNat u.nextChunk data.length (some data)

theorem writeEpcsSpan_reliable (address : Nat) {data : List Byte} (m : Media)
    (pos : 0 < data.length) (fits : data.length ≤ updateEpcsPageSize) :
    (writeEpcsSpan reliable address data m).2 = true := by
  have sized : ¬ (data.length = 0 ∨ data.length > updateEpcsPageSize) := by omega
  simp only [writeEpcsSpan, epcsFlashProgramPage, sized, if_false]
  split <;> simp [epcsFlashEraseSector, reliable]

theorem updateEpcsWriteSpan_le (address remaining : Nat) :
    updateEpcsWriteSpan address remaining ≤ remaining ∧
      updateEpcsWriteSpan address remaining ≤ updateEpcsPageSize := by
  unfold updateEpcsWriteSpan
  split <;> omega

theorem updateAgentDataEpcs_reliable (fuel imageOffset : Nat) (data : List Byte)
    (u : UpdateState) (m : Media) :
    (updateAgentDataEpcs reliable fuel imageOffset data u m).2.2 = true := by
  induction fuel generalizing imageOffset data u m with
  | zero => rfl
  | succ fuel ih =>
    by_cases last : data = []
    · simp [updateAgentDataEpcs, last]
    · have left : 0 < data.length := List.length_pos_iff.mpr last
      have span := updateEpcsWriteSpan_pos (updateEpcsTargetBase u.target + imageOffset) left
      have bounds := updateEpcsWriteSpan_le
        (updateEpcsTargetBase u.target + imageOffset) data.length
      have taken : (data.take (updateEpcsWriteSpan
          (updateEpcsTargetBase u.target + imageOffset) data.length)).length =
          updateEpcsWriteSpan (updateEpcsTargetBase u.target + imageOffset) data.length := by
        rw [List.length_take]
        omega
      have wrote := writeEpcsSpan_reliable (updateEpcsTargetBase u.target + imageOffset) m
        (by rw [taken]; exact span) (by rw [taken]; exact bounds.2)
      simp only [updateAgentDataEpcs, last, if_false, Nat.pos_iff_ne_zero.mp span, wrote,
        not_true, ih]

theorem updateEepromWritePage_reliable (address : Nat) (data : List Byte) (m : Media) :
    (updateEepromWritePage reliable address data m).2 = true := by
  simp [updateEepromWritePage, updateI2cAttempts, writePageAttempts, i2cTransmitBytes,
    updateEepromWaitReady, reliable]

theorem writeEepromPages_reliable (fuel offset : Nat) (data : List Byte)
    (u : UpdateState) (m : Media) :
    (writeEepromPages reliable fuel offset data u m).2.2 = true := by
  induction fuel generalizing offset data u m with
  | zero => rfl
  | succ fuel ih =>
    by_cases last : data = []
    · simp [writeEepromPages, last]
    · have span := updateEepromWriteSpan_pos offset (List.length_pos_iff.mpr last)
      simp only [writeEepromPages, last, if_false, Nat.pos_iff_ne_zero.mp span,
        updateEepromWritePage_reliable, not_true, ih]

section Feeding

variable {sha256 : List Byte → Digest}

theorem updateAgentData_reliable {d : Device} {target : Byte} {index : Nat}
    {data : List Byte}
    (allowed : updateChunkIsAllowed d.update target index data.length = .none)
    (image : d.update.target = updateTargetEeprom → d.update.received = 0 →
      updateImageIsPlausible data d.update.length = true) :
    (updateAgentData reliable d target index data).2 = true := by
  have acceptable : ¬ (d.update.target = updateTargetEeprom ∧ d.update.received = 0 ∧
      ¬ updateImageIsPlausible data d.update.length) := by
    rintro ⟨eeprom, first, implausible⟩
    exact implausible (image eeprom first)
  simp only [updateAgentData, allowed, acceptable, ne_eq, not_true, if_false,
    updateAgentDataEpcs_reliable, writeEepromPages_reliable, if_true]
  split <;> rfl

/-- The transfer stands at `payload`, of a target and a length that stay. -/
structure Standing (d : Device) (target : Byte) (begin : UpdateBegin)
    (payload : List Byte) : Prop where
  receiving : d.update.phase = .receiving
  target : d.update.target = target
  length : d.update.length = begin.length
  digest : d.update.digest = begin.digest
  received : d.update.received = payload.length
  hash : d.streamHash = payload
  quiet : d.verifyPending = false
  idle : d.thread = .idle

variable (sha256) in
/-- A chunk of the right size is taken and the transfer stands one chunk further. -/
theorem Standing.chunk {d : Device} {target : Byte} {begin : UpdateBegin}
    {payload data : List Byte} (h : Standing d target begin payload)
    (fits : begin.length < 2 ^ 32) (pos : 0 < data.length)
    (bounded : data.length ≤ updateMaxChunk)
    (within : payload.length + data.length ≤ begin.length)
    (aligned : payload.length + data.length < begin.length →
      data.length % updateTargetPageSize target = 0)
    (image : target = updateTargetEeprom → payload = [] →
      updateImageIsPlausible data begin.length = true) :
    (serve sha256 reliable d (chunkRequest d.update data)).2 = .chunkAccepted data ∧
      Standing (serve sha256 reliable d (chunkRequest d.update data)).1 target begin
        (payload ++ data) := by
  have remaining : remainingLength d.update = begin.length - payload.length := by
    rw [remainingLength_eq (by rw [h.length]; exact fits)
      (by rw [h.received, h.length]; omega), h.length, h.received]
  have allowed : updateChunkIsAllowed d.update d.update.target d.update.nextChunk
      data.length = .none := by
    have notEmpty : ¬ data.length = 0 := by omega
    have notLong : ¬ data.length > updateMaxChunk := by omega
    have notOver : ¬ data.length > begin.length - payload.length := by omega
    have page : ¬ (data.length < begin.length - payload.length ∧
        data.length % updateTargetPageSize d.update.target ≠ 0) := by
      rintro ⟨less, unaligned⟩
      rw [h.target] at unaligned
      exact unaligned (aligned (by omega))
    simp only [updateChunkIsAllowed, remaining, ne_eq, not_true, if_false, h.receiving,
      notEmpty, notLong, notOver, page]
  have acceptable : d.update.target = updateTargetEeprom → d.update.received = 0 →
      updateImageIsPlausible data d.update.length = true := by
    intro eeprom first
    rw [h.length]
    rw [h.target] at eeprom
    rw [h.received] at first
    exact image eeprom (List.length_eq_zero_iff.mp first)
  have accepted := updateAgentData_reliable allowed acceptable
  have answer : serve sha256 reliable d (chunkRequest d.update data) =
      ((updateAgentData reliable d d.update.target d.update.nextChunk data).1,
        .chunkAccepted data) := by
    have shape : ¬ (data.length = 0 ∨ data.length > updateMaxChunk) := by omega
    simp only [serve, chunkRequest, shape, if_false, BitVec.ofNat_toNat, BitVec.setWidth_eq,
      allowed, ne_eq, not_true, List.take_length, accepted, if_true]
  rw [answer]
  have taken := updateAgentData_taken reliable allowed acceptable
  obtain ⟨w, update⟩ := taken.counted accepted
  refine ⟨rfl, ?_⟩
  exact
    { receiving := by simp [update, h.receiving]
      target := by rw [update]; exact h.target
      length := by simp [update, h.length]
      digest := by simp [update, h.digest]
      received := by simp [update, h.received]
      hash := by rw [taken.hash, h.hash]
      quiet := by rw [taken.pending, h.quiet]
      idle := by rw [taken.thread, h.idle] }

/-- A split of what is left of an image into chunks the agent takes. -/
def Splits (target : Byte) (length : Nat) : Nat → List (List Byte) → Prop
  | sent, [] => sent = length
  | sent, c :: rest => 0 < c.length ∧ c.length ≤ updateMaxChunk ∧ sent + c.length ≤ length ∧
      (sent + c.length < length → c.length % updateTargetPageSize target = 0) ∧
      Splits target length (sent + c.length) rest

/-- Nobody else is at work: no transfer, or one that is being received. -/
def Alone (d : Device) (_ : Action) : Prop :=
  (d.update.phase = .idle ∨ d.update.phase = .receiving) ∧ d.thread = .idle

variable (sha256) in
theorem Standing.feed {d : Device} {target : Byte} {begin : UpdateBegin}
    {payload : List Byte} {chunks : List (List Byte)} (h : Standing d target begin payload)
    (fits : begin.length < 2 ^ 32) (splits : Splits target begin.length payload.length chunks)
    (image : target = updateTargetEeprom → payload = [] →
      updateImageIsPlausible (chunks.headD []) begin.length = true) :
    ∃ d', Run (machine sha256 reliable) Alone d (chunks.map .chunkAccepted) d' ∧
      Standing d' target begin (payload ++ chunks.flatten) := by
  induction chunks generalizing d payload with
  | nil => exact ⟨d, .refl, by simpa using h⟩
  | cons c rest ih =>
    obtain ⟨pos, bounded, within, aligned, rest'⟩ := splits
    obtain ⟨event, next⟩ := h.chunk sha256 fits pos bounded within aligned image
    have nonempty : payload ++ c ≠ [] := by
      intro nil
      simp [List.append_eq_nil_iff.mp nil] at pos
    obtain ⟨d', run, standing⟩ := ih next (by simpa using rest')
      (fun _ empty => absurd empty nonempty)
    refine ⟨d', ?_, by simpa using standing⟩
    have first : Run (machine sha256 reliable) Alone d [.chunkAccepted c]
        (serve sha256 reliable d (chunkRequest d.update c)).1 := by
      rw [← event]
      exact Run.single (m := machine sha256 reliable)
        (show Alone d (.request (chunkRequest d.update c)) from ⟨Or.inr h.receiving, h.idle⟩)
    exact first.append run

theorem standing_open (d : Device) (target : Byte) (begin : UpdateBegin)
    (quiet : d.verifyPending = false) (idle : d.thread = .idle) :
    Standing (d.open target begin) target begin [] :=
  ⟨rfl, rfl, rfl, rfl, rfl, rfl, quiet, idle⟩

def beginRequest (target : Byte) (begin : UpdateBegin) (probe : FlashProbe) : Request :=
  .begin target.toNat updateBeginLength (some (beginPacket begin)) probe

theorem updateBeginDecode_admitted {d : Device} {target : Byte} {begin : UpdateBegin}
    {probe : FlashProbe}
    (admitted : updateAgentBeginRefusal d probe target begin = .none) :
    updateBeginDecode (beginPacket begin) = some begin := by
  have allowed := (updateAgentBeginRefusal_none admitted).1
  have length := (updateBeginIsAllowed_length allowed).2
  exact updateBeginDecode_beginPacket (Nat.lt_of_le_of_lt length (by decide))
    (updateBeginIsAllowed_flags allowed)

theorem carriedBegin_beginRequest {d : Device} {target : Byte} {begin : UpdateBegin}
    {probe : FlashProbe}
    (admitted : updateAgentBeginRefusal d probe target begin = .none) :
    carriedBegin (beginRequest target begin probe) = some (target, begin, probe) := by
  simp [carriedBegin, beginRequest, updateBeginDecode_admitted admitted]

variable (sha256) in
theorem serve_beginRequest (faults : Faults) {d : Device} {target : Byte}
    {begin : UpdateBegin} {probe : FlashProbe}
    (admitted : updateAgentBeginRefusal d probe target begin = .none) :
    serve sha256 faults d (beginRequest target begin probe) =
      (d.open target begin, .beginAdmitted) := by
  simp [serve, beginRequest, updateAgentBegin, updateBeginDecode_admitted admitted, admitted]

variable (sha256) in
/-- A transfer that follows the protocol is received to its end. -/
theorem received {i2cComesUp : Bool} {media : Media} {target : Byte} {begin : UpdateBegin}
    {probe : FlashProbe} {chunks : List (List Byte)}
    (admitted : updateAgentBeginRefusal (powerOn i2cComesUp media) probe target begin = .none)
    (splits : Splits target begin.length 0 chunks)
    (image : target = updateTargetEeprom →
      updateImageIsPlausible (chunks.headD []) begin.length = true) :
    ∃ d, Run (machine sha256 reliable) Alone (powerOn i2cComesUp media)
        (.beginAdmitted :: chunks.map .chunkAccepted) d ∧
      Standing d target begin chunks.flatten := by
  have opening : Run (machine sha256 reliable) Alone (powerOn i2cComesUp media)
      [.beginAdmitted] ((powerOn i2cComesUp media).open target begin) := by
    have answer := serve_beginRequest sha256 reliable admitted
    have alone : Alone (powerOn i2cComesUp media)
      (.request (beginRequest target begin probe)) := ⟨Or.inl rfl, rfl⟩
    simpa [machine, UpdateAgent.step, answer] using
      Run.single (m := machine sha256 reliable) alone
  have fits := (updateBeginIsAllowed_length (updateAgentBeginRefusal_none admitted).1).2
  obtain ⟨d, feeding, standing⟩ := Standing.feed sha256
    (standing_open (powerOn i2cComesUp media) target begin rfl rfl)
    (Nat.lt_of_le_of_lt fits (by decide)) splits (fun eeprom _ => image eeprom)
  exact ⟨d, opening.append feeding, standing⟩

variable (sha256) in
/-- FINISH after the whole image, when the digest agrees with it. -/
theorem Standing.finish (faults : Faults) {d : Device} {target : Byte} {begin : UpdateBegin}
    {payload : List Byte} (h : Standing d target begin payload)
    (whole : payload.length = begin.length) (digest : sha256 payload = begin.digest) :
    serve sha256 faults d (.finish target.toNat) = (d.handOver, .finishAccepted) := by
  have allowed : updateFinishIsAllowed d.update target = .none := by
    simp [updateFinishIsAllowed, h.target, h.receiving, h.received, h.length, whole]
  simp [serve, updateAgentFinish, allowed, h.hash, h.digest, digest]

end Feeding

/-! ## A transfer of one page -/

def samplePage : List Byte := List.replicate 256 0x5A

theorem length_samplePage : samplePage.length = 256 := List.length_replicate

/-- One page for the application region of an EPCS64. -/
def onePage (sha256 : List Byte → Digest) : UpdateBegin :=
  ⟨256, sha256 samplePage, updateFlagsNone⟩

def epcs64 : FlashProbe := ⟨true, some updateEpcsIdEpcs64⟩

def blank : Media := ⟨fun _ => 0xFF, fun _ => 0xFF, 0, [], []⟩

theorem onePage_admitted (sha256 : List Byte → Digest) :
    updateAgentBeginRefusal (powerOn true blank) epcs64 updateTargetEpcs (onePage sha256) =
      .none := rfl

theorem onePage_splits : Splits updateTargetEpcs 256 0 [samplePage] := by
  simp [Splits, updateMaxChunk, length_samplePage]

end ReliableTransfer
