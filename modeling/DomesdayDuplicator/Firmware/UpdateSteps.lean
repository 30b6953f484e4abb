import DomesdayDuplicator.Firmware.UpdateAgent

/-!
# What each step of the update agent can do

One classification of a served request and one frame lemma for the application
thread. The invariants of the later modules are argued from these and never
unfold the step function again.
-/

namespace UpdateSteps

open UpdateProtocol Medium UpdateAgent

variable {sha256 : List Byte → Digest} {faults : Faults}

/-- Events that neither open, feed, hand over nor end anything. -/
def Inert (e : Event) : Prop :=
  e.payload = [] ∧ e ≠ .beginAdmitted ∧ e ≠ .finishAccepted ∧ e ≠ .captureStarted ∧
    e ≠ .verifyReturned ∧ e ≠ .reset ∧ ∀ data, e ≠ .chunkAccepted data

/-- A request that reaches `updateChunkIsAllowed` or `updateFinishIsAllowed`. -/
def Probes : Request → Prop
  | .data _ _ wLength _ => 0 < wLength ∧ wLength ≤ updateMaxChunk
  | .finish _ => True
  | _ => False

/-- The BEGIN that this request carries, if its shape is right. -/
def carriedBegin : Request → Option (Byte × UpdateBegin × FlashProbe)
  | .begin wIndex wLength (some data) probe =>
    if wLength ≠ updateBeginLength then none
    else (updateBeginDecode data).map fun begin => (BitVec.ofNat 8 wIndex, begin, probe)
  | _ => none

theorem updateAgentBeginRefusal_none {d : Device} {probe : FlashProbe} {target : Byte}
    {begin : UpdateBegin} (h : updateAgentBeginRefusal d probe target begin = .none) :
    updateBeginIsAllowed d.update target begin.length begin.flags d.dataCollection = .none ∧
      updateAgentMediumIsReady d probe target begin.length = .none := by
  simp only [updateAgentBeginRefusal] at h
  split at h
  · exact ⟨‹_›, h⟩
  · exact absurd h ‹_›

inductive Served (sha256 : List Byte → Digest) (faults : Faults) (d : Device) :
    Request → Device → Event → Prop
  | unchanged (r e) : Inert e → Served sha256 faults d r d e
  | beginRefused (r error) : error ≠ .none → updateIsInProgress d.update = false →
      Served sha256 faults d r (d.refuse error) .beginRefused
  | beginAdmitted (r target begin probe) : carriedBegin r = some (target, begin, probe) →
      updateAgentBeginRefusal d probe target begin = .none →
      Served sha256 faults d r (d.open target begin) .beginAdmitted
  | failed (r error e) : Probes r → error ≠ .none → Inert e →
      Served sha256 faults d r (d.fail error) e
  | chunk (r target index data e) : Probes r → data.length < 2 ^ 16 →
      updateChunkIsAllowed d.update target index data.length = .none →
      (d.update.target = updateTargetEeprom → d.update.received = 0 →
        updateImageIsPlausible data d.update.length = true) →
      e = (if (updateAgentData faults d target index data).2 then .chunkAccepted data
        else .chunkRefused) →
      Served sha256 faults d r (updateAgentData faults d target index data).1 e
  | finishAccepted (r target) : Probes r →
      updateFinishIsAllowed d.update target = .none → sha256 d.streamHash = d.update.digest →
      Served sha256 faults d r d.handOver .finishAccepted
  | reset (r i2cComesUp) : Served sha256 faults d r (powerOn i2cComesUp d.media) .reset
  | captureStarted : d.applicationActive = true → updateIsInProgress d.update = false →
      Served sha256 faults d (.capture 1) { d with dataCollection := true } .captureStarted
  | captureStopped (r) :
      Served sha256 faults d r { d with dataCollection := false } .captureStopped

theorem inert_quiet : Inert .quiet := ⟨rfl, nofun, nofun, nofun, nofun, nofun, nofun⟩

theorem inert_stalled : Inert .stalled := ⟨rfl, nofun, nofun, nofun, nofun, nofun, nofun⟩

theorem inert_status (packet : List Byte) : Inert (.status packet) :=
  ⟨rfl, nofun, nofun, nofun, nofun, nofun, nofun⟩

theorem inert_reconfigured : Inert .reconfigured :=
  ⟨rfl, nofun, nofun, nofun, nofun, nofun, nofun⟩

theorem inert_beginRefused : Inert .beginRefused :=
  ⟨rfl, nofun, nofun, nofun, nofun, nofun, nofun⟩

theorem inert_chunkRefused : Inert .chunkRefused :=
  ⟨rfl, nofun, nofun, nofun, nofun, nofun, nofun⟩

theorem inert_finishRefused : Inert .finishRefused :=
  ⟨rfl, nofun, nofun, nofun, nofun, nofun, nofun⟩

theorem served_begin (d : Device) (r : Request) (probe : FlashProbe) (target : Byte)
    (data : List Byte)
    (carried : ∀ begin, updateBeginDecode data = some begin →
      carriedBegin r = some (target, begin, probe)) :
    Served sha256 faults d r (updateAgentBegin d probe target data).1
      (if (updateAgentBegin d probe target data).2 then .beginAdmitted else .beginRefused) := by
  unfold updateAgentBegin
  cases decoded : updateBeginDecode data with
  | none =>
    by_cases busy : updateIsInProgress d.update = true
    · simpa [busy] using .unchanged r _ inert_beginRefused
    · simpa [busy] using .beginRefused r .length (by decide) (by simpa using busy)
  | some begin =>
    by_cases admitted : updateAgentBeginRefusal d probe target begin = .none
    · simpa [admitted] using .beginAdmitted r target begin probe (carried begin decoded) admitted
    · by_cases busy : updateIsInProgress d.update = true
      · simpa [admitted, busy] using .unchanged r _ inert_beginRefused
      · simpa [admitted, busy] using .beginRefused r _ admitted (by simpa using busy)

theorem served_data (d : Device) (r : Request) (target : Byte) (index : Nat)
    (data : List Byte) (probes : Probes r) (short : data.length < 2 ^ 16) :
    Served sha256 faults d r (updateAgentData faults d target index data).1
      (if (updateAgentData faults d target index data).2 then .chunkAccepted data
        else .chunkRefused) := by
  by_cases allowed : updateChunkIsAllowed d.update target index data.length = .none
  · by_cases image : d.update.target = updateTargetEeprom ∧ d.update.received = 0 ∧
        ¬ updateImageIsPlausible data d.update.length
    · simpa [updateAgentData, allowed, image] using
        .failed r .image _ probes (by decide) inert_chunkRefused
    · refine .chunk r target index data _ probes short allowed ?_ rfl
      intro eeprom first
      by_contra implausible
      exact image ⟨eeprom, first, implausible⟩
  · simpa [updateAgentData, allowed] using
      .failed r _ _ probes allowed inert_chunkRefused

theorem served_finish (d : Device) (wIndex : Nat) :
    Served sha256 faults d (.finish wIndex)
      (updateAgentFinish sha256 d (BitVec.ofNat 8 wIndex)).1
      (if (updateAgentFinish sha256 d (BitVec.ofNat 8 wIndex)).2 then .finishAccepted
        else .finishRefused) := by
  by_cases allowed : updateFinishIsAllowed d.update (BitVec.ofNat 8 wIndex) = .none
  · by_cases digest : sha256 d.streamHash = d.update.digest
    · simpa [updateAgentFinish, allowed, digest] using
        .finishAccepted (.finish wIndex) _ trivial allowed digest
    · simpa [updateAgentFinish, allowed, digest] using
        .failed (.finish wIndex) .streamDigest _ trivial (by decide) inert_finishRefused
  · simpa [updateAgentFinish, allowed] using
      .failed (.finish wIndex) _ _ trivial allowed inert_finishRefused

/-- Every answer of the setup callback is one of these. -/
theorem served (d : Device) (r : Request) :
    Served sha256 faults d r (serve sha256 faults d r).1 (serve sha256 faults d r).2 := by
  cases r with
  | status wLength =>
    by_cases short : wLength < updateStatusLength
    · simpa [serve, short] using .unchanged _ _ inert_stalled
    · simpa [serve, short] using .unchanged _ _ (inert_status _)
  | begin wIndex wLength payload probe =>
    by_cases shape : wLength = updateBeginLength
    · cases payload with
      | none => simpa [serve, shape] using .unchanged _ _ inert_stalled
      | some data =>
        simpa [serve, shape] using served_begin d _ probe (BitVec.ofNat 8 wIndex) data
          (fun begin h => by simp [carriedBegin, h])
    · simpa [serve, shape] using .unchanged _ _ inert_stalled
  | data wIndex wValue wLength payload =>
    by_cases shape : wLength = 0 ∨ wLength > updateMaxChunk
    · simpa [serve, shape] using .unchanged _ _ inert_stalled
    · have probes : Probes (.data wIndex wValue wLength payload) := by
        simp only [Probes]; omega
      by_cases allowed :
          updateChunkIsAllowed d.update (BitVec.ofNat 8 wIndex) wValue wLength = .none
      · cases payload with
        | none => simpa [serve, shape, allowed] using .unchanged _ _ inert_stalled
        | some data =>
          have short : (data.take wLength).length < 2 ^ 16 := by
            have : updateMaxChunk = 2048 := rfl
            simp only [List.length_take]
            omega
          simpa only [serve, shape, allowed, if_false, ne_eq, not_true] using
            served_data d _ (BitVec.ofNat 8 wIndex) wValue (data.take wLength) probes short
      · simpa [serve, shape, allowed] using .failed _ _ _ probes allowed inert_stalled
  | finish wIndex => simpa [serve] using served_finish d wIndex
  | reset up => simpa [serve] using .reset _ up
  | fpgaReconfig triggered =>
    by_cases refused : updateIsInProgress d.update ∨ ¬ triggered
    · simpa only [serve, refused, if_true] using .unchanged _ _ inert_stalled
    · simpa only [serve, refused, if_false] using .unchanged _ _ inert_reconfigured
  | capture wValue =>
    by_cases active : d.applicationActive = true
    · by_cases one : wValue = 1
      · subst one
        by_cases busy : updateIsInProgress d.update = true
        · simpa [serve, active, busy] using .unchanged _ _ inert_stalled
        · have answer : serve sha256 faults d (.capture 1) =
              ({ d with dataCollection := true }, .captureStarted) := by
            simp [serve, active, busy]
          rw [answer]
          exact .captureStarted active (by simpa using busy)
      · by_cases zero : wValue = 0
        · have answer : serve sha256 faults d (.capture wValue) =
              ({ d with dataCollection := false }, .captureStopped) := by
            simp [serve, active, zero]
          rw [answer]
          exact .captureStopped _
        · simpa [serve, active, one, zero] using .unchanged _ _ inert_quiet
    · simpa [serve, active] using .unchanged _ _ inert_stalled

/-- The request behind an admitted BEGIN, and the state it leaves. -/
theorem serve_begun {d : Device} {r : Request}
    (begun : (serve sha256 faults d r).2 = .beginAdmitted) :
    ∃ target begin probe, carriedBegin r = some (target, begin, probe) ∧
      updateAgentBeginRefusal d probe target begin = .none ∧
      (serve sha256 faults d r).1 = d.open target begin := by
  have answer : Served sha256 faults d r (serve sha256 faults d r).1
    (serve sha256 faults d r).2 := served d r
  generalize serve sha256 faults d r = pair at *
  obtain ⟨d', e⟩ := pair
  cases answer with
  | unchanged _ _ inert | failed _ _ _ _ _ inert => exact absurd begun inert.2.1
  | beginAdmitted _ target begin probe carried admitted =>
    exact ⟨target, begin, probe, carried, admitted, rfl⟩
  | chunk _ _ _ _ _ _ _ _ _ event =>
    rw [event] at begun
    split at begun <;> simp at begun
  | _ => simp at begun

/-! ## Chunks -/

variable (faults) in
/-- The loop touches nothing of the state but `written`, and fails with WRITE. -/
theorem updateAgentDataEpcs_state (fuel imageOffset : Nat) (data : List Byte)
    (u : UpdateState) (m : Media) :
    ∃ w, (updateAgentDataEpcs faults fuel imageOffset data u m).1 =
      if (updateAgentDataEpcs faults fuel imageOffset data u m).2.2 then
        { u with written := w }
      else updateStateFail { u with written := w } .write := by
  induction fuel generalizing imageOffset data u m with
  | zero => exact ⟨u.written, rfl⟩
  | succ fuel ih =>
    simp only [updateAgentDataEpcs]
    split
    · exact ⟨u.written, rfl⟩
    split
    · exact ⟨u.written, rfl⟩
    split
    · exact ⟨u.written, rfl⟩
    · exact ih _ _ { u with written := _ } _

variable (faults) in
theorem writeEepromPages_state (fuel offset : Nat) (data : List Byte)
    (u : UpdateState) (m : Media) :
    ∃ w, (writeEepromPages faults fuel offset data u m).1 =
      if (writeEepromPages faults fuel offset data u m).2.2 then
        { u with written := w }
      else updateStateFail { u with written := w } .write := by
  induction fuel generalizing offset data u m with
  | zero => exact ⟨u.written, rfl⟩
  | succ fuel ih =>
    simp only [writeEepromPages]
    split
    · exact ⟨u.written, rfl⟩
    split
    · exact ⟨u.written, rfl⟩
    split
    · exact ⟨u.written, rfl⟩
    · exact ih _ _ { u with written := _ } _

/-- What a chunk that passed the check does to everything but the media and the
page in RAM: it is counted, or the transfer has failed. -/
structure Taken (d d' : Device) (data : List Byte) (accepted : Bool) : Prop where
  counted : accepted = true → ∃ w, d'.update = { d.update with
    written := w
    received := d.update.received + data.length
    nextChunk := (d.update.nextChunk + 1) % 2 ^ 16 }
  failed : accepted = false → ∃ w, d'.update =
    updateStateFail { d.update with written := w } .write
  pending : d'.verifyPending = d.verifyPending
  thread : d'.thread = d.thread
  collection : d'.dataCollection = d.dataCollection
  active : d'.applicationActive = d.applicationActive
  hash : d'.streamHash = d.streamHash ++ data

variable (faults) in
theorem updateAgentData_taken {d : Device} {target : Byte} {index : Nat} {data : List Byte}
    (allowed : updateChunkIsAllowed d.update target index data.length = .none)
    (image : d.update.target = updateTargetEeprom → d.update.received = 0 →
      updateImageIsPlausible data d.update.length = true) :
    Taken d (updateAgentData faults d target index data).1 data
      (updateAgentData faults d target index data).2 := by
  have acceptable : ¬ (d.update.target = updateTargetEeprom ∧ d.update.received = 0 ∧
      ¬ updateImageIsPlausible data d.update.length) := by
    rintro ⟨eeprom, first, implausible⟩
    exact implausible (image eeprom first)
  simp only [updateAgentData, allowed, acceptable, ne_eq, not_true, if_false]
  split
  · obtain ⟨w, hw⟩ := updateAgentDataEpcs_state faults data.length
      d.update.received data d.update d.media
    split
    · rename_i ok
      rw [if_pos ok] at hw
      exact ⟨fun _ => ⟨w, by simp [Device.advance, hw]⟩, by simp, rfl, rfl, rfl, rfl, rfl⟩
    · rename_i failed
      rw [if_neg failed] at hw
      exact ⟨by simp, fun _ => ⟨w, hw⟩, rfl, rfl, rfl, rfl, rfl⟩
  · obtain ⟨w, hw⟩ := writeEepromPages_state faults
      (holdFirstPage d.firstPage d.update.received data).2.2.length
      (holdFirstPage d.firstPage d.update.received data).2.1
      (holdFirstPage d.firstPage d.update.received data).2.2 d.update d.media
    split
    · rename_i ok
      rw [if_pos ok] at hw
      exact ⟨fun _ => ⟨w, by simp [Device.advance, hw]⟩, by simp, rfl, rfl, rfl, rfl, rfl⟩
    · rename_i failed
      rw [if_neg failed] at hw
      exact ⟨by simp, fun _ => ⟨w, hw⟩, rfl, rfl, rfl, rfl, rfl⟩

/-! ## The application thread -/

/-- What no step of the verification changes. -/
structure ThreadFrame (d d' : Device) : Prop where
  target : d'.update.target = d.update.target
  length : d'.update.length = d.update.length
  digest : d'.update.digest = d.update.digest
  received : d'.update.received = d.update.received
  nextChunk : d'.update.nextChunk = d.update.nextChunk
  firstPage : d'.firstPage = d.firstPage
  streamHash : d'.streamHash = d.streamHash
  collection : d'.dataCollection = d.dataCollection

variable (sha256) (faults) in
theorem threadStep_frame (d : Device) : ThreadFrame d (threadStep sha256 faults d).1 := by
  unfold threadStep
  cases d.thread <;> simp only <;> repeat' split
  all_goals exact ⟨rfl, rfl, rfl, rfl, rfl, rfl, rfl, rfl⟩

theorem threadStep_event (d : Device) : (threadStep sha256 faults d).2 =
    if d.thread = .returning then .verifyReturned else .quiet := by
  unfold threadStep
  cases d.thread <;> simp only <;> repeat' split
  all_goals first | rfl | simp_all

/-- A thread with work to do comes back to the application loop by returning only. -/
theorem threadStep_busy {d : Device} (work : d.verifyPending = true ∨ d.thread ≠ .idle)
    (notReturning : d.thread ≠ .returning) :
    (threadStep sha256 faults d).1.thread ≠ .idle := by
  unfold threadStep
  cases place : d.thread with
  | idle => simp_all [Device.goto]
  | returning => exact absurd place notReturning
  | _ =>
    simp only
    repeat' split
    all_goals simp [Device.goto, Device.phase, Device.complete]

variable (sha256) (faults) in
/-- The thread writes the EPCS in the two steps of the boot-block commit only. -/
theorem threadStep_epcs (d : Device) :
    SameEpcs d.media (threadStep sha256 faults d).1.media ∨
    (∃ block, d.thread = .epcsErasing block) ∧ (threadStep sha256 faults d).1.media =
      (epcsFlashEraseSector faults updateEpcsBootBlockAddress d.media).1 ∨
    (∃ block, d.thread = .epcsProgramming block ∧ (threadStep sha256 faults d).1.media =
      (epcsFlashProgramPage faults updateEpcsBootBlockAddress block d.media).1) := by
  have same : SameEpcs d.media d.media := ⟨rfl, rfl⟩
  have read : ∀ address length,
      SameEpcs d.media (epcsFlashRead faults address length d.media).1 := by
    intro address length
    obtain ⟨n, h⟩ := epcsFlashRead_media faults address length d.media
    rw [h]
    exact ⟨rfl, rfl⟩
  unfold threadStep
  cases d.thread with
  | epcsErasing block => exact Or.inr (Or.inl ⟨⟨block, rfl⟩, rfl⟩)
  | epcsProgramming block => exact Or.inr (Or.inr ⟨block, rfl, rfl⟩)
  | eepromReading | eepromRereading =>
    refine Or.inl ?_
    simp only
    repeat' split
    all_goals
      first
      | exact same
      | exact updateEepromRead_epcs faults _ _ d.media
  | eepromCommitting =>
    exact Or.inl (updateEepromWritePage_epcs faults 0 d.firstPage d.media)
  | _ =>
    refine Or.inl ?_
    simp only
    repeat' split
    all_goals
      first
      | exact same
      | exact read _ _

/-- The thread never reopens a transfer. -/
theorem threadStep_receiving {d : Device}
    (h : (threadStep sha256 faults d).1.update.phase = .receiving) :
    d.update.phase = .receiving := by
  revert h
  unfold threadStep
  cases d.thread <;> simp only <;> repeat' split
  all_goals first | exact id | simp [Device.phase, Device.complete]

variable (faults) in
/-- What the flash half of an allowed chunk comes to. -/
theorem updateAgentData_epcs {d : Device} {target : Byte} {index : Nat} {data : List Byte}
    (allowed : updateChunkIsAllowed d.update target index data.length = .none)
    (epcs : updateTargetIsEpcs d.update.target = true) :
    (updateAgentData faults d target index data).2 =
        (updateAgentDataEpcs faults data.length d.update.received data d.update
          d.media).2.2 ∧
      (updateAgentData faults d target index data).1.media =
        (updateAgentDataEpcs faults data.length d.update.received data d.update
          d.media).2.1 := by
  have notEeprom : d.update.target ≠ updateTargetEeprom := by
    rcases updateEpcsTarget_eq epcs with h | h <;> rw [h] <;> decide
  simp only [updateAgentData, allowed, notEeprom, epcs, ne_eq, not_true, if_false, if_true,
    false_and]
  split
  · rename_i ok
    exact ⟨ok.symm, rfl⟩
  · rename_i failed
    have failed : (updateAgentDataEpcs faults data.length d.update.received data d.update
        d.media).2.2 = false := by simpa using failed
    exact ⟨failed.symm, rfl⟩

variable (faults) in
/-- What the EEPROM half of an allowed chunk comes to. -/
theorem updateAgentData_eeprom {d : Device} {target : Byte} {index : Nat} {data : List Byte}
    (allowed : updateChunkIsAllowed d.update target index data.length = .none)
    (image : d.update.target = updateTargetEeprom → d.update.received = 0 →
      updateImageIsPlausible data d.update.length = true)
    (eeprom : updateTargetIsEpcs d.update.target = false) :
    let held := holdFirstPage d.firstPage d.update.received data
    let wrote := writeEepromPages faults held.2.2.length held.2.1 held.2.2 d.update d.media
    (updateAgentData faults d target index data).2 = wrote.2.2 ∧
      (updateAgentData faults d target index data).1.media = wrote.2.1 ∧
      (updateAgentData faults d target index data).1.firstPage = held.1 := by
  have acceptable : ¬ (d.update.target = updateTargetEeprom ∧ d.update.received = 0 ∧
      ¬ updateImageIsPlausible data d.update.length) := by
    rintro ⟨eeprom, first, implausible⟩
    exact implausible (image eeprom first)
  intro held wrote
  simp only [updateAgentData, allowed, acceptable, eeprom, ne_eq, not_true, if_false,
    Bool.false_eq_true]
  split
  · rename_i ok
    exact ⟨ok.symm, rfl, rfl⟩
  · rename_i failed
    have failed : wrote.2.2 = false := by simpa using failed
    exact ⟨failed.symm, rfl, rfl⟩

/-- The first loop takes what still fits into the page in RAM. -/
theorem holdFirstPage_eq (page data : List Byte) (offset : Nat)
    (size : page.length = updateEepromPageSize) :
    holdFirstPage page offset data =
      (page.take offset ++ data.take (updateEepromPageSize - offset) ++
          page.drop (offset + (data.take (updateEepromPageSize - offset)).length),
        offset + (data.take (updateEepromPageSize - offset)).length,
        data.drop (updateEepromPageSize - offset)) := by
  induction data generalizing page offset with
  | nil => simp [holdFirstPage]
  | cons b rest ih =>
    by_cases room : offset < updateEepromPageSize
    · obtain ⟨n, hn⟩ : ∃ n, updateEepromPageSize - offset = n + 1 :=
        ⟨updateEepromPageSize - offset - 1, by omega⟩
      have next : updateEepromPageSize - (offset + 1) = n := by omega
      rw [holdFirstPage, if_pos room, ih _ _ (by simpa using size), next, hn]
      have placed : (page.set offset b).take (offset + 1) = page.take offset ++ [b] := by
        have length : (page.take offset).length = offset := by
          rw [List.length_take]
          omega
        rw [List.set_eq_take_append_cons_drop, if_pos (by omega), List.take_append, length,
          Nat.add_sub_cancel_left, List.take_of_length_le (by omega)]
        rfl
      simp only [placed, List.take_succ_cons, List.drop_succ_cons, List.length_cons,
        List.append_assoc, List.cons_append, Prod.mk.injEq, and_true]
      refine ⟨?_, by omega⟩
      rw [List.drop_set_of_lt (by omega), Nat.add_assoc, Nat.add_comm 1]
      rfl
    · have full : updateEepromPageSize - offset = 0 := by omega
      simp [holdFirstPage, room, full]

variable (sha256) (faults) in
/-- The thread writes the EEPROM in the step that commits the first page only. -/
theorem threadStep_eeprom (d : Device) :
    ReadsOnly d.media (threadStep sha256 faults d).1.media ∨
    d.thread = .eepromCommitting ∧ (threadStep sha256 faults d).1.media =
      (updateEepromWritePage faults 0 d.firstPage d.media).1 := by
  have same : ReadsOnly d.media d.media := .of_log rfl rfl
  have read : ∀ address length,
      ReadsOnly d.media (epcsFlashRead faults address length d.media).1 := by
    intro address length
    obtain ⟨n, h⟩ := epcsFlashRead_media faults address length d.media
    rw [h]
    exact .of_log rfl rfl
  unfold threadStep
  cases d.thread with
  | eepromCommitting => exact Or.inr ⟨rfl, rfl⟩
  | epcsErasing block =>
    obtain ⟨_, _, _, cells, log⟩ :=
      epcsFlashEraseSector_spec faults updateEpcsBootBlockAddress d.media
    exact Or.inl (.of_log cells log)
  | epcsProgramming block =>
    exact Or.inl (epcsFlashProgramPage_reads faults updateEpcsBootBlockAddress block d.media)
  | _ =>
    refine Or.inl ?_
    simp only
    repeat' split
    all_goals
      first
      | exact same
      | exact read _ _
      | exact updateEepromRead_reads faults _ _ d.media

end UpdateSteps
