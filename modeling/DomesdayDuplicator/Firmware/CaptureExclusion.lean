import DomesdayDuplicator.Firmware.CaptureLifecycle
import DomesdayDuplicator.Firmware.VerifyGuard
import DomesdayDuplicator.Firmware.EpcsWrite

/-!
# The lifecycle of the capture path, with updates kept out

A capture and an update exclude each other through the phase of the update, and a
verification that a stray request has failed goes on storing its phase. A run in which no
capture starts under such a verification (`Clear`) has the whole `Lifecycle`.
-/

namespace CaptureExclusion

open Execution UpdateProtocol Medium UpdateSteps CapturePath CaptureLifecycle
open UpdateAgent hiding Action machine step powerOn

variable {sha256 : List Byte → Digest} {faults : Faults}

/-- Where the thread may yet store WRITING or VERIFYING. -/
def Storing : Thread → Bool
  | .epcsReading _ _ _ | .epcsProved _ | .epcsErasing _ | .epcsProgramming _ | .epcsWritten _ => true
  | .eepromReading _ _ | .eepromCommitting | .eepromWritten => true
  | _ => false

def StartsCapture (f : Firmware) : Action → Prop
  | .setup s _ => s.bType = SetupPacket.vendorRequest ∧ s.bRequest = SetupPacket.dataCollection ∧
      s.wValue = 1 ∧ f.agent.applicationActive = true ∧ updateIsInProgress f.agent.update = false
  | _ => False

/-- A capture that is let in finds no verification that may yet store its phase. -/
def Clear (f : Firmware) (a : Action) : Prop :=
  StartsCapture f a → Storing f.agent.thread = false

/-- While it collects, nothing is in progress and nothing will be stored as if it were. -/
def Excluded (d : Device) : Prop :=
  d.dataCollection = true → updateIsInProgress d.update = false ∧ Storing d.thread = false

theorem failed_free {u : UpdateState} (failed : u.phase = .failed) :
    updateIsInProgress u = false := by
  simp [updateIsInProgress, failed]

variable (sha256) (faults) in
theorem Excluded.serve {d : Device} (h : Excluded d) {r : Request}
    (other : ∀ wValue, r ≠ .capture wValue) : Excluded (serve sha256 faults d r).1 := by
  have answer : Served sha256 faults d r (UpdateAgent.serve sha256 faults d r).1
    (UpdateAgent.serve sha256 faults d r).2 := served d r
  generalize UpdateAgent.serve sha256 faults d r = pair at *
  obtain ⟨d', e⟩ := pair
  cases answer with
  | unchanged => exact h
  | beginRefused r error =>
    exact fun collects => ⟨failed_free (updateStateFail_phase _ _), (h collects).2⟩
  | beginAdmitted r target begin probe carried admitted =>
    intro collects
    have quiet := (updateBeginIsAllowed_none (updateAgentBeginRefusal_none admitted).1).1
    have collects : d.dataCollection = true := collects
    rw [collects] at quiet
    cases quiet
  | failed r error e =>
    exact fun collects => ⟨failed_free (updateStateFail_phase _ _), (h collects).2⟩
  | chunk r target index data e probes short allowed image =>
    intro collects
    have taken := updateAgentData_taken faults allowed image
    have free := (h (taken.collection.symm.trans collects)).1
    simp [updateIsInProgress, (updateChunkIsAllowed_none allowed).2.1] at free
  | finishAccepted r target probes allowed digest =>
    intro collects
    have free := (h collects).1
    simp [updateIsInProgress, (updateFinishIsAllowed_none allowed).2.1] at free
  | reset r up => rintro ⟨⟩
  | captureStarted => exact absurd rfl (other 1)
  | captureStopped => rintro ⟨⟩

theorem threadStep_free {d : Device} (free : updateIsInProgress d.update = false)
    (still : Storing d.thread = false) :
    updateIsInProgress (threadStep sha256 faults d).1.update = false ∧
      Storing (threadStep sha256 faults d).1.thread = false := by
  have notVerifying : d.update.phase ≠ .verifying := by
    intro verifying
    simp [updateIsInProgress, verifying] at free
  unfold threadStep
  cases place : d.thread with
  | idle =>
    simp only
    split
    · exact ⟨free, rfl⟩
    · exact ⟨free, still⟩
  | called => exact ⟨free, rfl⟩
  | cleared =>
    simp only [notVerifying, ne_eq, not_false_eq_true, if_true]
    exact ⟨free, rfl⟩
  | epcsRereading | epcsComparing | eepromRereading | eepromComparing | failing =>
    simp only
    repeat' split
    all_goals
      first
      | exact ⟨free, rfl⟩
      | exact ⟨rfl, rfl⟩
  | failed | returning => exact ⟨free, rfl⟩
  | _ =>
    rw [place] at still
    cases still

theorem Excluded.thread {d : Device} (h : Excluded d) :
    Excluded (threadStep sha256 faults d).1 := by
  intro collects
  rw [(threadStep_frame sha256 faults d).collection] at collects
  exact threadStep_free (h collects).1 (h collects).2

theorem Excluded.idle {d : Device} (quiet : d.dataCollection = false) : Excluded d := by
  intro collects
  rw [quiet] at collects
  cases collects

theorem excluded_stopIfActive {f : Firmware} (h : Excluded f.agent) :
    Excluded (stopIfActive f).agent := by
  rw [stopIfActive]
  split
  · exact .idle rfl
  · exact h

theorem excluded_start {f : Firmware} (h : Excluded f.agent) (usbSpeed : Speed) :
    Excluded (domDupStartApplication usbSpeed f).agent := by
  rw [domDupStartApplication]
  split
  · exact h
  · exact .idle rfl

theorem excluded_event {f : Firmware} (h : Excluded f.agent) (usbSpeed : Speed) (e : UsbEvent) :
    Excluded (domDupUSBEventCB usbSpeed e f).agent := by
  cases e with
  | setConf eventData =>
    simp only [domDupUSBEventCB]
    split
    · exact excluded_start (excluded_stopIfActive h) usbSpeed
    · exact excluded_stopIfActive h
  | suspend =>
    simp only [domDupUSBEventCB]
    split <;> exact .idle rfl
  | resume =>
    simp only [domDupUSBEventCB]
    split
    · exact excluded_start (.idle rfl) usbSpeed
    · exact h
  | reset | disconnect => exact excluded_stopIfActive h
  | vbusRemoved =>
    simp only [domDupUSBEventCB]
    split
    · exact excluded_stopIfActive h
    · exact h
  | vbusValid =>
    simp only [domDupUSBEventCB]
    split <;> exact h
  | _ => exact h

theorem excluded_setup {f : Firmware} (h : Excluded f.agent) {s : SetupPacket} {a : Answers}
    (clear : Clear f (.setup s a)) : Excluded (domDupUSBSetupCB sha256 faults s a f).1.agent := by
  rw [domDupUSBSetupCB]
  split
  · rename_i vendor
    split
    · have served := h.serve sha256 faults (updateRequest_other s a)
      generalize updateRequest s a = r at served
      cases r with
      | reset up => exact .idle rfl
      | _ => exact served
    · split
      · rename_i active
        split
        · rename_i collection
          rw [domDupDataCollection]
          by_cases start : s.wValue = 1
          · cases progress : updateIsInProgress f.agent.update with
            | true => simpa [start, progress] using h
            | false =>
              rw [if_neg (by simp), if_pos start]
              exact fun _ => ⟨progress, clear ⟨vendor, collection, start, active, progress⟩⟩
          · rw [if_neg fun both => start both.1, if_neg start]
            split
            · exact .idle rfl
            · exact h
        · repeat' split
          all_goals exact h
      · exact h
  · split
    · rw [domDupStandardRequest]
      repeat' split
      all_goals exact h
    · exact h

theorem excluded_step {f : Firmware} {a : Action} (h : Excluded f.agent) (clear : Clear f a) :
    Excluded (step sha256 faults f a).1.agent := by
  cases a with
  | setup s a => exact excluded_setup h clear
  | usb usbSpeed e => exact excluded_event h usbSpeed e
  | initialise noRenum usbSpeed =>
    simp only [CapturePath.step, domDupInitialiseApplication]
    split
    · exact h
    · exact excluded_start (excluded_stopIfActive h) usbSpeed
  | interrupt gpioTriggerPin gpioValue =>
    simp only [CapturePath.step, gpioInterruptCallback]
    repeat' split
    all_goals exact h
  | loop => exact h
  | thread => exact h.thread

theorem excluded_run {i2cComesUp : Bool} {media : Media} {es : List Report} {f : Firmware}
    (run : Run (machine sha256 faults) Clear (powerOn i2cComesUp media) es f) :
    Excluded f.agent :=
  run.invariant (.idle rfl) fun _ _ h clear => excluded_step h clear

/-! ## The lifecycle -/

/-- What a run from power-on with these reports is to leave. A channel that was created over
another one, or destroyed or used while there was none, would be `misused`. -/
structure Lifecycle (es : List Report) (f : Firmware) : Prop where
  present : f.agent.applicationActive = true →
    f.hardware.channel = .parked ∨ f.hardware.channel = .running
  absent : f.agent.applicationActive = false → f.hardware.channel = .absent
  driven : f.hardware.collectData = f.agent.dataCollection
  inactive : f.agent.applicationActive = false → f.hardware.collectData = false
  updating : updateIsInProgress f.agent.update = true → f.hardware.collectData = false
  links : ∀ before r after, es = before ++ r :: after → Restores r →
    .agent .captureStarted ∉ after → f.hardware.lpmEnabled = true
  transfers : ∀ before r after, es = before ++ r :: after → Rebuilds r →
    (∀ e ∈ after, ¬ Suspends e) → Transfers f
  resumed : f.agent.applicationActive = true →
    (domDupUSBEventCB .superSpeed .resume f).agent.applicationActive = true ∧
      (domDupUSBEventCB .superSpeed .resume f).hardware.channel = .running
  configured : ∀ eventData, eventData ≠ 0 →
    (domDupUSBEventCB .superSpeed (.setConf eventData) f).agent.applicationActive = true ∧
      (domDupUSBEventCB .superSpeed (.setConf eventData) f).hardware.channel = .running

theorem lifecycle_of_clear {i2cComesUp : Bool} {media : Media} {es : List Report} {f : Firmware}
    (run : Run (machine sha256 faults) Clear (powerOn i2cComesUp media) es f) :
    Lifecycle es f := by
  have sound : Sound f := sound_along run (sound_powerOn i2cComesUp media)
  have excluded := excluded_run run
  refine ⟨sound.present, sound.absent, sound.driven, ?_, ?_, ?_, ?_, ?_, ?_⟩
  · intro inactive
    rw [sound.driven]
    exact sound.quiet inactive
  · intro progress
    rw [sound.driven]
    by_contra collects
    have free := (excluded (by simpa using collects)).1
    rw [progress] at free
    cases free
  · rintro before r after rfl
    exact links_restored run
  · rintro before r after rfl
    exact transfers_rebuilt run
  · intro active
    simp only [domDupUSBEventCB, if_pos active]
    exact ((sound.stop active).start rfl).2
  · intro eventData selected
    simp only [domDupUSBEventCB, if_pos selected]
    exact (sound.stopIfActive.1.start sound.stopIfActive.2).2

/-! ### A capture on a fresh device -/

def vendorPacket (bRequest : BitVec 8) (wValue wIndex wLength : BitVec 16) : SetupPacket where
  bReqType := SetupPacket.vendorRequest
  bRequest := bRequest
  wValue := wValue
  wIndex := wIndex
  wLength := wLength

def answers (payload : Option (List Byte)) : Answers where
  payload := payload
  probe := ReliableTransfer.epcs64
  i2cComesUp := true
  reconfigures := true
  registersPresent := true
  registersAnswer := true

/-- The application as a host at SuperSpeed configures it. -/
def configured : Firmware := domDupUSBEventCB .superSpeed (.setConf 1) (powerOn true ReliableTransfer.blank)

theorem configured_collecting :
    Lifecycle [.usb .superSpeed (.setConf 1), .agent .captureStarted]
      (setLpm false (collecting true configured)) := by
  have setConf : Run (machine (fun _ => Vector.replicate 32 0) ReliableTransfer.reliable) Clear
      (powerOn true ReliableTransfer.blank) [.usb .superSpeed (.setConf 1)] configured :=
    Run.refl.next (.usb _ _) (fun starts => starts.elim) rfl
  exact lifecycle_of_clear
    (setConf.next (.setup (vendorPacket 0xB5 1 0 0) (answers none)) (fun _ => rfl) rfl)

/-! ## A stray FINISH -/

section Stray

open ReliableTransfer PagedMemory

theorem run_update {es : List Report} {f g : Firmware} {s : SetupPacket} {a : Answers}
    {r : Request} {d : Device} {e : Event} (run : Run (machine sha256 faults) Any g es f)
    (vendor : s.bType = SetupPacket.vendorRequest) (update : s.isUpdate = true)
    (served : serve sha256 faults f.agent r = (d, e)) (request : updateRequest s a = r)
    (stays : ∀ up, r ≠ .reset up) :
    Run (machine sha256 faults) Any g (es ++ [.agent e]) { f with agent := d } := by
  refine run.next (.setup s a) trivial ?_
  simp only [machine, CapturePath.step, domDupUSBSetupCB, vendor, update, request, if_true]
  cases r with
  | reset up => exact absurd rfl (stays up)
  | _ => simp only [domDupHandleUpdateRequest, served]

theorem run_thread {es : List Report} {f g : Firmware} {d : Device} {e : Event}
    (run : Run (machine sha256 faults) Any g es f)
    (next : threadStep sha256 faults f.agent = (d, e)) :
    Run (machine sha256 faults) Any g (es ++ [.agent e]) { f with agent := d } := by
  refine run.next .thread trivial ?_
  simp only [machine, CapturePath.step, next]

/-- One page at the start of the application region. -/
theorem page_read (m : Media) :
    read (writeEpcsSpan reliable updateEpcsApplicationAddress samplePage m).1.epcs
      updateEpcsApplicationAddress 256 = samplePage := by
  have starts : updateEpcsSectorStartsHere updateEpcsApplicationAddress = true := by decide
  have sized : ¬ (samplePage = [] ∨ updateEpcsPageSize < samplePage.length) := by
    rw [← List.length_eq_zero_iff, length_samplePage]
    decide
  have written : (writeEpcsSpan reliable updateEpcsApplicationAddress samplePage m).1.epcs =
      program updateEpcsPageSize (erase updateEpcsSectorSize m.epcs
        (updateEpcsSectorBase updateEpcsApplicationAddress))
        updateEpcsApplicationAddress samplePage := by
    simp [writeEpcsSpan, starts, epcsFlashEraseSector, epcsFlashProgramPage, sized, reliable]
  have appended : Appending updateEpcsSectorSize
      (program updateEpcsPageSize (erase updateEpcsSectorSize m.epcs
        (updateEpcsSectorBase updateEpcsApplicationAddress))
        (updateEpcsApplicationAddress + ([] : List Byte).length) samplePage)
      updateEpcsApplicationAddress ([] ++ samplePage) := by
    refine Appending.program (by decide : 0 < updateEpcsSectorSize)
      (by decide : updateEpcsPageSize ∣ updateEpcsSectorSize) rfl (fun a _ unit => ?_) ?_
    · exact erase_inside (by rw [unit]; decide)
    · rw [length_samplePage]
      decide
  have stored := appended.stored
  rw [List.nil_append, length_samplePage] at stored
  rw [written]
  exact stored

/-- The page is one turn of the loop. -/
theorem page_turn {fuel : Nat} (enough : 0 < fuel) {u : UpdateState}
    (target : u.target = updateTargetEpcs) (m : Media) :
    (updateAgentDataEpcs reliable fuel 0 samplePage u m).2.1 =
      (writeEpcsSpan reliable updateEpcsApplicationAddress samplePage m).1 := by
  obtain ⟨rest, rfl⟩ : ∃ rest, fuel = rest + 1 := ⟨fuel - 1, by omega⟩
  have nonempty : samplePage ≠ [] := by
    rw [← List.length_pos_iff, length_samplePage]
    decide
  have base : updateEpcsTargetBase u.target + 0 = updateEpcsApplicationAddress := by
    rw [target]
    rfl
  have span : updateEpcsWriteSpan updateEpcsApplicationAddress samplePage.length = 256 := by
    rw [length_samplePage]
    rfl
  have whole : samplePage.take 256 = samplePage :=
    List.take_of_length_le (Nat.le_of_eq length_samplePage)
  have none : samplePage.drop 256 = [] :=
    List.drop_of_length_le (Nat.le_of_eq length_samplePage)
  have wrote := writeEpcsSpan_reliable updateEpcsApplicationAddress m
    (by rw [length_samplePage]; decide : 0 < samplePage.length)
    (by rw [length_samplePage]; decide)
  rw [updateAgentDataEpcs, if_neg nonempty]
  simp only [base, span, whole, none, wrote, EpcsWrite.updateAgentDataEpcs_nil]
  rw [if_neg (by decide), if_neg (not_not_intro trivial)]

def opened (sha256 : List Byte → Digest) : Device :=
  Device.open { UpdateAgent.powerOn true blank with applicationActive := true } updateTargetEpcs
    (onePage sha256)

theorem chunk_media (sha256 : List Byte → Digest) :
    (serve sha256 reliable (opened sha256)
      (chunkRequest (opened sha256).update samplePage)).1.media =
      (writeEpcsSpan reliable updateEpcsApplicationAddress samplePage blank).1 := by
  have receiving : (opened sha256).update.phase = .receiving := rfl
  have received : (opened sha256).update.received = 0 := rfl
  have target : (opened sha256).update.target = updateTargetEpcs := rfl
  have media : (opened sha256).media = blank := rfl
  have length : (opened sha256).update.length = 256 := rfl
  have remaining : remainingLength (opened sha256).update = 256 := by
    rw [remainingLength_eq (by rw [length]; decide) (by rw [received]; exact Nat.zero_le _), length,
      received]
  have allowed : updateChunkIsAllowed (opened sha256).update (opened sha256).update.target
      (opened sha256).update.nextChunk samplePage.length = .none := by
    simp only [updateChunkIsAllowed, remaining, receiving, length_samplePage]
    rfl
  have shape : ¬ (samplePage.length = 0 ∨ samplePage.length > updateMaxChunk) := by
    rw [length_samplePage]
    decide
  have answer : (serve sha256 reliable (opened sha256)
      (chunkRequest (opened sha256).update samplePage)).1 =
      (updateAgentData reliable (opened sha256) (opened sha256).update.target
        (opened sha256).update.nextChunk samplePage).1 := by
    simp only [serve, chunkRequest, shape, if_false, BitVec.ofNat_toNat, BitVec.setWidth_eq,
      allowed, ne_eq, not_true, List.take_length]
  have epcs : updateTargetIsEpcs (opened sha256).update.target = true := by
    rw [target]
    rfl
  rw [answer, (updateAgentData_epcs reliable allowed epcs).2, received, media]
  exact page_turn (by rw [length_samplePage]; decide) target blank

/-- Two steps of the thread read the page back and store WRITING, whatever the phase. -/
theorem reading_stores (sha256 : List Byte → Digest) {d : Device}
    (place : d.thread = .epcsReading 0 [] updateCrc32Initial)
    (target : d.update.target = updateTargetEpcs) (length : d.update.length = 256)
    (digest : d.update.digest = sha256 samplePage)
    (stored : read d.media.epcs updateEpcsApplicationAddress 256 = samplePage) :
    (threadStep sha256 reliable (threadStep sha256 reliable d).1).1.update.phase = .writing ∧
      (threadStep sha256 reliable (threadStep sha256 reliable d).1).1.dataCollection =
        d.dataCollection := by
  have base : updateEpcsTargetBase d.update.target + 0 = updateEpcsApplicationAddress := by
    rw [target]
    rfl
  have got : epcsFlashRead reliable updateEpcsApplicationAddress 256 d.media =
      ({ d.media with operations := d.media.operations + 1 }, some samplePage) := by
    simp [epcsFlashRead, reliable, stored]
  have first : (threadStep sha256 reliable d).1 =
      { d with
        media := { d.media with operations := d.media.operations + 1 }
        update := { d.update with verified := 256 }
        thread := .epcsReading 256 samplePage (updateCrc32Update updateCrc32Initial samplePage) } := by
    simp [threadStep, place, length, updateReadbackSize, base, got]
  have notFactory : updateTargetEpcs ≠ updateTargetEpcsFactory := by decide
  rw [first]
  simp [threadStep, length, digest, target, notFactory, Device.phase]

/-- From the hand-over to the first read. -/
theorem comes_to_read (sha256 : List Byte → Digest) {d : Device} (idle : d.thread = .idle)
    (pending : d.verifyPending = true) (verifying : d.update.phase = .verifying)
    (target : d.update.target = updateTargetEpcs) (f : Firmware) :
    Run (machine sha256 reliable) Any { f with agent := d }
      [.agent .quiet, .agent .quiet, .agent .quiet]
      { f with agent := { d with
          verifyPending := false
          thread := .epcsReading 0 [] updateCrc32Initial } } := by
  have called : threadStep sha256 reliable d = (d.goto .called, .quiet) := by
    simp [threadStep, idle, pending]
  have cleared : threadStep sha256 reliable (d.goto .called) =
      ({ d with verifyPending := false, thread := .cleared }, .quiet) := rfl
  have epcs : updateTargetIsEpcs d.update.target = true := by
    rw [target]
    rfl
  have reading : threadStep sha256 reliable { d with verifyPending := false, thread := .cleared } =
      ({ d with
          verifyPending := false
          thread := .epcsReading 0 [] updateCrc32Initial }, .quiet) := by
    simp [threadStep, verifying, epcs, Device.goto]
  exact run_thread (run_thread (run_thread .refl called) cleared) reading

theorem run_capture {es : List Report} {f g : Firmware}
    (run : Run (machine sha256 faults) Any g es f) (active : f.agent.applicationActive = true)
    (free : updateIsInProgress f.agent.update = false) :
    Run (machine sha256 faults) Any g (es ++ [.agent .captureStarted])
      (setLpm false (collecting true f)) := by
  refine run.next (.setup (vendorPacket 0xB5 1 0 0) (answers none)) trivial ?_
  have vendor : (vendorPacket 0xB5 1 0 0).bType = SetupPacket.vendorRequest := rfl
  have other : (vendorPacket 0xB5 1 0 0).isUpdate = false := rfl
  have number : (vendorPacket 0xB5 1 0 0).bRequest = SetupPacket.dataCollection := rfl
  have start : (vendorPacket 0xB5 1 0 0).wValue = 1 := rfl
  simp only [machine, CapturePath.step, domDupUSBSetupCB]
  rw [if_pos vendor, if_neg (by rw [other]; decide), if_pos active, if_pos number, start,
    domDupDataCollection, if_neg (by simp [free]), if_pos rfl]

/-- A second FINISH fails the transfer under verification, a capture is let in, and the thread
stores WRITING while it runs. -/
theorem stray_finish_stores_under_capture : ¬ ∃ sha256, ∀ es f,
    Run (machine sha256 reliable) Any (powerOn true blank) es f → Lifecycle es f := by
  rintro ⟨sha256, holds⟩
  have setConf : Run (machine sha256 reliable) Any (powerOn true blank)
      [.usb .superSpeed (.setConf 1)] configured := Run.refl.next (.usb _ _) trivial rfl
  have admitted : updateAgentBeginRefusal configured.agent epcs64 updateTargetEpcs
      (onePage sha256) = .none := rfl
  have begun := run_update (s := vendorPacket 0xD1 0 1 40)
    (a := answers (some (beginPacket (onePage sha256)))) setConf rfl rfl
    (serve_beginRequest sha256 reliable admitted) rfl (by rintro _ ⟨⟩)
  have page : samplePage.length = 256 := length_samplePage
  have size : (onePage sha256).length = 256 := rfl
  have standing : Standing (opened sha256) updateTargetEpcs (onePage sha256) [] :=
    standing_open _ _ _ rfl rfl
  have chunk := standing.chunk sha256 (by rw [size]; decide)
    (by rw [page]; decide : 0 < samplePage.length) (by rw [page]; decide)
    (by rw [page, size]; decide) (by rw [page, size]; intro less; exact absurd less (by decide))
    (fun eeprom => by cases eeprom)
  have media := chunk_media sha256
  have active : (serve sha256 reliable (opened sha256)
      (chunkRequest (opened sha256).update samplePage)).1.applicationActive = true :=
    (serve_capture_side sha256 reliable (opened sha256) (by simp [chunkRequest]) (by simp [chunkRequest])).2.1
  have answer : serve sha256 reliable (opened sha256)
      (chunkRequest (opened sha256).update samplePage) =
      ((serve sha256 reliable (opened sha256)
        (chunkRequest (opened sha256).update samplePage)).1, .chunkAccepted samplePage) := by
    rw [← chunk.1]
  have request : updateRequest (vendorPacket 0xD2 0 1 256) (answers (some samplePage)) =
      chunkRequest (opened sha256).update samplePage := by
    rw [chunkRequest, page]
    rfl
  have filled := run_update begun rfl rfl answer request (by simp [chunkRequest])
  have standing := chunk.2
  clear chunk answer
  generalize (serve sha256 reliable (opened sha256)
    (chunkRequest (opened sha256).update samplePage)).1 = d at *
  have finished := run_update (s := vendorPacket 0xD3 0 1 0) (a := answers none) filled rfl rfl
    (standing.finish sha256 reliable page rfl) rfl (by rintro _ ⟨⟩)
  have reading := finished.append
    (comes_to_read sha256 (d := d.handOver) standing.idle rfl rfl standing.target configured)
  have strayed := run_update (s := vendorPacket 0xD3 0 1 0) (a := answers none) reading rfl rfl
    (VerifyGuard.serve_stray_finish sha256 reliable standing.target (Or.inr rfl)) rfl
    (by rintro _ ⟨⟩)
  have failed := updateStateFail_phase { d.handOver.update with verified := 0 } .sequence
  have captured := run_capture strayed active (failed_free failed)
  let reader : Device :=
    { d.handOver with verifyPending := false, thread := .epcsReading 0 [] updateCrc32Initial }
  let running : Device := { reader.fail .sequence with dataCollection := true }
  have kept : running.update.target = d.update.target ∧ running.update.length = d.update.length ∧
      running.update.digest = d.update.digest := ⟨rfl, rfl, rfl⟩
  have writing := reading_stores sha256 (d := running) rfl (kept.1.trans standing.target)
    (kept.2.1.trans standing.length) (kept.2.2.trans standing.digest)
    (by rw [show running.media = d.media from rfl, media]; exact page_read blank)
  have stored := run_thread (run_thread captured rfl) rfl
  have collects := (holds _ _ stored).updating (by
    rw [updateIsInProgress_iff]
    exact Or.inr (Or.inl writing.1))
  cases collects

end Stray

end CaptureExclusion
