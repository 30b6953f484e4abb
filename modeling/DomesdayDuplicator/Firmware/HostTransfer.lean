import DomesdayDuplicator.Firmware.UpdateSteps

/-!
# The host's side of a transfer

`ddd-gui/src/capture/device_updater.cpp` and the loop of `WriteComponent` in
`update_orchestrator.cpp`: the status packet as the host reads it, and a payload
cut into chunks. The host derives sizes and indices on its own; the agent's
decisions take every one of them.
-/

namespace HostTransfer

open UpdateProtocol UpdateAgent

def kUpdateChunkAlignment : Nat := 256

structure DeviceUpdateStatus where
  phase : Phase
  error : UpdateError
  maximumChunkBytes : Nat
  bytesReceived : Nat
  bytesWritten : Nat
  bytesVerified : Nat
  deriving DecidableEq

/-- The codes up to `kFailed`. -/
def updatePhases : List Phase := [.idle, .receiving, .writing, .verifying, .complete, .failed]

/-- The codes up to `kHardware`. -/
def deviceUpdateErrors : List UpdateError :=
  [.none, .busy, .target, .length, .sequence, .chunk, .overrun, .short, .streamDigest,
    .mediumDigest, .write, .read, .image, .hardware]

def parseDeviceUpdateStatus (packet : List Byte) : Option DeviceUpdateStatus := do
  if packet.length ≠ updateStatusLength then none
  let phase ← updatePhases.find? (·.code = packet.getD 0 0)
  let error ← deviceUpdateErrors.find? (·.code = packet.getD 1 0)
  return {
    phase, error
    maximumChunkBytes := (packet.getD 2 0).toNat + (packet.getD 3 0).toNat * 2 ^ 8
    bytesReceived := updateReadLittleEndian32 (packet.drop 4)
    bytesWritten := updateReadLittleEndian32 (packet.drop 8)
    bytesVerified := updateReadLittleEndian32 (packet.drop 12) }

def alignedChunk (maximum : Nat) : Nat :=
  let aligned := maximum - maximum % kUpdateChunkAlignment
  if aligned = 0 then kUpdateChunkAlignment else aligned

structure Chunk where
  index : Nat
  data : List Byte
  deriving DecidableEq

/-- The loop of `WriteComponent` over the payload not yet sent. Every turn sends a
byte, so a fuel of the payload's length is never used up. -/
def sendChunks (chunkBytes : Nat) : Nat → Nat → List Byte → List Chunk
  | 0, _, _ => []
  | fuel + 1, index, rest =>
    if rest = [] then []
    else
      ⟨index, rest.take chunkBytes⟩ ::
        sendChunks chunkBytes fuel ((index + 1) % 2 ^ 16) (rest.drop chunkBytes)

/-- The chunks sent to a device of this status, unless it names no size. -/
def writeComponent (initial : DeviceUpdateStatus) (payload : List Byte) : Option (List Chunk) :=
  if initial.maximumChunkBytes = 0 then none
  else some (sendChunks (alignedChunk initial.maximumChunkBytes) payload.length 0 payload)

/-- Each chunk is allowed where those before it have left the transfer, and FINISH
after the last. -/
def allowed (target : Byte) : Device → List Chunk → Bool
  | d, [] => updateFinishIsAllowed d.update target = .none
  | d, c :: rest =>
    updateChunkIsAllowed d.update target c.index c.data.length = .none &&
      allowed target (d.advance c.data.length) rest

/-! ## The status packet -/

theorem updateReadLittleEndian32_mod (n : Nat) (rest : List Byte) :
    updateReadLittleEndian32 (updateWriteLittleEndian32 n ++ rest) = n % 2 ^ 32 := by
  simp [updateReadLittleEndian32, updateWriteLittleEndian32]
  omega

theorem find_phase (p : Phase) : updatePhases.find? (·.code = p.code) = some p := by
  cases p <;> rfl

theorem find_error (e : UpdateError) : deviceUpdateErrors.find? (·.code = e.code) = some e := by
  cases e <;> rfl

/-- What the host reads is what the agent reported, the counters as 32-bit words. -/
theorem parse_encode (u : UpdateState) :
    parseDeviceUpdateStatus (updateStatusEncode u) = some
      { phase := u.phase
        error := u.error
        maximumChunkBytes := updateMaxChunk
        bytesReceived := u.received % 2 ^ 32
        bytesWritten := u.written % 2 ^ 32
        bytesVerified := u.verified % 2 ^ 32 } := by
  have received := updateReadLittleEndian32_mod u.received
    (updateWriteLittleEndian32 u.written ++ updateWriteLittleEndian32 u.verified)
  have written := updateReadLittleEndian32_mod u.written (updateWriteLittleEndian32 u.verified)
  have verified := updateReadLittleEndian32_mod u.verified []
  have phase := find_phase u.phase
  have error := find_error u.error
  simp_all [parseDeviceUpdateStatus, updateStatusEncode, updateWriteLittleEndian32,
    updateWriteLittleEndian16, updateStatusLength, updateMaxChunk]

/-! ## The chunks -/

theorem alignedChunk_spec {maximum : Nat} (wide : kUpdateChunkAlignment ≤ maximum) :
    kUpdateChunkAlignment ∣ alignedChunk maximum ∧
      kUpdateChunkAlignment ≤ alignedChunk maximum ∧ alignedChunk maximum ≤ maximum := by
  simp only [kUpdateChunkAlignment] at wide ⊢
  have whole : alignedChunk maximum = maximum - maximum % 256 := if_neg (by
    simp only [kUpdateChunkAlignment]
    omega)
  omega

variable {chunkBytes : Nat}

theorem sendChunks_size (fuel index : Nat) (rest : List Byte) :
    ∀ c ∈ sendChunks chunkBytes fuel index rest, c.data.length ≤ chunkBytes := by
  induction fuel generalizing index rest with
  | zero => simp [sendChunks]
  | succ fuel ih =>
    by_cases done : rest = []
    · simp [sendChunks, done]
    · intro c member
      rw [sendChunks, if_neg done, List.mem_cons] at member
      rcases member with rfl | later
      · exact List.length_take_le _ _
      · exact ih _ _ c later

theorem sendChunks_flatten (positive : 0 < chunkBytes) {fuel : Nat} (index : Nat)
    {rest : List Byte} (enough : rest.length ≤ fuel) :
    ((sendChunks chunkBytes fuel index rest).map (·.data)).flatten = rest := by
  induction fuel generalizing index rest with
  | zero =>
    have none := List.length_eq_zero_iff.mp (Nat.le_zero.mp enough)
    simp [sendChunks, none]
  | succ fuel ih =>
    by_cases done : rest = []
    · simp [sendChunks, done]
    · have shorter : (rest.drop chunkBytes).length ≤ fuel := by
        have := List.length_pos_iff.mpr done
        rw [List.length_drop]
        omega
      simp [sendChunks, done, ih _ shorter]

/-- The indices count up as long as the payload is within what 16 bits can number. -/
theorem sendChunks_index (wide : kUpdateChunkAlignment ≤ chunkBytes) (fuel index : Nat)
    (rest : List Byte) (room : kUpdateChunkAlignment * index + rest.length ≤ 2 ^ 24) :
    (sendChunks chunkBytes fuel index rest).map (·.index) =
      List.range' index (sendChunks chunkBytes fuel index rest).length := by
  induction fuel generalizing index rest with
  | zero => simp [sendChunks]
  | succ fuel ih =>
    by_cases done : rest = []
    · simp [sendChunks, done]
    · simp only [kUpdateChunkAlignment] at *
      by_cases last : rest.length ≤ chunkBytes
      · have none : ∀ f i, sendChunks chunkBytes f i (rest.drop chunkBytes) = [] := by
          intro f i
          cases f <;> simp [sendChunks, List.drop_eq_nil_of_le last]
        simp [sendChunks, done, none]
      · have left : (rest.drop chunkBytes).length = rest.length - chunkBytes := by simp
        have bound : index + 1 < 2 ^ 16 := by omega
        have unwrapped : (index + 1) % 2 ^ 16 = index + 1 := Nat.mod_eq_of_lt bound
        have later := ih (index + 1) (rest.drop chunkBytes) (by omega)
        simp only [sendChunks, if_neg done, unwrapped, List.map_cons, later, List.length_cons,
          List.range'_succ]

/-! ## The agent's decisions -/

/-- The transfer stands before the chunk `index`, with `rest` to come. -/
structure Awaits (target : Byte) (index : Nat) (rest : List Byte) (d : Device) : Prop where
  receiving : d.update.phase = .receiving
  target : d.update.target = target
  short : d.update.length ≤ updateEpcsSize
  counted : d.update.received + rest.length = d.update.length
  next : d.update.nextChunk = index
  numbered : rest ≠ [] → kUpdateChunkAlignment * index ≤ d.update.received

variable {target : Byte} {index : Nat} {rest : List Byte} {d : Device}

theorem Awaits.chunk (h : Awaits target index rest d)
    (aligned : kUpdateChunkAlignment ∣ chunkBytes) (wide : kUpdateChunkAlignment ≤ chunkBytes)
    (fits : chunkBytes ≤ updateMaxChunk) (more : rest ≠ []) :
    updateChunkIsAllowed d.update target index (rest.take chunkBytes).length = .none := by
  have some := List.length_pos_iff.mpr more
  have size : (rest.take chunkBytes).length = min chunkBytes rest.length := List.length_take
  have counted := h.counted
  have short := h.short
  have remaining : remainingLength d.update = rest.length := by
    rw [remainingLength_eq (Nat.lt_of_le_of_lt short (by decide)) (by omega)]
    omega
  have pages : updateTargetPageSize target ∣ kUpdateChunkAlignment := by
    simp only [updateTargetPageSize]
    split <;> decide
  have whole : ¬ ((rest.take chunkBytes).length < rest.length ∧
      (rest.take chunkBytes).length % updateTargetPageSize target ≠ 0) := by
    rintro ⟨less, torn⟩
    have full : (rest.take chunkBytes).length = chunkBytes := by omega
    rw [full] at torn
    exact torn (Nat.mod_eq_zero_of_dvd (pages.trans aligned))
  have positive : ¬ (rest.take chunkBytes).length = 0 := by
    simp only [kUpdateChunkAlignment] at wide
    omega
  have within : ¬ (rest.take chunkBytes).length > updateMaxChunk := by omega
  have inside : ¬ (rest.take chunkBytes).length > rest.length := by omega
  simp only [updateChunkIsAllowed, h.target, h.receiving, h.next, remaining, positive, within,
    inside, whole, ne_eq, not_true, if_false]

theorem Awaits.advance (h : Awaits target index rest d)
    (wide : kUpdateChunkAlignment ≤ chunkBytes) (more : rest ≠ []) :
    Awaits target ((index + 1) % 2 ^ 16) (rest.drop chunkBytes)
      (d.advance (rest.take chunkBytes).length) := by
  have counted := h.counted
  have short := h.short
  have numbered := h.numbered more
  constructor
  · exact h.receiving
  · exact h.target
  · exact h.short
  · simp only [Device.advance, List.length_take, List.length_drop]
    omega
  · simp only [Device.advance, h.next]
  · intro again
    have left := List.length_pos_iff.mpr again
    rw [List.length_drop] at left
    simp only [kUpdateChunkAlignment, updateEpcsSize] at *
    have bound : index + 1 < 2 ^ 16 := by omega
    simp only [Device.advance, List.length_take, Nat.mod_eq_of_lt bound]
    omega

theorem Awaits.allowed (aligned : kUpdateChunkAlignment ∣ chunkBytes)
    (wide : kUpdateChunkAlignment ≤ chunkBytes) (fits : chunkBytes ≤ updateMaxChunk)
    {fuel : Nat} (h : Awaits target index rest d) (enough : rest.length ≤ fuel) :
    allowed target d (sendChunks chunkBytes fuel index rest) = true := by
  induction fuel generalizing index rest d with
  | zero =>
    have counted := h.counted
    simp [sendChunks, HostTransfer.allowed, updateFinishIsAllowed, h.target, h.receiving]
    omega
  | succ fuel ih =>
    by_cases done : rest = []
    · have counted := h.counted
      simp [done] at counted
      simp [sendChunks, done, HostTransfer.allowed, updateFinishIsAllowed, h.target,
        h.receiving, counted]
    · have shorter : (rest.drop chunkBytes).length ≤ fuel := by
        have := List.length_pos_iff.mpr done
        simp only [kUpdateChunkAlignment] at wide
        rw [List.length_drop]
        omega
      simp only [sendChunks, if_neg done, HostTransfer.allowed, h.chunk aligned wide fits done,
        ih (h.advance wide done) shorter, decide_true, Bool.and_true]

/-- What the host sends for a payload the agent's BEGIN admits is what the agent's
decisions take, with the size the agent advertises in any of its states. -/
theorem host_chunks_allowed (d : Device) (u : UpdateState) (target : Byte)
    (begin : UpdateBegin) (payload : List Byte) (whole : payload.length = begin.length)
    (admitted : updateBeginIsAllowed d.update target begin.length begin.flags
      d.dataCollection = .none) :
    ∃ status chunks, parseDeviceUpdateStatus (updateStatusEncode u) = some status ∧
      writeComponent status payload = some chunks ∧
      (∀ c ∈ chunks, c.data.length ≤ status.maximumChunkBytes) ∧
      chunks.map (·.index) = List.range chunks.length ∧
      (chunks.map (·.data)).flatten = payload ∧
      allowed target (d.open target begin) chunks = true := by
  obtain ⟨positive, short⟩ := updateBeginIsAllowed_length admitted
  obtain ⟨aligned, wide, fits⟩ := @alignedChunk_spec updateMaxChunk (by decide)
  refine ⟨_, _, parse_encode u, if_neg (by simp [updateMaxChunk]), ?_, ?_, ?_, ?_⟩
  · intro c member
    exact (sendChunks_size _ _ _ c member).trans fits
  · have room : payload.length ≤ 2 ^ 24 := by
      simp only [updateEpcsSize] at short
      omega
    simpa [List.range_eq_range'] using sendChunks_index wide payload.length 0 payload
      (by simpa using room)
  · exact sendChunks_flatten (Nat.lt_of_lt_of_le (by decide) wide) 0 (Nat.le_refl _)
  · refine Awaits.allowed aligned wide fits ?_ (Nat.le_refl _)
    constructor
    · rfl
    · rfl
    · exact short
    · simpa [Device.open, updateStateReset] using whole
    · rfl
    · simp

theorem host_chunks_eeprom : ∃ chunks, writeComponent
    ⟨.idle, .none, updateMaxChunk, 0, 0, 0⟩ (List.replicate 4500 0) = some chunks ∧
      allowed updateTargetEeprom ((powerOn true ⟨fun _ => 0, fun _ => 0, 0, [], []⟩).open
        updateTargetEeprom ⟨4500, Vector.replicate 32 0, 0⟩) chunks = true := by
  obtain ⟨status, chunks, parsed, sent, -, -, -, taken⟩ := host_chunks_allowed
    (powerOn true ⟨fun _ => 0, fun _ => 0, 0, [], []⟩) updateStateReset updateTargetEeprom
    ⟨4500, Vector.replicate 32 0, 0⟩ (List.replicate 4500 0) List.length_replicate (by decide)
  have idle := Option.some.inj (parsed.symm.trans (parse_encode updateStateReset))
  exact ⟨chunks, by rw [← sent, idle]; rfl, taken⟩

end HostTransfer
