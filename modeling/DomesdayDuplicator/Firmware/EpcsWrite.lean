import DomesdayDuplicator.Firmware.TransferRun

/-!
# Chunks into the EPCS

From the BEGIN that opens a transfer on an EPCS target: the region holds the
payload accepted so far, every page was programmed on a sector erased for it
during this transfer and not erased again, and nothing outside the region is
touched but the boot block, by the commit. All interleavings with the
application thread are covered, and every choice of faults.
-/

namespace EpcsWrite

open Execution UpdateProtocol Medium PagedMemory UpdateAgent UpdateSteps ReliableTransfer
  TransferRun

variable {sha256 : List Byte → Digest} {faults : Faults}

def regionEnd (target : Byte) : Nat :=
  updateEpcsTargetBase target + updateEpcsTargetCapacity target

def inRegion (target : Byte) (c : Command) : Bool :=
  updateEpcsTargetBase target ≤ c.start && c.start < regionEnd target

/-- The commands the EPCS was given since `start`. -/
def since (start m : Media) : List Command :=
  m.epcsLog.drop start.epcsLog.length

def own (target : Byte) (start m : Media) : List Command :=
  (since start m).filter (inRegion target)

def onBootBlock (c : Command) : Prop :=
  c.start = updateEpcsBootBlockAddress

/-- The two steps that rewrite the boot block. -/
def Committing (d : Device) : Prop :=
  ∃ block, d.thread = .epcsErasing block ∨ d.thread = .epcsProgramming block

def BeforeCommit (d : Device) (a : Action) : Prop :=
  a = .thread → ¬ Committing d

theorem region_aligned (target : Byte) :
    updateEpcsTargetBase target % updateEpcsSectorSize = 0 ∧
      regionEnd target % updateEpcsSectorSize = 0 ∧
      (updateEpcsBootBlockAddress + updateEpcsSectorSize ≤ updateEpcsTargetBase target ∨
        regionEnd target ≤ updateEpcsBootBlockAddress) := by
  unfold regionEnd updateEpcsTargetBase updateEpcsTargetCapacity
  split <;> decide

section Log

variable {target : Byte} {start m m' : Media} {c : Command}

theorem since_snoc (grown : start.epcsLog <+: m.epcsLog) (log : m'.epcsLog = m.epcsLog ++ [c]) :
    since start m' = since start m ++ [c] := by
  unfold since
  rw [log, List.drop_append_of_le_length grown.length_le]

theorem own_snoc_inside (grown : start.epcsLog <+: m.epcsLog)
    (log : m'.epcsLog = m.epcsLog ++ [c]) (inside : inRegion target c = true) :
    own target start m' = own target start m ++ [c] := by
  simp [own, since_snoc grown log, inside]

theorem own_snoc_outside (grown : start.epcsLog <+: m.epcsLog)
    (log : m'.epcsLog = m.epcsLog ++ [c]) (outside : inRegion target c = false) :
    own target start m' = own target start m := by
  simp [own, since_snoc grown log, outside]

end Log

/-- What a command outside the region may be. -/
structure Record (extra : Command → Prop) (target : Byte) (start m : Media) : Prop where
  grown : start.epcsLog <+: m.epcsLog
  strays : ∀ c ∈ since start m, inRegion target c = true ∨ extra c

theorem Record.snoc {extra : Command → Prop} {target : Byte} {start m m' : Media}
    {c : Command} (h : Record extra target start m) (log : m'.epcsLog = m.epcsLog ++ [c])
    (one : inRegion target c = true ∨ extra c) : Record extra target start m' where
  grown := by
    rw [log]
    exact h.grown.trans (List.prefix_append _ _)
  strays := by
    intro c' mem
    rw [since_snoc h.grown log] at mem
    rcases List.mem_append.mp mem with old | new
    · exact h.strays c' old
    · rw [List.mem_singleton.mp new]
      exact one

abbrev KeptIn (target : Byte) (start m : Media) (payload : List Byte) : Prop :=
  Kept updateEpcsPageSize updateEpcsSectorSize (updateEpcsTargetBase target)
    (regionEnd target) m.epcs (own target start m) payload

abbrev ForwardIn (target : Byte) (start m : Media) (payload : List Byte) : Prop :=
  Forward updateEpcsPageSize updateEpcsSectorSize (updateEpcsTargetBase target)
    (regionEnd target) m.epcs (own target start m) payload

section Chunk

variable {extra : Command → Prop} {target : Byte} {start : Media}

theorem inRegion_at (target : Byte) (payload : List Byte) (c : Command)
    (at_ : c.start = updateEpcsTargetBase target + payload.length)
    (room : payload.length < updateEpcsTargetCapacity target) : inRegion target c = true := by
  simp only [inRegion, at_, regionEnd, Bool.and_eq_true, decide_eq_true_eq]
  omega

variable (faults) in
/-- The erase that a write into a new sector starts with. -/
theorem entered {m : Media} {payload : List Byte} (record : Record extra target start m)
    (h : ForwardIn target start m payload)
    (aligned : (updateEpcsTargetBase target + payload.length) % updateEpcsSectorSize = 0)
    (room : payload.length < updateEpcsTargetCapacity target) :
    let erased := epcsFlashEraseSector faults
      (updateEpcsTargetBase target + payload.length) m
    Record extra target start erased.1 ∧ KeptIn target start erased.1 payload ∧
      (erased.2 = true → Opened updateEpcsPageSize updateEpcsSectorSize
        (updateEpcsTargetBase target) (regionEnd target) erased.1.epcs
        (own target start erased.1) payload) := by
  intro erased
  obtain ⟨leaves, cells, log, _, _⟩ := epcsFlashEraseSector_spec faults
    (updateEpcsTargetBase target + payload.length) m
  have base : updateEpcsSectorBase (updateEpcsTargetBase target + payload.length) =
      updateEpcsTargetBase target + payload.length := by
    rw [updateEpcsSectorBase, aligned, Nat.sub_zero]
  rw [base] at cells log
  have inside := inRegion_at target payload
    (.erase (updateEpcsTargetBase target + payload.length) erased.2) rfl room
  have ends := (region_aligned target).2.1
  have fits : updateEpcsTargetBase target + payload.length + updateEpcsSectorSize ≤
      regionEnd target := by
    simp only [updateEpcsSectorSize, regionEnd] at *
    omega
  refine ⟨record.snoc log (Or.inl inside), ?_, ?_⟩
  · have kept := h.erase aligned fits erased.2 leaves
    rw [KeptIn, own_snoc_inside record.grown log inside, cells]
    exact kept
  · intro done
    rw [own_snoc_inside record.grown log inside, cells, if_pos done]
    rw [show (epcsFlashEraseSector faults _ m).2 = true from done]
    exact h.entered aligned fits

/-- The page program, on a sector that is open. -/
theorem programmed {m : Media} {payload data : List Byte}
    (record : Record extra target start m)
    (h : Opened updateEpcsPageSize updateEpcsSectorSize (updateEpcsTargetBase target)
      (regionEnd target) m.epcs (own target start m) payload)
    (page : payload.length % updateEpcsPageSize = 0) (pos : 0 < data.length)
    (short : data.length ≤ updateEpcsPageSize)
    (room : payload.length + data.length ≤ updateEpcsTargetCapacity target) :
    let wrote := epcsFlashProgramPage faults
      (updateEpcsTargetBase target + payload.length) data m
    Record extra target start wrote.1 ∧
      (wrote.2 = true → ForwardIn target start wrote.1 (payload ++ data)) ∧
      (wrote.2 = false → KeptIn target start wrote.1 payload) := by
  intro wrote
  obtain ⟨leaves, cells, log, _, _⟩ := epcsFlashProgramPage_spec faults
    (updateEpcsTargetBase target + payload.length) pos short m
  have inside := inRegion_at target payload
    (.program (updateEpcsTargetBase target + payload.length) data wrote.2) rfl
    (by omega)
  have aligned : (updateEpcsTargetBase target + payload.length) % updateEpcsPageSize = 0 := by
    have := (region_aligned target).1
    simp only [updateEpcsSectorSize, updateEpcsPageSize] at *
    omega
  have fits : updateEpcsTargetBase target + payload.length + data.length ≤
      regionEnd target := by
    unfold regionEnd
    omega
  refine ⟨record.snoc log (Or.inl inside), ?_, ?_⟩
  · intro done
    rw [ForwardIn, own_snoc_inside record.grown log inside, cells, if_pos done]
    rw [show (epcsFlashProgramPage faults _ data m).2 = true from done]
    exact h.programmed (by decide) (by decide) (by omega) pos fits
  · intro done
    have failed : (epcsFlashProgramPage faults
      (updateEpcsTargetBase target + payload.length) data m).2 = false := done
    rw [KeptIn, own_snoc_inside record.grown log inside, cells, failed]
    exact h.failed aligned short fits

variable (faults) in
/-- One turn of the chunk loop. -/
theorem writeEpcsSpan_forward {m : Media} {payload data : List Byte}
    (record : Record extra target start m) (h : ForwardIn target start m payload)
    (page : payload.length % updateEpcsPageSize = 0) (pos : 0 < data.length)
    (short : data.length ≤ updateEpcsPageSize)
    (room : payload.length + data.length ≤ updateEpcsTargetCapacity target) :
    let wrote := writeEpcsSpan faults (updateEpcsTargetBase target + payload.length) data m
    Record extra target start wrote.1 ∧
      (wrote.2 = true → ForwardIn target start wrote.1 (payload ++ data)) ∧
      (wrote.2 = false → KeptIn target start wrote.1 payload) := by
  intro wrote
  by_cases aligned : (updateEpcsTargetBase target + payload.length) %
      updateEpcsSectorSize = 0
  · obtain ⟨record', kept, opened⟩ := entered faults record h aligned (by omega)
    have turn : wrote = if (epcsFlashEraseSector faults
        (updateEpcsTargetBase target + payload.length) m).2 then
          epcsFlashProgramPage faults (updateEpcsTargetBase target + payload.length) data
            (epcsFlashEraseSector faults (updateEpcsTargetBase target + payload.length) m).1
        else epcsFlashEraseSector faults (updateEpcsTargetBase target + payload.length) m := by
      simp [wrote, writeEpcsSpan, updateEpcsSectorStartsHere, aligned]
    rw [turn]
    split
    · rename_i done
      exact programmed record' (opened done) page pos short room
    · rename_i failed
      exact ⟨record', fun done => absurd done failed, fun _ => kept⟩
  · have turn : wrote = epcsFlashProgramPage faults
        (updateEpcsTargetBase target + payload.length) data m := by
      simp [wrote, writeEpcsSpan, updateEpcsSectorStartsHere, aligned]
    rw [turn]
    exact programmed record (h.inside aligned) page pos short room

theorem Kept.shorter {m : Media} {payload data : List Byte}
    (h : KeptIn target start m (payload ++ data)) : KeptIn target start m payload where
  stored := by
    have whole := h.stored
    rw [List.length_append, read_add] at whole
    exact List.append_inj_left whole (length_read _ _ _)
  eraseFirst := h.eraseFirst
  confined := h.confined

theorem updateAgentDataEpcs_nil (fuel imageOffset : Nat) (u : UpdateState) (m : Media) :
    updateAgentDataEpcs faults fuel imageOffset [] u m = (u, m, true) := by
  cases fuel <;> simp [updateAgentDataEpcs]

variable (faults) in
/-- The whole chunk: stored, or the payload before it kept. -/
theorem updateAgentDataEpcs_forward {fuel : Nat} {payload data : List Byte}
    {u : UpdateState} {m : Media} (same : u.target = target)
    (record : Record extra target start m) (h : ForwardIn target start m payload)
    (page : payload.length % updateEpcsPageSize = 0) (enough : data.length ≤ fuel)
    (room : payload.length + data.length ≤ updateEpcsTargetCapacity target) :
    let result := updateAgentDataEpcs faults fuel payload.length data u m
    Record extra target start result.2.1 ∧
      (result.2.2 = true → ForwardIn target start result.2.1 (payload ++ data)) ∧
      (result.2.2 = false → KeptIn target start result.2.1 payload) := by
  induction fuel generalizing payload data u m with
  | zero =>
    have empty : data = [] := List.length_eq_zero_iff.mp (by omega)
    subst empty
    simpa [updateAgentDataEpcs_nil] using ⟨record, h⟩
  | succ fuel ih =>
    by_cases empty : data = []
    · subst empty
      simpa [updateAgentDataEpcs_nil] using ⟨record, h⟩
    have pos : 0 < data.length := List.length_pos_iff.mpr empty
    have spanned : updateEpcsWriteSpan (updateEpcsTargetBase target + payload.length)
        data.length = min data.length updateEpcsPageSize := by
      have := (region_aligned target).1
      simp only [updateEpcsWriteSpan, updateEpcsSectorSize, updateEpcsPageSize] at *
      rw [if_neg (by omega)]
      omega
    have size : 0 < updateEpcsPageSize := by decide
    generalize hspan : min data.length updateEpcsPageSize = span at spanned
    have taken : (data.take span).length = span := by
      rw [List.length_take]
      omega
    obtain ⟨record', went, kept⟩ := writeEpcsSpan_forward faults
      record h page (taken ▸ (by omega : 0 < span)) (by omega) (by omega)
    intro result
    have turn : result = if ¬ (writeEpcsSpan faults
          (updateEpcsTargetBase target + payload.length) (data.take span) m).2 then
          (updateStateFail u .write, (writeEpcsSpan faults
            (updateEpcsTargetBase target + payload.length) (data.take span) m).1, false)
        else updateAgentDataEpcs faults fuel (payload.length + span) (data.drop span)
          { u with written := payload.length + span } (writeEpcsSpan faults
            (updateEpcsTargetBase target + payload.length) (data.take span) m).1 := by
      simp only [result, updateAgentDataEpcs, empty, same, spanned, if_false,
        Nat.pos_iff_ne_zero.mp (show 0 < span by omega)]
    generalize writeEpcsSpan faults (updateEpcsTargetBase target + payload.length)
      (data.take span) m = wrote at record' went kept turn
    cases ok : wrote.2 with
    | false =>
      simp only [ok, Bool.false_eq_true, not_false_eq_true, if_true] at turn
      rw [turn]
      exact ⟨record', by simp, fun _ => kept ok⟩
    | true =>
      simp only [ok, not_true, if_false] at turn
      rw [turn]
      by_cases rest : data.drop span = []
      · have last : data.take span = data := by
          have := List.take_append_drop span data
          rwa [rest, List.append_nil] at this
        rw [rest, updateAgentDataEpcs_nil]
        rw [last] at went
        exact ⟨record', fun _ => went ok, by simp⟩
      · have full : span = updateEpcsPageSize := by
          rw [List.drop_eq_nil_iff] at rest
          omega
        have same' : ({ u with written := payload.length + span } : UpdateState).target =
            target := same
        have further := ih same' record' (went ok)
          (by rw [List.length_append, taken, full, Nat.add_mod_right]; exact page)
          (show (data.drop span).length ≤ fuel by rw [List.length_drop]; omega)
          (by rw [List.length_append, taken, List.length_drop]; omega)
        rw [List.length_append, taken, List.append_assoc, List.take_append_drop] at further
        exact ⟨further.1, further.2.1, fun failed => Kept.shorter (further.2.2 failed)⟩

end Chunk

/-! ## The transfer as a whole -/

section Transfer

variable {extra : Command → Prop} {target : Byte} {begin : UpdateBegin} {start : Media}
  {payload : List Byte} {m m' : Media}

def Held (extra : Command → Prop) (target : Byte) (start m : Media) (payload : List Byte) :
    Prop :=
  Record extra target start m ∧ KeptIn target start m payload

def Live (extra : Command → Prop) (target : Byte) (start m : Media) (_ payload : List Byte) :
    Prop :=
  Record extra target start m ∧ ForwardIn target start m payload

variable (target) (start) in
theorem same_epcs (media : SameEpcs m m') : since start m' = since start m ∧
    own target start m' = own target start m := by
  have list : since start m' = since start m := by
    unfold since
    rw [media.2]
  exact ⟨list, by unfold own; rw [list]⟩

theorem Record.same (media : SameEpcs m m') (h : Record extra target start m) :
    Record extra target start m' :=
  ⟨by rw [media.2]; exact h.grown, by rw [(same_epcs target start media).1]; exact h.strays⟩

variable (target) in
/-- A command aimed at the boot block leaves the region and its record alone. -/
theorem boot_outside {c : Command} (at_ : onBootBlock c)
    (same : ∀ a, a / updateEpcsSectorSize ≠ updateEpcsBootBlockAddress / updateEpcsSectorSize →
      m'.epcs a = m.epcs a) :
    inRegion target c = false ∧ ∀ a, updateEpcsTargetBase target ≤ a →
      a < regionEnd target → m'.epcs a = m.epcs a := by
  obtain ⟨low, high, apart⟩ := region_aligned target
  rw [onBootBlock] at at_
  simp only [updateEpcsSectorSize, updateEpcsBootBlockAddress] at *
  constructor
  · simp only [inRegion, at_, Bool.and_eq_false_iff, decide_eq_false_iff_not]
    omega
  · intro a above below
    apply same
    omega

variable (sha256) (faults) in
/-- What the thread does to the EPCS between two of its steps. -/
theorem thread_epcs (d : Device) :
    SameEpcs d.media (threadStep sha256 faults d).1.media ∨
    Committing d ∧ ∃ c, onBootBlock c ∧
      (threadStep sha256 faults d).1.media.epcsLog = d.media.epcsLog ++ [c] ∧
      ∀ a, a / updateEpcsSectorSize ≠ updateEpcsBootBlockAddress / updateEpcsSectorSize →
        (threadStep sha256 faults d).1.media.epcs a = d.media.epcs a := by
  rcases threadStep_epcs sha256 faults d with
    same | ⟨⟨block, place⟩, media⟩ | ⟨block, place, media⟩
  · exact Or.inl same
  · obtain ⟨leaves, cells, log, _⟩ :=
      epcsFlashEraseSector_spec faults updateEpcsBootBlockAddress d.media
    refine Or.inr ⟨⟨block, Or.inl place⟩, _, ?_, by rw [media]; exact log, ?_⟩
    · rfl
    intro a away
    rw [media, cells]
    split
    · exact erase_outside away
    · exact scramble_outside away leaves
  · by_cases sized : 0 < block.length ∧ block.length ≤ updateEpcsPageSize
    · obtain ⟨leaves, cells, log, _⟩ := epcsFlashProgramPage_spec faults
        updateEpcsBootBlockAddress sized.1 sized.2 d.media
      refine Or.inr ⟨⟨block, Or.inr place⟩, _, ?_, by rw [media]; exact log, ?_⟩
      · rfl
      intro a away
      have page : a / updateEpcsPageSize ≠ updateEpcsBootBlockAddress / updateEpcsPageSize := by
        simp only [updateEpcsSectorSize, updateEpcsPageSize, updateEpcsBootBlockAddress] at *
        omega
      rw [media, cells]
      split
      · exact program_outside page block
      · exact scramble_outside page leaves
    · have refused : epcsFlashProgramPage faults updateEpcsBootBlockAddress block d.media =
          (d.media, false) := by
        unfold epcsFlashProgramPage
        rw [if_pos (by omega)]
      rw [refused] at media
      exact Or.inl (by rw [media]; exact ⟨rfl, rfl⟩)

variable (extra) in
theorem discipline {allowed : Device → Action → Prop} (start : Media)
    (epcs : updateTargetIsEpcs target = true)
    (fits : begin.length ≤ updateEpcsTargetCapacity target)
    (commits : ∀ d, allowed d .thread → Committing d → ∀ c, onBootBlock c → extra c) :
    Discipline sha256 faults allowed target begin (Held extra target start)
      (Live extra target start) where
  weaken := fun live => ⟨live.1, live.2.toKept⟩
  chunk := by
    intro d asked index payload data facts fed ok _ live
    obtain ⟨agreed, media⟩ := updateAgentData_epcs faults ok
      (by rw [facts.target]; exact epcs)
    rw [facts.received] at agreed media
    have started := fed.started
    rw [updateTargetPageSize, if_pos epcs] at started
    have room := fed.room
    obtain ⟨record, went, kept⟩ := updateAgentDataEpcs_forward faults
      facts.target live.1 live.2 started (Nat.le_refl data.length) (by omega)
    rw [agreed, media]
    exact ⟨fun accepted => ⟨record, went accepted⟩, fun refused => ⟨record, kept refused⟩⟩
  thread := by
    intro d payload within ok
    have inside : updateEpcsTargetBase target + payload.length ≤ regionEnd target := by
      unfold regionEnd
      omega
    rcases thread_epcs sha256 faults d with
      same | ⟨committing, c, boot, log, cells⟩
    · have commands := (same_epcs target start same).2
      refine ⟨fun kept => ⟨kept.1.same same, ?_⟩, fun _ live => ⟨live.1.same same, ?_⟩⟩
      · rw [KeptIn, same.1, commands]
        exact kept.2
      · rw [ForwardIn, same.1, commands]
        exact live.2
    · obtain ⟨outside, region⟩ := boot_outside target boot cells
      have more := commits d ok committing c boot
      refine ⟨fun kept => ⟨kept.1.snoc log (Or.inr more), ?_⟩,
        fun _ live => ⟨live.1.snoc log (Or.inr more), ?_⟩⟩
      · rw [KeptIn, own_snoc_outside kept.1.grown log outside]
        exact kept.2.frame inside region
      · rw [ForwardIn, own_snoc_outside live.1.grown log outside]
        exact live.2.frame (region_aligned target).2.1 inside region

theorem live_start (m : Media) (page : List Byte) : Live extra target m m page [] := by
  have nothing : own target m m = [] := by simp [own, since]
  refine ⟨⟨List.prefix_refl _, by simp [since]⟩, ?_⟩
  rw [ForwardIn, nothing]
  exact Forward.start (region_aligned target).1

end Transfer

/-- What the EPCS shows of a transfer that stands at `payload`. -/
structure Written (target : Byte) (start : Media) (payload : List Byte) (d : Device) :
    Prop where
  received : d.update.phase = .receiving → d.update.received = payload.length
  stored : read d.media.epcs (updateEpcsTargetBase target) payload.length = payload
  eraseFirst : EraseFirst updateEpcsSectorSize (own target start d.media)
  confined : Confined updateEpcsPageSize updateEpcsSectorSize (updateEpcsTargetBase target)
    (regionEnd target) (own target start d.media)
  grown : start.epcsLog <+: d.media.epcsLog
  strays : ∀ c ∈ since start d.media, inRegion target c = true ∨ onBootBlock c

/-- From an admitted BEGIN on: the payload is in the region, the commands on the
region erase before they program and stay in their pages, and before the commit
they are the only ones. -/
theorem epcs_write_correct {d : Device} {r : Request} {target : Byte} {begin : UpdateBegin}
    {probe : FlashProbe} (carried : carriedBegin r = some (target, begin, probe))
    (epcs : updateTargetIsEpcs target = true)
    (admitted : (serve sha256 faults d r).2 = .beginAdmitted) :
    (∀ es d', Run (machine sha256 faults) Any (serve sha256 faults d r).1 es d' →
      .beginAdmitted ∉ es → Written target d.media (es.flatMap Event.payload) d' ∧
        ∀ data, es.getLast? = some (.chunkAccepted data) → d'.update.phase = .receiving) ∧
    (∀ es d', Run (machine sha256 faults) BeforeCommit (serve sha256 faults d r).1 es d' →
      .beginAdmitted ∉ es → ∀ c ∈ since d.media d'.media, inRegion target c = true) ∧
    (Quiet d → ∀ es d', Run (machine sha256 faults) Any (serve sha256 faults d r).1 es d' →
      .beginAdmitted ∉ es → .finishAccepted ∉ es →
      ∀ c ∈ since d.media d'.media, inRegion target c = true) := by
  obtain ⟨target', begin', probe', carried', allowed, opened⟩ := serve_begun admitted
  obtain ⟨rfl, rfl, rfl⟩ : target' = target ∧ begin' = begin ∧ probe' = probe := by
    rw [carried] at carried'
    simpa [eq_comm] using carried'
  have fits : begin'.length ≤ updateEpcsTargetCapacity target' := by
    rcases (updateBeginIsAllowed_none (updateAgentBeginRefusal_none allowed).1).2.2 with
      ⟨_, _, fits⟩ | ⟨eeprom, _, _⟩
    · exact fits
    · rw [eeprom] at epcs
      cases epcs
  have small : begin'.length < 2 ^ 32 := Nat.lt_of_le_of_lt
    (updateBeginIsAllowed_length (updateAgentBeginRefusal_none allowed).1).2 (by decide)
  rw [opened]
  have before : ∀ es d', Run (machine sha256 faults) BeforeCommit (d.open target' begin')
      es d' → .beginAdmitted ∉ es →
      ∀ c ∈ since d.media d'.media, inRegion target' c = true := by
    intro es d' run notBegun c mem
    have transfer := transfer_run run (discipline (fun _ => False) d.media epcs fits
      fun _ ok committing => absurd committing (ok rfl)) small (live_start d.media _) notBegun
    exact (transfer.kept.1.strays c mem).resolve_right id
  refine ⟨?_, before, ?_⟩
  · intro es d' run notBegun
    have transfer := transfer_run run (discipline onBootBlock d.media epcs fits
      fun _ _ _ _ boot => boot) small (live_start d.media _) notBegun
    refine ⟨?_, ?_⟩
    · exact
        { received := fun receiving => (transfer.live receiving).1.received
          stored := transfer.kept.2.stored
          eraseFirst := transfer.kept.2.eraseFirst
          confined := transfer.kept.2.confined
          grown := transfer.kept.1.grown
          strays := transfer.kept.1.strays }
    · intro data last
      cases run with
      | refl => simp at last
      | snoc a _ _ => exact receiving_of_chunkAccepted (by simpa [machine] using last)
  · intro quiet es d' run notBegun notFinished
    refine before es d' ((quiet_run run quiet notFinished).1.mono _ ?_) notBegun
    rintro s a quiet rfl ⟨block, committing | committing⟩
    · rw [quiet.2] at committing; cases committing
    · rw [quiet.2] at committing; cases committing

/-- One page, sent to a blank EPCS64, is what its application region then holds. -/
theorem epcs_write_one_page :
    ∃ d, Run (machine (fun _ => Vector.replicate 32 0) reliable) Any
        ((powerOn true blank).open updateTargetEpcs (onePage fun _ => Vector.replicate 32 0))
        [.chunkAccepted samplePage] d ∧
      read d.media.epcs updateEpcsApplicationAddress 256 = samplePage := by
  let sha256 : List Byte → Digest := fun _ => Vector.replicate 32 0
  have opening := serve_beginRequest sha256 reliable
    (onePage_admitted sha256)
  obtain ⟨d, feeding, _⟩ := Standing.feed sha256
    (standing_open (powerOn true blank) updateTargetEpcs (onePage sha256) rfl rfl)
    (by simp [onePage]) onePage_splits (fun eeprom => by cases eeprom)
  have run := feeding.mono Any fun _ _ _ => trivial
  have admitted : (serve sha256 reliable (powerOn true blank)
      (beginRequest updateTargetEpcs (onePage sha256) epcs64)).2 = .beginAdmitted := by
    rw [opening]
  have correct := epcs_write_correct
    (carriedBegin_beginRequest (onePage_admitted sha256)) rfl admitted
  rw [opening] at correct
  have written := (correct.1 _ _ run (by simp)).1.stored
  simp only [List.map, List.flatMap_cons, List.flatMap_nil, Event.payload, List.append_nil,
    length_samplePage] at written
  exact ⟨d, run, written⟩

end EpcsWrite
