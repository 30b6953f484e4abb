import DomesdayDuplicator.Firmware.TransferRun

/-!
# Chunks into the boot EEPROM

From the BEGIN that opens a transfer on the firmware target: the first page of
the image stays in RAM and the others go to the medium in order, each in one
page-write operation whose attempts all carry the same bytes. Page 0 of the
medium is not touched before the commit.
-/

namespace EepromWrite

open Execution UpdateProtocol Medium PagedMemory UpdateAgent UpdateSteps ReliableTransfer
  TransferRun

variable {sha256 : List Byte → Digest} {faults : Faults}

/-- The commands the EEPROM was given since `start`. -/
def since (start m : Media) : List EepromCommand :=
  m.eepromLog.drop start.eepromLog.length

def writes (start m : Media) : List (Nat × List Byte) :=
  (since start m).filterMap EepromCommand.pageWrite

def onFirstPage (w : Nat × List Byte) : Bool :=
  w.1 < updateEepromPageSize

def firstPageWrites (start m : Media) : List (Nat × List Byte) :=
  (writes start m).filter onFirstPage

def bodyWrites (start m : Media) : List (Nat × List Byte) :=
  (writes start m).filter fun w => !onFirstPage w

/-- A page of an image, zero padded to its size. -/
def padded (data : List Byte) : List Byte :=
  data.rightpad updateEepromPageSize 0

def imagePage (payload : List Byte) (page : Nat) : Nat × List Byte :=
  (updateEepromPageSize * page,
    padded ((payload.drop (updateEepromPageSize * page)).take updateEepromPageSize))

/-- The pages of an image after its first. -/
def bodyPages (payload : List Byte) : List (Nat × List Byte) :=
  (List.range' 1 (updateEepromPadToPage payload.length / updateEepromPageSize - 1)).map
    (imagePage payload)

theorem pageCount (length : Nat) :
    updateEepromPadToPage length / updateEepromPageSize = (length + 63) / 64 := by
  unfold updateEepromPadToPage updateEepromPageSize
  split <;> omega

theorem bodyPages_short {payload : List Byte} (h : payload.length ≤ updateEepromPageSize) :
    bodyPages payload = [] := by
  have none : (payload.length + 63) / 64 - 1 = 0 := by
    unfold updateEepromPageSize at h
    omega
  rw [bodyPages, pageCount, none]
  rfl

/-- A whole number of pages, and what is sent after them. -/
theorem bodyPages_extend {payload : List Byte}
    (page : payload.length % updateEepromPageSize = 0)
    (held : updateEepromPageSize ≤ payload.length) (data : List Byte) :
    bodyPages (payload ++ data) = bodyPages payload ++
      (List.range' (payload.length / updateEepromPageSize) ((data.length + 63) / 64)).map
        (imagePage (payload ++ data)) := by
  obtain ⟨n, hn⟩ : ∃ n, payload.length = updateEepromPageSize * (n + 1) := by
    refine ⟨payload.length / updateEepromPageSize - 1, ?_⟩
    simp only [updateEepromPageSize] at *
    omega
  have before : updateEepromPadToPage payload.length / updateEepromPageSize - 1 = n := by
    rw [pageCount]
    simp only [updateEepromPageSize] at *
    omega
  have after : updateEepromPadToPage (payload ++ data).length / updateEepromPageSize - 1 =
      n + (data.length + 63) / 64 := by
    rw [pageCount, List.length_append]
    simp only [updateEepromPageSize] at *
    omega
  have next : payload.length / updateEepromPageSize = 1 + n := by
    rw [hn, Nat.mul_div_cancel_left _ (by decide), Nat.add_comm]
  rw [bodyPages, bodyPages, before, after, next, ← List.range'_append_1, List.map_append]
  congr 1
  apply List.map_congr_left
  intro k hk
  have below : k < n + 1 := by
    have := List.mem_range'_1.mp hk
    omega
  have fits : updateEepromPageSize * k + updateEepromPageSize ≤ payload.length := by
    rw [hn, ← Nat.mul_succ]
    exact Nat.mul_le_mul_left updateEepromPageSize below
  rw [imagePage, imagePage, List.drop_append_of_le_length (by omega),
    List.take_append_of_le_length (by rw [List.length_drop]; omega)]

/-- One more page at the end of the image so far. -/
theorem bodyPages_append {payload data : List Byte}
    (page : payload.length % updateEepromPageSize = 0)
    (held : updateEepromPageSize ≤ payload.length) (pos : 0 < data.length)
    (short : data.length ≤ updateEepromPageSize) :
    bodyPages (payload ++ data) = bodyPages payload ++ [(payload.length, padded data)] := by
  have one : (data.length + 63) / 64 = 1 := by
    simp only [updateEepromPageSize] at short
    omega
  have place : updateEepromPageSize * (payload.length / updateEepromPageSize) =
      payload.length := by
    have := Nat.div_add_mod payload.length updateEepromPageSize
    omega
  rw [bodyPages_extend page held, one, List.range'_one, List.map_singleton, imagePage, place,
    List.drop_left, List.take_of_length_le short]

theorem bodyPages_increasing (payload : List Byte) :
    (bodyPages payload).Pairwise (fun p q => p.1 < q.1) ∧
      ∀ p ∈ bodyPages payload, updateEepromPageSize ≤ p.1 := by
  constructor
  · rw [bodyPages, List.pairwise_map]
    apply List.Pairwise.imp _ List.pairwise_lt_range'
    intro a b less
    exact Nat.mul_lt_mul_of_pos_left less (by decide)
  · intro p mem
    obtain ⟨k, hk, rfl⟩ := List.mem_map.mp mem
    have pos : 0 < k := (List.mem_range'_1.mp hk).1
    exact Nat.le_mul_of_pos_right _ pos

/-- The page in RAM is the first of the payload. -/
def HoldsFirst (page payload : List Byte) : Prop :=
  page.length = updateEepromPageSize ∧
    (payload = [] ∨ updateEepromPageSize ≤ payload.length ∧
      page = payload.take updateEepromPageSize)

section Loop

variable {Sent Cut : Media → List Byte → Prop} {payload data : List Byte}

/-- What one page write does to an account of the medium: `Sent` as long as every page is
stored, `Cut` when one is not. -/
structure PageRule (faults : Faults) (Sent Cut : Media → List Byte → Prop) : Prop where
  page : ∀ {m : Media} {payload data : List Byte}, Sent m payload →
    payload.length % updateEepromPageSize = 0 → updateEepromPageSize ≤ payload.length →
    0 < data.length → data.length ≤ updateEepromPageSize → payload.length < updateEepromSize →
    let wrote := updateEepromWritePage faults payload.length (padded data) m
    (wrote.2 = true → Sent wrote.1 (payload ++ data)) ∧ (wrote.2 = false → Cut wrote.1 payload)

theorem writeEepromPages_nil (fuel offset : Nat) (u : UpdateState) (m : Media) :
    writeEepromPages faults fuel offset [] u m = (u, m, true) := by
  cases fuel <;> simp [writeEepromPages]

/-- The whole of the second loop: everything is sent, or the pages before the one that failed. -/
theorem PageRule.loop (rule : PageRule faults Sent Cut) {fuel length : Nat} {m : Media}
    {u : UpdateState} (same : u.length = length) (h : Sent m payload) (page : payload.length % updateEepromPageSize = 0)
    (held : updateEepromPageSize ≤ payload.length) (enough : data.length ≤ fuel)
    (size : length ≤ updateEepromSize) (room : payload.length + data.length ≤ length)
    (whole : payload.length + data.length < length →
      data.length % updateEepromPageSize = 0) :
    let result := writeEepromPages faults fuel payload.length data u m
    (result.2.2 = true → Sent result.2.1 (payload ++ data)) ∧
      (result.2.2 = false → ∃ stored, stored <+: data ∧ Cut result.2.1 (payload ++ stored)) := by
  have size64 : updateEepromPageSize = 64 := rfl
  induction fuel generalizing payload data u m with
  | zero =>
    have empty : data = [] := List.length_eq_zero_iff.mp (by omega)
    subst empty
    simpa [writeEepromPages_nil] using h
  | succ fuel ih =>
    by_cases empty : data = []
    · subst empty
      simpa [writeEepromPages_nil] using h
    have pos : 0 < data.length := List.length_pos_iff.mpr empty
    have spanned : updateEepromWriteSpan payload.length data.length =
        min data.length updateEepromPageSize := by
      rw [updateEepromWriteSpan, if_neg (by omega), page, Nat.sub_zero]
    generalize hspan : min data.length updateEepromPageSize = span at spanned
    have taken : (data.take span).length = span := by
      rw [List.length_take]
      omega
    have asked : eepromPage length payload.length span data = padded (data.take span) := by
      rw [padded, List.rightpad, taken, eepromPage]
      split
      · rw [page, Nat.sub_zero]
      · rename_i inner
        have full : updateEepromPageSize - span = 0 := by
          by_contra partly
          have ends : span = data.length := by omega
          apply inner
          refine ⟨?_, by rw [size64]; omega⟩
          by_contra short
          have := whole (by omega)
          rw [size64] at this
          omega
        rw [full, List.replicate_zero, List.append_nil]
    obtain ⟨went, kept⟩ := rule.page h page held
      (taken ▸ (by omega : 0 < span)) (by omega) (by omega)
    intro result
    have turn : result = if ¬ (updateEepromWritePage faults payload.length
          (padded (data.take span)) m).2 then
          (updateStateFail u .write, (updateEepromWritePage faults payload.length
            (padded (data.take span)) m).1, false)
        else writeEepromPages faults fuel (payload.length + span) (data.drop span)
          { u with written := payload.length + span } (updateEepromWritePage faults
            payload.length (padded (data.take span)) m).1 := by
      simp only [result, writeEepromPages, empty, spanned, if_false, same, asked,
        Nat.pos_iff_ne_zero.mp (show 0 < span by omega)]
    generalize updateEepromWritePage faults payload.length (padded (data.take span)) m =
      wrote at went kept turn
    cases ok : wrote.2 with
    | false =>
      simp only [ok, Bool.false_eq_true, not_false_eq_true, if_true] at turn
      rw [turn]
      exact ⟨by simp, fun _ => ⟨[], List.nil_prefix, by rw [List.append_nil]; exact kept ok⟩⟩
    | true =>
      simp only [ok, not_true, if_false] at turn
      rw [turn]
      by_cases rest : data.drop span = []
      · have last : data.take span = data := by
          have := List.take_append_drop span data
          rwa [rest, List.append_nil] at this
        rw [rest, writeEepromPages_nil]
        rw [last] at went
        exact ⟨fun _ => went ok, by simp⟩
      · have full : span = updateEepromPageSize := by
          rw [List.drop_eq_nil_iff] at rest
          omega
        have same' : ({ u with written := payload.length + span } : UpdateState).length =
            length := same
        have further := ih same' (went ok)
          (by rw [List.length_append, taken, full, Nat.add_mod_right]; exact page)
          (by rw [List.length_append]; omega)
          (show (data.drop span).length ≤ fuel by rw [List.length_drop]; omega)
          (by rw [List.length_append, taken, List.length_drop]; omega)
          (by
            rw [List.length_append, taken, List.length_drop]
            intro less
            have := whole (by omega)
            rw [size64] at this ⊢
            omega)
        rw [List.length_append, taken, List.append_assoc, List.take_append_drop] at further
        refine ⟨further.1, fun failed => ?_⟩
        obtain ⟨stored, first, cut⟩ := further.2 failed
        refine ⟨data.take span ++ stored, ?_, by rw [← List.append_assoc]; exact cut⟩
        have := List.take_append_drop span data ▸ (List.prefix_append_right_inj _).mpr first
        exact this

/-- A chunk of the image: the first page of it goes into RAM. -/
theorem PageRule.chunk (rule : PageRule faults Sent Cut) {begin : UpdateBegin} {d : Device}
    {asked : Byte} {index : Nat}
    (inRam : ∀ {m : Media} {data : List Byte}, Sent m [] →
      data.length ≤ updateEepromPageSize → Sent m data)
    (minimum : updateImageMinimumLength ≤ begin.length)
    (fits : begin.length ≤ updateEepromSize) (facts : Receiving updateTargetEeprom begin payload d)
    (fed : Feeds updateTargetEeprom begin payload data)
    (ok : updateChunkIsAllowed d.update asked index data.length = .none)
    (image : d.update.target = updateTargetEeprom → d.update.received = 0 →
      updateImageIsPlausible data d.update.length = true)
    (sent : Sent d.media payload) (first : HoldsFirst d.firstPage payload) :
    let result := updateAgentData faults d asked index data
    (result.2 = true → Sent result.1.media (payload ++ data) ∧
      HoldsFirst result.1.firstPage (payload ++ data)) ∧
    (result.2 = false → ∃ stored, stored <+: data ∧ Cut result.1.media (payload ++ stored)) := by
  obtain ⟨size, holds⟩ := first
  have page : updateTargetPageSize updateTargetEeprom = updateEepromPageSize := rfl
  have started := fed.started
  have room := fed.room
  have whole := fed.page
  rw [page] at started whole
  obtain ⟨agreed, media, held⟩ := updateAgentData_eeprom faults ok image
    (by rw [facts.target]; rfl)
  rw [holdFirstPage_eq _ _ _ size, facts.received] at agreed media held
  have size64 : updateEepromPageSize = 64 := rfl
  intro result
  rcases holds with rfl | ⟨long, first⟩
  · -- the first chunk fills the page in RAM and starts the loop after it
    rw [List.length_nil, Nat.zero_add] at room whole
    rw [size64] at whole
    have low : 128 ≤ begin.length := minimum
    have pos := fed.pos
    have enough : updateEepromPageSize ≤ data.length := by omega
    have taken : (data.take updateEepromPageSize).length = updateEepromPageSize := by
      rw [List.length_take]
      omega
    simp only [List.length_nil, Nat.sub_zero, Nat.zero_add, List.take_zero, List.nil_append,
      taken, List.drop_of_length_le (Nat.le_of_eq size), List.append_nil] at agreed media held
    have loop := rule.loop facts.length (inRam sent (Nat.le_of_eq taken))
      (by rw [taken, Nat.mod_self]) (by omega)
      (Nat.le_refl (data.drop updateEepromPageSize).length) fits
      (by rw [taken, List.length_drop]; omega)
      (by rw [taken, List.length_drop, size64]; omega)
    rw [taken, List.take_append_drop] at loop
    rw [show result.2 = _ from agreed, show result.1.media = _ from media,
      show result.1.firstPage = _ from held]
    refine ⟨fun accepted => ⟨loop.1 accepted, taken, Or.inr ⟨enough, rfl⟩⟩, fun refused => ?_⟩
    obtain ⟨stored, upTo, cut⟩ := loop.2 refused
    refine ⟨data.take updateEepromPageSize ++ stored, ?_, cut⟩
    have := List.take_append_drop updateEepromPageSize data ▸
      (List.prefix_append_right_inj _).mpr upTo
    exact this
  · have full : updateEepromPageSize - payload.length = 0 := by omega
    simp only [full, List.take_zero, List.append_nil, List.length_nil, Nat.add_zero,
      List.drop_zero, List.take_append_drop] at agreed media held
    have loop := rule.loop facts.length sent started long (Nat.le_refl data.length) fits room whole
    rw [show result.2 = _ from agreed, show result.1.media = _ from media,
      show result.1.firstPage = _ from held]
    refine ⟨fun accepted => ⟨loop.1 accepted, size, Or.inr ⟨?_, ?_⟩⟩, loop.2⟩
    · rw [List.length_append]
      omega
    · rw [List.take_append_of_le_length long]
      exact first

end Loop

/-- What of a transfer a failed write leaves: pages in order, page 0 untouched
unless `extra`. -/
structure Held (extra : Prop) (start m : Media) (payload : List Byte) : Prop where
  grown : start.eepromLog <+: m.eepromLog
  untouched : extra ∨ firstPageWrites start m = [] ∧
    ∀ a, a < updateEepromPageSize → m.eeprom a = start.eeprom a
  pages : ∃ pages, Retried updateI2cAttempts pages (bodyWrites start m) ∧
    bodyPages payload <+: pages ∧ pages.Pairwise (fun p q => p.1 < q.1) ∧
    ∀ p ∈ pages, updateEepromPageSize ≤ p.1

/-- The pages after the first are those of the payload, and hold it. -/
structure Body (extra : Prop) (start m : Media) (payload : List Byte) : Prop where
  grown : start.eepromLog <+: m.eepromLog
  untouched : extra ∨ firstPageWrites start m = [] ∧
    ∀ a, a < updateEepromPageSize → m.eeprom a = start.eeprom a
  pages : Retried updateI2cAttempts (bodyPages payload) (bodyWrites start m)
  stored : ∀ i (h : i < payload.length), updateEepromPageSize ≤ i → m.eeprom i = payload[i]

def Live (extra : Prop) (start m : Media) (page payload : List Byte) : Prop :=
  Body extra start m payload ∧ HoldsFirst page payload

section Chunk

variable {extra : Prop} {start m m' : Media} {payload data : List Byte}

theorem Body.held (h : Body extra start m payload) : Held extra start m payload where
  grown := h.grown
  untouched := h.untouched
  pages := ⟨_, h.pages, List.prefix_refl _, (bodyPages_increasing payload).1,
    (bodyPages_increasing payload).2⟩

theorem writes_append {more : List EepromCommand} (grown : start.eepromLog <+: m.eepromLog)
    (log : m'.eepromLog = m.eepromLog ++ more) :
    writes start m' = writes start m ++ more.filterMap EepromCommand.pageWrite := by
  unfold writes since
  rw [log, List.drop_append_of_le_length grown.length_le, List.filterMap_append]

/-- Attempts on a page after the first join the writes of the body. -/
theorem writes_page {address tries : Nat} (grown : start.eepromLog <+: m.eepromLog)
    (log : m'.eepromLog = m.eepromLog ++ List.replicate tries (.write address data))
    (body : updateEepromPageSize ≤ address) :
    firstPageWrites start m' = firstPageWrites start m ∧
      bodyWrites start m' = bodyWrites start m ++ List.replicate tries (address, data) := by
  have all := writes_append grown log
  have asked : (List.replicate tries (EepromCommand.write address data)).filterMap
      EepromCommand.pageWrite = List.replicate tries (address, data) := by
    rw [List.filterMap_replicate]
    rfl
  rw [asked] at all
  have outside : onFirstPage (address, data) = false := by
    simpa [onFirstPage] using body
  constructor
  · rw [firstPageWrites, all, List.filter_append, List.filter_replicate]
    simp [outside, firstPageWrites]
  · rw [bodyWrites, all, List.filter_append, List.filter_replicate]
    simp [outside, bodyWrites]

variable (faults) in
/-- One page of the second loop. -/
theorem Body.page (h : Body extra start m payload)
    (page : payload.length % updateEepromPageSize = 0)
    (held : updateEepromPageSize ≤ payload.length) (pos : 0 < data.length)
    (short : data.length ≤ updateEepromPageSize)
    (inside : payload.length < updateEepromSize) :
    let wrote := updateEepromWritePage faults payload.length (padded data) m
    (wrote.2 = true → Body extra start wrote.1 (payload ++ data)) ∧
      (wrote.2 = false → Held extra start wrote.1 payload) := by
  intro wrote
  have full : (padded data).length = updateEepromPageSize := by
    rw [padded, List.length_rightpad]
    omega
  obtain ⟨tries, some, few, log, away, stored⟩ := updateEepromWritePage_spec faults
    inside (padded data) m
  obtain ⟨first, body⟩ := writes_page h.grown log held
  have grown : start.eepromLog <+: wrote.1.eepromLog := by
    rw [show wrote.1.eepromLog = _ from log]
    exact h.grown.trans (List.prefix_append _ _)
  have below : ∀ a, a < payload.length → wrote.1.eeprom a = m.eeprom a := fun a less =>
    away a (Nat.ne_of_lt (unit_lt page less))
  have untouched : extra ∨ firstPageWrites start wrote.1 = [] ∧
      ∀ a, a < updateEepromPageSize → wrote.1.eeprom a = start.eeprom a := by
    rcases h.untouched with may | ⟨nothing, cells⟩
    · exact Or.inl may
    · refine Or.inr ⟨first.trans nothing, fun a less => ?_⟩
      rw [below a (by omega), cells a less]
  have pages : Retried updateI2cAttempts (bodyPages (payload ++ data))
      (bodyWrites start wrote.1) := by
    rw [bodyPages_append page held pos short, body]
    exact .snoc _ tries h.pages some few
  constructor
  · intro done
    refine ⟨grown, untouched, pages, ?_⟩
    intro i hi bodyByte
    by_cases old : i < payload.length
    · rw [below i old, List.getElem_append_left old]
      exact h.stored i old bodyByte
    · obtain ⟨k, rfl⟩ : ∃ k, i = payload.length + k := ⟨i - payload.length, by omega⟩
      have hk : k < data.length := by
        rw [List.length_append] at hi
        omega
      have cell := stored (by rw [page, full, Nat.zero_add]) done k (by omega)
      rw [show wrote.1.eeprom (payload.length + k) = _ from cell,
        List.getElem_append_right (by omega)]
      simp [padded, List.rightpad, List.getElem_append_left hk]
  · intro _
    refine ⟨grown, untouched, _, pages, ?_, (bodyPages_increasing _).1,
      (bodyPages_increasing _).2⟩
    rw [bodyPages_append page held pos short]
    exact List.prefix_append _ _

variable (faults) in
theorem pageRule (extra : Prop) (start : Media) :
    PageRule faults (Body extra start) (Held extra start) where
  page := Body.page faults

/-- The pages of the first, in RAM, are none. -/
theorem Body.inRam (h : Body extra start m []) (short : data.length ≤ updateEepromPageSize) :
    Body extra start m data where
  grown := h.grown
  untouched := h.untouched
  pages := by
    have none : ([] : List Byte).length ≤ updateEepromPageSize := Nat.zero_le _
    rw [bodyPages_short short, ← bodyPages_short none]
    exact h.pages
  stored := fun i inside above => by omega

theorem Held.shorter {stored : List Byte} (h : Held extra start m (payload ++ stored))
    (earlier : bodyPages payload <+: bodyPages (payload ++ stored)) :
    Held extra start m payload where
  grown := h.grown
  untouched := h.untouched
  pages := by
    obtain ⟨pages, retried, first, rest⟩ := h.pages
    exact ⟨pages, retried, earlier.trans first, rest⟩

/-- The pages a transfer has taken are among those of what is sent on top of it. -/
theorem bodyPages_stay (page : payload.length % updateEepromPageSize = 0)
    (stored : List Byte) : bodyPages payload <+: bodyPages (payload ++ stored) := by
  by_cases short : payload.length ≤ updateEepromPageSize
  · rw [bodyPages_short short]
    exact List.nil_prefix
  · rw [bodyPages_extend page (by omega)]
    exact List.prefix_append _ _

end Chunk

section Transfer

variable {extra : Prop} {start m m' : Media} {target : Byte} {begin : UpdateBegin}

/-- Reads of the thread change no account. -/
theorem reads_writes {start m m' : Media} (grown : start.eepromLog <+: m.eepromLog)
    (reads : ReadsOnly m m') : start.eepromLog <+: m'.eepromLog ∧
      firstPageWrites start m' = firstPageWrites start m ∧
      bodyWrites start m' = bodyWrites start m := by
  obtain ⟨_, more, log, none⟩ := reads
  have all := writes_append grown log
  rw [none, List.append_nil] at all
  refine ⟨?_, by rw [firstPageWrites, all, firstPageWrites], by rw [bodyWrites, all, bodyWrites]⟩
  rw [log]
  exact grown.trans (List.prefix_append _ _)

/-- The commit of the first page, whoever's it is. -/
theorem commit_writes {page : List Byte} (grown : start.eepromLog <+: m.eepromLog)
    (commit : m' = (updateEepromWritePage faults 0 page m).1) :
    start.eepromLog <+: m'.eepromLog ∧ bodyWrites start m' = bodyWrites start m ∧
      ∀ a, updateEepromPageSize ≤ a → m'.eeprom a = m.eeprom a := by
  obtain ⟨tries, _, _, log, away, _⟩ := updateEepromWritePage_spec faults
    (show 0 < updateEepromSize by decide) page m
  rw [← commit] at log away
  refine ⟨by rw [log]; exact grown.trans (List.prefix_append _ _), ?_, ?_⟩
  · have all := writes_append grown log
    rw [bodyWrites, all, List.filter_append, bodyWrites]
    simp [EepromCommand.pageWrite, onFirstPage, updateEepromPageSize]
  · intro a above
    apply away
    simp only [updateEepromPageSize] at *
    omega

variable (extra) in
theorem discipline {allowed : Device → Action → Prop} (start : Media)
    (minimum : updateImageMinimumLength ≤ begin.length)
    (fits : begin.length ≤ updateEepromSize)
    (commits : ∀ d, allowed d .thread → d.thread = .eepromCommitting → extra) :
    Discipline sha256 faults allowed updateTargetEeprom begin (Held extra start)
      (Live extra start) where
  weaken := fun live => live.1.held
  chunk := by
    intro d asked index payload data facts fed ok image live
    obtain ⟨body, first⟩ := live
    obtain ⟨accepted, refused⟩ := (pageRule faults extra start).chunk Body.inRam minimum fits
      facts fed ok image body first
    refine ⟨accepted, fun failed => ?_⟩
    obtain ⟨stored, _, cut⟩ := refused failed
    exact cut.shorter (bodyPages_stay fed.started stored)
  thread := by
    intro d payload _ ok
    rcases threadStep_eeprom sha256 faults d with
      reads | ⟨committing, commit⟩
    · have same : ∀ {p : Prop} {start m m' : Media}, (p ∨ firstPageWrites start m = [] ∧
          ∀ a, a < updateEepromPageSize → m.eeprom a = start.eeprom a) →
          m'.eeprom = m.eeprom → firstPageWrites start m' = firstPageWrites start m →
          p ∨ firstPageWrites start m' = [] ∧
            ∀ a, a < updateEepromPageSize → m'.eeprom a = start.eeprom a := by
        intro p start m m' before cells first
        rw [first, cells]
        exact before
      refine ⟨fun kept => ?_, fun page live => ⟨?_, live.2⟩⟩
      · obtain ⟨grown, first, body⟩ := reads_writes kept.grown reads
        exact ⟨grown, same kept.untouched reads.1 first, by rw [body]; exact kept.pages⟩
      · obtain ⟨grown, first, body⟩ := reads_writes live.1.grown reads
        exact ⟨grown, same live.1.untouched reads.1 first, by rw [body]; exact live.1.pages,
          by rw [reads.1]; exact live.1.stored⟩
    · have may := commits d ok committing
      refine ⟨fun kept => ?_, fun page live => ⟨?_, live.2⟩⟩
      · obtain ⟨grown, body, _⟩ := commit_writes kept.grown commit
        exact ⟨grown, Or.inl may, by rw [body]; exact kept.pages⟩
      · obtain ⟨grown, body, cells⟩ := commit_writes live.1.grown commit
        refine ⟨grown, Or.inl may, by rw [body]; exact live.1.pages, ?_⟩
        intro i hi above
        rw [cells i above]
        exact live.1.stored i hi above

end Transfer

end EepromWrite
