import DomesdayDuplicator.Firmware.BootFormat
import DomesdayDuplicator.Firmware.EepromCommit

/-!
# A re-flash that stops before its commit

The medium then holds the old first page and, after it, the pages of the new image that
were stored: a mixture. The checks of the boot format accept the mixture when the walk over
the old section table closes on it, and the sum they compare is a plain sum of words. What
follows says exactly when that is, at every point of every transfer.
-/

namespace InterruptedFlash

open Execution UpdateProtocol Medium PagedMemory UpdateAgent UpdateSteps ReliableTransfer
  TransferRun EepromWrite VerifyGuard EepromCommit BootFormat

variable {sha256 : List Byte → Digest} {faults : Faults}

/-! ## What the medium holds -/

/-- The old medium, with these bytes in the place of its pages after the first. -/
def rewritten (old : Memory) (sent : List Byte) : Memory := fun a =>
  if updateEepromPageSize ≤ a ∧ a < updateEepromPadToPage sent.length then sent.getD a 0
  else old a

/-- As `rewritten`, except for the page that could not be stored: it holds anything. -/
structure TornAfter (old new : Memory) (sent : List Byte) : Prop where
  page : sent.length % updateEepromPageSize = 0
  held : updateEepromPageSize ≤ sent.length
  torn : ∃ leaves, new = scramble updateEepromPageSize (rewritten old sent) sent.length leaves

/-- The bytes sent are stored, or a page after them, in the chunk that followed, was not. -/
def Spliced (old new : Memory) (sent : List Byte) : Prop :=
  new = rewritten old sent ∨ ∃ more, more.length ≤ updateMaxChunk ∧
    TornAfter old new (sent ++ more)

section Writing

variable {old new : Memory} {sent data : List Byte} {m m' : Media}

theorem pad_eq (length : Nat) : updateEepromPadToPage length = (length + 63) / 64 * 64 := by
  unfold updateEepromPadToPage updateEepromPageSize
  split <;> omega

theorem rewritten_short (short : sent.length ≤ updateEepromPageSize) :
    rewritten old sent = old := by
  funext a
  simp only [rewritten, pad_eq, updateEepromPageSize] at *
  rw [if_neg (by omega)]

theorem getElem_padded {k : Nat} (inside : k < (padded data).length) :
    (padded data)[k] = data.getD k 0 := by
  by_cases byte : k < data.length
  · simp [padded, List.rightpad, byte]
  · have filled : k - data.length < updateEepromPageSize - data.length := by
      rw [padded, List.length_rightpad] at inside
      omega
    simp [padded, List.rightpad, List.getElem_append_right (Nat.le_of_not_lt byte), byte]

/-- One page more. -/
theorem rewritten_append (page : sent.length % updateEepromPageSize = 0)
    (held : updateEepromPageSize ≤ sent.length) (pos : 0 < data.length)
    (short : data.length ≤ updateEepromPageSize)
    (away : ∀ a, a / updateEepromPageSize ≠ sent.length / updateEepromPageSize →
      new a = rewritten old sent a)
    (stored : ∀ k (h : k < (padded data).length), new (sent.length + k) = (padded data)[k]) :
    new = rewritten old (sent ++ data) := by
  have full : (padded data).length = updateEepromPageSize := by
    rw [padded, List.length_rightpad]
    omega
  simp only [updateEepromPageSize] at *
  have padding : updateEepromPadToPage (sent ++ data).length = sent.length + 64 := by
    rw [pad_eq, List.length_append]
    omega
  have padded' : updateEepromPadToPage sent.length = sent.length := by
    rw [pad_eq]
    omega
  funext a
  by_cases here : a / 64 = sent.length / 64
  · obtain ⟨k, rfl⟩ : ∃ k, a = sent.length + k := ⟨a - sent.length, by omega⟩
    have inside : k < (padded data).length := by omega
    rw [stored k inside, rewritten, padding, if_pos (by simp only [updateEepromPageSize]; omega),
      List.getD_append_right _ _ _ _ (by omega), Nat.add_sub_cancel_left, getElem_padded]
  · rw [away a here, rewritten, rewritten, padding, padded', updateEepromPageSize]
    by_cases before : a < sent.length
    · rw [List.getD_append _ _ _ _ before]
      simp only [before, and_true, show a < sent.length + 64 by omega]
    · rw [if_neg (by omega), if_neg (by omega)]

theorem torn_eq (away : ∀ a, a / updateEepromPageSize ≠ sent.length / updateEepromPageSize →
    new a = rewritten old sent a) :
    new = scramble updateEepromPageSize (rewritten old sent) sent.length new := by
  funext a
  rw [scramble]
  split
  · rfl
  · exact away a ‹_›

variable (faults) in
theorem pageRule (old : Memory) : PageRule faults (fun m sent => m.eeprom = rewritten old sent)
    (fun m sent => TornAfter old m.eeprom sent) where
  page := by
    intro m sent data same page held pos short inside wrote
    have full : (padded data).length = updateEepromPageSize := by
      rw [padded, List.length_rightpad]
      omega
    obtain ⟨_, _, _, _, away, stored⟩ := updateEepromWritePage_spec faults inside (padded data) m
    rw [same] at away
    exact ⟨fun done => rewritten_append page held pos short away
        (stored (by rw [page, full, Nat.zero_add]) done),
      fun _ => ⟨page, held, wrote.1.eeprom, torn_eq away⟩⟩

/-- Nothing of the first page changes. -/
theorem Spliced.first (spliced : Spliced old new sent) {a : Nat}
    (first : a < updateEepromPageSize) : new a = old a := by
  rcases spliced with rfl | ⟨more, _, torn⟩
  · rw [rewritten, if_neg (by omega)]
  · obtain ⟨_, held, leaves, rfl⟩ := torn
    simp only [updateEepromPageSize] at first held
    rw [scramble, if_neg (by simp only [updateEepromPageSize]; omega), rewritten,
      if_neg (by simp only [updateEepromPageSize]; omega)]

theorem discipline {begin : UpdateBegin} (old : Memory)
    (minimum : updateImageMinimumLength ≤ begin.length)
    (fits : begin.length ≤ updateEepromSize) :
    Discipline sha256 faults BeforeCommit updateTargetEeprom begin
      (fun m sent => Spliced old m.eeprom sent)
      (fun m page sent => m.eeprom = rewritten old sent ∧ HoldsFirst page sent) where
  weaken := fun live => Or.inl live.1
  chunk := by
    intro d asked index payload data facts fed ok image live
    obtain ⟨accepted, refused⟩ := (pageRule faults old).chunk
      (fun sent short => by rw [sent, rewritten_short (by simp), rewritten_short short])
      minimum fits facts fed ok image live.1 live.2
    refine ⟨accepted, fun failed => ?_⟩
    obtain ⟨stored, upTo, cut⟩ := refused failed
    have few : data.length ≤ updateMaxChunk := (updateChunkIsAllowed_none ok).2.2.2.2.1
    exact Or.inr ⟨stored, Nat.le_trans upTo.length_le few, cut⟩
  thread := by
    intro d payload _ ok
    rcases threadStep_eeprom sha256 faults d with reads | ⟨committing, _⟩
    · rw [reads.1]
      exact ⟨id, fun page live => live⟩
    · exact absurd committing (ok rfl)

end Writing

/-! ## When the checks accept it -/

/-- The old bytes are all there, or the walk over the sections does not close: wherever it
ends inside the medium, the words it passed sum to something else than the word there. -/
def Separated (new : Memory) (old : List Byte) : Prop :=
  read new 0 old.length = old ∨ ∀ found, layout (word new) kMaximumSections 1 = some found →
    4 * (found.termination + 3) ≤ updateEepromSize →
      sumOver (word new) found.payload ≠ word new (found.termination + 2)

section Mixture

variable {old new : Memory} {image : List Byte}

theorem word_first (first : ∀ a, a < updateEepromPageSize → new a = old a) {i : Nat}
    (inside : i < 16) : word new i = word old i := by
  simp only [updateEepromPageSize] at first
  rw [word, word, first _ (by omega), first _ (by omega), first _ (by omega), first _ (by omega)]

/-- With the first page of a valid image in place only the walk decides. -/
theorem boots_mixture (first : ∀ a, a < updateEepromPageSize → new a = old a)
    (boots : Boots old) : Boots new ↔ ∃ found, Summed (word new) found ∧
      4 * (found.termination + 3) ≤ updateEepromSize := by
  obtain ⟨header, program, -⟩ := boots_iff.mp boots
  have header' : Header (read new 0 kHeaderBytes) := by
    refine header_congr (fun i inside => ?_) header
    rw [getD_read inside, getD_read inside]
    apply first
    simp only [kHeaderBytes, updateEepromPageSize] at *
    omega
  rw [← word_first first (by decide : 1 < 16)] at program
  rw [boots_iff]
  exact ⟨fun accepted => accepted.2.2, fun walk => ⟨header', program, walk⟩⟩

/-- The old image or a refusal, exactly when the bytes are separated. -/
theorem old_or_rejected_iff (first : ∀ a, a < updateEepromPageSize → new a = old a)
    (boots : Boots old) : read new 0 image.length = image ∨ ¬ Boots new ↔ Separated new image := by
  rw [boots_mixture first boots]
  constructor
  · rintro (whole | rejected)
    · exact Or.inl whole
    · exact Or.inr fun found walked inside sum => rejected ⟨found, ⟨walked, sum⟩, inside⟩
  · rintro (whole | differs)
    · exact Or.inl whole
    · refine Or.inr ?_
      rintro ⟨found, summed, inside⟩
      exact differs found summed.walked inside summed.sum

/-- With the sections where they were, only the change of the sum is seen. -/
theorem boots_same_sections (first : ∀ a, a < updateEepromPageSize → new a = old a)
    (boots : Boots old) {found : Layout} (summed : Summed (word old) found)
    (inside : 4 * (found.termination + 3) ≤ updateEepromSize)
    (walked : layout (word new) kMaximumSections 1 = some found) :
    Boots new ↔ sumOver (word new) found.payload + word old (found.termination + 2) =
      sumOver (word old) found.payload + word new (found.termination + 2) := by
  rw [boots_mixture first boots, summed.sum, BitVec.add_comm]
  constructor
  · rintro ⟨other, closes, -⟩
    obtain rfl : found = other := Option.some.inj (walked.symm.trans closes.walked)
    rw [closes.sum]
  · intro sum
    exact ⟨found, ⟨walked, (BitVec.add_right_inj _).mp sum⟩, inside⟩

end Mixture

/-- From an admitted BEGIN up to the commit, whatever fails. -/
theorem interrupted_flash {d : Device} {r : Request} {begin : UpdateBegin} {probe : FlashProbe}
    {old : List Byte} {es : List Event} {d' : Device}
    (carried : carriedBegin r = some (updateTargetEeprom, begin, probe))
    (admitted : (serve sha256 faults d r).2 = .beginAdmitted)
    (valid : ∃ parsed, parseBootImage old = .ok parsed)
    (stored : old.length ≤ updateEepromSize ∧ read d.media.eeprom 0 old.length = old)
    (run : Trace sha256 faults BeforeCommit (serve sha256 faults d r).1 es d')
    (once : .beginAdmitted ∉ es) :
    Spliced d.media.eeprom d'.media.eeprom (es.flatMap Event.payload) ∧
    (read d'.media.eeprom 0 old.length = old ∨ ¬ Boots d'.media.eeprom ↔
      Separated d'.media.eeprom old) ∧
    ∀ found, Summed (word d.media.eeprom) found →
      4 * (found.termination + 3) ≤ updateEepromSize →
      layout (word d'.media.eeprom) kMaximumSections 1 = some found →
      (Boots d'.media.eeprom ↔
        sumOver (word d'.media.eeprom) found.payload +
            word d.media.eeprom (found.termination + 2) =
          sumOver (word d.media.eeprom) found.payload +
            word d'.media.eeprom (found.termination + 2)) := by
  obtain ⟨target', begin', probe', carried', allowed, opened⟩ := serve_begun admitted
  obtain ⟨rfl, rfl, rfl⟩ : target' = updateTargetEeprom ∧ begin' = begin ∧ probe' = probe := by
    rw [carried] at carried'
    simpa [eq_comm] using carried'
  have size : updateImageMinimumLength ≤ begin'.length ∧ begin'.length ≤ updateEepromSize := by
    rcases (updateBeginIsAllowed_none (updateAgentBeginRefusal_none allowed).1).2.2 with
      ⟨epcs, _, _⟩ | ⟨_, low, high⟩
    · cases epcs
    · exact ⟨low, high⟩
  rw [opened] at run
  have transfer := transfer_run run (discipline d.media.eeprom size.1 size.2)
    (Nat.lt_of_le_of_lt size.2 (by decide))
    ⟨(rewritten_short (by simp)).symm, List.length_replicate, Or.inl rfl⟩ once
  have first : ∀ a, a < updateEepromPageSize → d'.media.eeprom a = d.media.eeprom a :=
    fun a inside => transfer.kept.first inside
  have boots : Boots d.media.eeprom := ⟨old.length, stored.1, by rw [stored.2]; exact valid⟩
  exact ⟨transfer.kept, old_or_rejected_iff first boots, fun found summed inside walked =>
    boots_same_sections first boots summed inside walked⟩

/-! ## Two images of forty words -/

def bytesOf (w : BitVec 32) : List Byte :=
  [w.extractLsb' 0 8, w.extractLsb' 8 8, w.extractLsb' 16 8, w.extractLsb' 24 8]

/-- One section with these words, as the image builder lays it out. -/
def imageOf (words : List (BitVec 32)) : List Byte :=
  [kSignatureFirst, kSignatureSecond, 0x1C, kImageTypeNormalFirmware] ++
    (BitVec.ofNat 32 words.length :: 0x40003000 :: words ++ [0, 0x40003000, words.sum]).flatMap
      bytesOf

/-- Words 16 and 17 of the image lie in its second page, words 32 and 33 in its third. -/
def fortyWords (a b c d : BitVec 32) : List (BitVec 32) :=
  List.replicate 13 0 ++ [a, b] ++ List.replicate 14 0 ++ [c, d] ++ List.replicate 9 0

def oldImage : List Byte := imageOf (fortyWords 1 2 3 4)

/-- Either pair the other way round. -/
def newImage : List Byte := imageOf (fortyWords 2 1 4 3)

def holdingOld : Device := powerOn true { blank with eeprom := fun a => oldImage.getD a 0xFF }

def newBegin : UpdateBegin := ⟨newImage.length, prefixDigest newImage, updateFlagsNone⟩

def newOpened : Device :=
  (serve prefixDigest reliable holdingOld (beginRequest updateTargetEeprom newBegin epcs64)).1

/-- The first two pages of the new image. -/
def firstChunk : List Action := [.request (.data 0 0 128 (some (newImage.take 128)))]

theorem parsed_of_isOk {image : List Byte} (ok : (parseBootImage image).isOk = true) :
    ∃ parsed, parseBootImage image = .ok parsed := by
  cases parsed : parseBootImage image with
  | ok value => exact ⟨value, rfl⟩
  | error problem => simp [parsed, Except.isOk, Except.toBool] at ok

def halfWritten : Device := ((machine prefixDigest reliable).trace newOpened firstChunk).2

def byHost : Action → Bool
  | .request _ => true
  | _ => false

theorem firstChunk_run : Trace prefixDigest reliable BeforeCommit newOpened
    [.chunkAccepted (newImage.take 128)] halfWritten := by
  have events : ((machine prefixDigest reliable).trace newOpened firstChunk).1 =
      [.chunkAccepted (newImage.take 128)] := by decide +kernel
  rw [← events]
  exact Run.of_trace (machine prefixDigest reliable) (fun _ => byHost) newOpened firstChunk
    (by decide +kernel) fun d a asked thread => by simp [thread, byHost] at asked

/-- The two pairs are the words that the sums differ in, and they do not differ. -/
theorem first_chunk_sums :
    Boots halfWritten.media.eeprom ↔
      sumOver (word halfWritten.media.eeprom) (List.range' 3 40) +
          word holdingOld.media.eeprom 45 =
        sumOver (word holdingOld.media.eeprom) (List.range' 3 40) +
          word halfWritten.media.eeprom 45 := by
  have admitted : updateAgentBeginRefusal holdingOld epcs64 updateTargetEeprom newBegin =
    .none := by decide +kernel
  have summed : Summed (word holdingOld.media.eeprom) ⟨List.range' 3 40, 43⟩ :=
    ⟨by decide +kernel, by decide +kernel⟩
  have begun : (serve prefixDigest reliable holdingOld
      (beginRequest updateTargetEeprom newBegin epcs64)).2 = .beginAdmitted := by decide +kernel
  have valid : ∃ parsed, parseBootImage oldImage = .ok parsed := parsed_of_isOk (by decide +kernel)
  have stored : oldImage.length ≤ updateEepromSize ∧
      read holdingOld.media.eeprom 0 oldImage.length = oldImage := by decide +kernel
  have once : Event.beginAdmitted ∉ [Event.chunkAccepted (newImage.take 128)] := by simp
  have walked : layout (word halfWritten.media.eeprom) kMaximumSections 1 =
      some ⟨List.range' 3 40, 43⟩ := by decide +kernel
  exact (interrupted_flash (carriedBegin_beginRequest admitted) begun valid stored firstChunk_run
    once).2.2 ⟨List.range' 3 40, 43⟩ summed (by decide) walked

/-- Two valid images, two pages written, and a program that is neither of them. -/
theorem mixture_boots :
    ¬ ∀ (old new : List Byte) (es : List Event) (d : Device),
      (∃ parsed, parseBootImage old = .ok parsed) → (∃ parsed, parseBootImage new = .ok parsed) →
      read holdingOld.media.eeprom 0 old.length = old →
      Trace prefixDigest reliable BeforeCommit newOpened es d → es.flatMap Event.payload <+: new →
      .beginAdmitted ∉ es → read d.media.eeprom 0 old.length = old ∨ ¬ Boots d.media.eeprom := by
  intro safe
  have mixed : ∃ parsed, parseBootImage (read halfWritten.media.eeprom 0 184) =
    .ok parsed := parsed_of_isOk (by decide +kernel)
  rcases safe oldImage newImage _ _ (parsed_of_isOk (by decide +kernel))
    (parsed_of_isOk (by decide +kernel)) (by decide +kernel) firstChunk_run (by decide +kernel)
    (by simp) with whole | rejected
  · revert whole
    decide +kernel
  · exact rejected ⟨184, by decide, mixed⟩

end InterruptedFlash
