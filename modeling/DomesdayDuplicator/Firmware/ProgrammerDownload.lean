import DomesdayDuplicator.Firmware.BootFormat
import DomesdayDuplicator.Foundations.Attempts
import DomesdayDuplicator.Foundations.FuelLoop

/-!
# The command-line programmer's download

`fx3/programmer/src/fx3-programmer.c`, `fx3_download_firmware`: the file is walked by the
signed lengths that its words spell, and each section is sent in transfers of 2 KiB at most.
What a step of the walk leaves undefined (a product or a pointer out of range) is an outcome
of its own.
-/

namespace ProgrammerDownload

open Attempts BootFormat FuelLoop UpdateProtocol

def fx3DlCmd : Byte := 0xA0
def maxWriteSize : Nat := 2048

/-- A vendor request to the boot ROM. -/
structure Transfer where
  request : Byte
  value : BitVec 16
  index : BitVec 16
  data : List Byte
  deriving DecidableEq

def getLsw (x : BitVec 32) : BitVec 16 := (x &&& 0xFFFF).setWidth 16
def getMsw (x : BitVec 32) : BitVec 16 := (x >>> 16).setWidth 16

/-- A device, with what a transfer to it comes back with after those before: the bytes it
took, or an error below zero. -/
structure Device where
  isBootloader : Bool
  answer : List Transfer → Transfer → Int
  bounded : ∀ issued t, answer issued t ≤ t.data.length

inductive Outcome where
  | returned (code : Int)
  | undefined
  deriving DecidableEq

/-- What the outer loop finds at a place of the file. -/
inductive Record where
  | stop
  | entry (address : BitVec 32)
  | payload (address : BitVec 32) (data : List Byte) (next : Nat)
  | undefined
  deriving DecidableEq

def readRecord (buf : List Byte) (pdata : Nat) : Record :=
  let remaining := buf.length - pdata
  if remaining < 4 then .stop
  else
    let len := (read32 buf pdata).toInt
    let remaining := remaining - 4
    if len = 0 then
      if remaining ≥ 4 then .entry (read32 buf (pdata + 4)) else .stop
    else if remaining < 4 then .stop
    else
      let address := read32 buf (pdata + 4)
      let remaining := remaining - 4
      if len * 4 < -2 ^ 31 ∨ 2 ^ 31 ≤ len * 4 then .undefined
      else if (remaining : Int) < len * 4 then .stop
      -- a negative length takes the pointer back
      else if (pdata : Int) + 8 + len * 4 < 0 then .undefined
      else .payload address ((buf.drop (pdata + 8)).take (len * 4).toNat)
        ((pdata : Int) + 8 + len * 4).toNat

/-- The two loops: between sections, or inside of one with the place behind it. -/
inductive Upload where
  | sections (pdata : Nat) (issued : List Transfer)
  | sending (pdata : Nat) (address : BitVec 32) (data : List Byte) (offset : Nat)
      (issued : List Transfer)

def dlCmd (address : BitVec 32) (data : List Byte) : Transfer :=
  ⟨fx3DlCmd, getLsw address, getMsw address, data⟩

/-- The next chunk of a section. -/
def chunk (address : BitVec 32) (data : List Byte) (offset : Nat) : Transfer :=
  let chunkSize := if data.length - offset > maxWriteSize then maxWriteSize
    else data.length - offset
  dlCmd (address + BitVec.ofNat 32 offset) ((data.drop offset).take chunkSize)

def turn (device : Device) (buf : List Byte) : Upload → Turn Upload (Outcome × List Transfer)
  | .sections pdata issued =>
    match readRecord buf pdata with
    | .stop => .done (.returned 0, issued)
    -- what comes of the jump is only printed
    | .entry address => .done (.returned 0, issued ++ [dlCmd address []])
    | .payload address data next => .again (.sending next address data 0 issued)
    | .undefined => .done (.undefined, issued)
  | .sending pdata address data offset issued =>
    if offset < data.length then
      let t := chunk address data offset
      let ret := device.answer issued t
      if ret < 0 then .done (.returned (-1), issued ++ [t])
      else .again (.sending pdata address data (offset + ret.toNat) (issued ++ [t]))
    else .again (.sections pdata issued)

/-- The file in memory: its size as an `int`, and no more than one `read` delivers. -/
def loadFirmware (readLimit : Nat) (file : List Byte) : Option (List Byte) :=
  let size := (BitVec.ofNat 32 file.length).toInt
  -- no block of that many bytes to allocate
  if size < 0 then none
  else
    let firmwareBuf := file.take (min size.toNat readLimit)
    if (firmwareBuf.length : Int) ≠ size then none else some firmwareBuf

/-- `fx3_download_firmware` of an open file, with the transfers it issued. -/
def fx3DownloadFirmware (readLimit : Nat) (device : Device) (file : List Byte) (fuel : Nat) :
    Option (Outcome × List Transfer) :=
  if device.isBootloader = false then some (.returned (-1), [])
  else
    match loadFirmware readLimit file with
    | none => some (.returned (-1), [])
    | some buf =>
      if buf.length < 4 ∨ buf.getD 0 0 ≠ 0x43 ∨ buf.getD 1 0 ≠ 0x59 then
        some (.returned (-1), [])
      else if buf.getD 2 0 &&& 0x01 ≠ 0 then some (.returned (-1), [])
      else if buf.getD 3 0 ≠ 0xB0 then some (.returned (-1), [])
      else run (turn device buf) fuel (.sections 4 [])

/-! ## Transfers one after the other -/

def tryTransfer (device : Device) (issued : List Transfer) (t : Transfer) : Bool × Transfer :=
  (decide (0 ≤ device.answer issued t), t)

/-- Until one is refused. -/
abbrev issue (device : Device) (issued transfers : List Transfer) : Bool × List Transfer :=
  perform (tryTransfer device) issued transfers

/-- A device that takes a transfer whole or refuses it. -/
def Device.Whole (device : Device) : Prop :=
  ∀ issued t, device.answer issued t = t.data.length ∨ device.answer issued t < 0

/-- A device in bootloader mode that takes everything. -/
def accepting : Device := ⟨true, fun _ t => t.data.length, fun _ _ => le_rfl⟩

theorem accepting_whole : accepting.Whole := fun _ _ => Or.inl rfl

theorem issue_accepting (issued transfers : List Transfer) :
    issue accepting issued transfers = (true, issued ++ transfers) := by
  have taken : ∀ log, ∀ t ∈ transfers, tryTransfer accepting log t = (true, id t) := by
    intro log t _
    have large : 0 ≤ accepting.answer log t := Int.natCast_nonneg _
    rw [tryTransfer, decide_eq_true large]
    rfl
  rw [issue, perform_total taken, List.map_id]

/-- The transfers of a section from an offset on. -/
def chunks (address : BitVec 32) (data : List Byte) : Nat → Nat → List Transfer
  | 0, _ => []
  | turns + 1, offset =>
    if offset < data.length then
      chunk address data offset ::
        chunks address data turns (offset + (chunk address data offset).data.length)
    else []

def sectionTransfers (address : BitVec 32) (data : List Byte) : List Transfer :=
  chunks address data data.length 0

section Sending

variable {device : Device} {buf : List Byte} {next : Nat} {address : BitVec 32}
  {data : List Byte} {turns offset : Nat} {issued : List Transfer}
  {result : Outcome × List Transfer}

theorem length_chunk : (chunk address data offset).data.length =
    min maxWriteSize (data.length - offset) := by
  have size : (chunk address data offset).data = (data.drop offset).take
      (if data.length - offset > maxWriteSize then maxWriteSize else data.length - offset) := rfl
  rw [size, List.length_take, List.length_drop]
  split <;> omega

theorem chunks_some : ∀ t ∈ chunks address data turns offset, t.data ≠ [] := by
  induction turns generalizing offset with
  | zero => exact nofun
  | succ turns ih =>
    rw [chunks]
    split
    · rename_i more
      rintro t member empty
      rcases List.mem_cons.mp member with rfl | later
      · have size := @length_chunk address data offset
        rw [empty, List.length_nil, maxWriteSize] at size
        omega
      · exact ih t later empty
    · exact nofun

/-- The inner loop issues the chunks of the section. -/
theorem sending_returns (whole : device.Whole) (left : data.length - offset ≤ turns) :
    Returns (turn device buf) (.sending next address data offset issued) result ↔
      if (issue device issued (chunks address data turns offset)).1 then
        Returns (turn device buf)
          (.sections next (issue device issued (chunks address data turns offset)).2) result
      else result = (.returned (-1),
        (issue device issued (chunks address data turns offset)).2) := by
  induction turns generalizing offset issued with
  | zero =>
    have sent : ¬ offset < data.length := by omega
    have step : turn device buf (.sending next address data offset issued) =
        .again (.sections next issued) := by
      simp only [turn, if_neg sent]
    exact returns_again step
  | succ turns ih =>
    by_cases more : offset < data.length
    · rw [chunks, if_pos more]
      have size := @length_chunk address data offset
      by_cases refused : device.answer issued (chunk address data offset) < 0
      · have step : turn device buf (.sending next address data offset issued) =
            .done (.returned (-1), issued ++ [chunk address data offset]) := by
          simp only [turn, if_pos more, if_pos refused]
        have failed : ¬ (tryTransfer device issued (chunk address data offset)).1 = true := by
          rw [tryTransfer, decide_eq_true_eq]
          omega
        rw [issue, perform_cons_failed failed]
        exact returns_done step
      · have taken := (whole issued (chunk address data offset)).resolve_right refused
        have step : turn device buf (.sending next address data offset issued) =
            .again (.sending next address data
              (offset + (chunk address data offset).data.length)
              (issued ++ [chunk address data offset])) := by
          simp only [turn, if_pos more, if_neg refused]
          rw [taken, Int.toNat_natCast]
        have ok : (tryTransfer device issued (chunk address data offset)).1 = true := by
          rw [tryTransfer, decide_eq_true_eq]
          omega
        rw [returns_again step, issue, perform_cons_ok ok]
        refine ih ?_
        rw [size, maxWriteSize]
        omega
    · have step : turn device buf (.sending next address data offset issued) =
          .again (.sections next issued) := by
        simp only [turn, if_neg more]
      rw [chunks, if_neg more]
      exact returns_again step

end Sending

/-! ## The chain of sections -/

/-- From this place on there are the sections of these transfers, and then an entry point. -/
inductive Spells (buf : List Byte) : Nat → List Transfer → BitVec 32 → Prop
  | entry {pdata : Nat} {address : BitVec 32} (ends : readRecord buf pdata = .entry address) :
      Spells buf pdata [] address
  | payload {pdata next : Nat} {address start : BitVec 32} {data : List Byte}
      {rest : List Transfer} (found : readRecord buf pdata = .payload address data next)
      (more : Spells buf next rest start) :
      Spells buf pdata (sectionTransfers address data ++ rest) start

/-- Where so many sections lead. -/
def follow (buf : List Byte) : Nat → Nat → Option Nat
  | 0, pdata => some pdata
  | n + 1, pdata =>
    match readRecord buf pdata with
    | .payload _ _ next => follow buf n next
    | _ => none

/-- Where the next section is read. -/
def Upload.place : Upload → Nat
  | .sections pdata _ => pdata
  | .sending pdata _ _ _ _ => pdata

/-- Section after section, and no end of it. -/
def Endless (buf : List Byte) (pdata : Nat) : Prop := ∀ n, follow buf n pdata ≠ none

/-- What a download that goes on to the jump comes to. -/
def finish (entry : BitVec 32) (sent : Bool × List Transfer) : Outcome × List Transfer :=
  if sent.1 then (.returned 0, sent.2 ++ [dlCmd entry []]) else (.returned (-1), sent.2)

section Chain

variable {device : Device} {buf : List Byte} {pdata next : Nat} {address entry : BitVec 32}
  {data : List Byte} {issued transfers : List Transfer} {result : Outcome × List Transfer}

theorem payload_returns (whole : device.Whole)
    (found : readRecord buf pdata = .payload address data next) :
    Returns (turn device buf) (.sections pdata issued) result ↔
      if (issue device issued (sectionTransfers address data)).1 then
        Returns (turn device buf)
          (.sections next (issue device issued (sectionTransfers address data)).2) result
      else result = (.returned (-1),
        (issue device issued (sectionTransfers address data)).2) := by
  have step : turn device buf (.sections pdata issued) =
      .again (.sending next address data 0 issued) := by
    simp only [turn, found]
  rw [returns_again step]
  exact sending_returns whole (Nat.sub_le _ _)

/-- A chain that ends in an entry point is sent as it is spelled. -/
theorem spells_returns (whole : device.Whole) (spells : Spells buf pdata transfers entry) :
    Returns (turn device buf) (.sections pdata issued) result ↔
      result = finish entry (issue device issued transfers) := by
  induction spells generalizing issued with
  | entry ends =>
    refine returns_done ?_
    simp only [turn, ends]
    rfl
  | payload found more ih =>
    rw [payload_returns whole found, issue, issue, perform_append]
    split
    · exact ih
    · rename_i refused
      rw [finish, if_neg refused]

theorem Endless.record (endless : Endless buf pdata) : ∃ address data next,
    readRecord buf pdata = .payload address data next ∧ Endless buf next := by
  have first := endless 1
  cases found : readRecord buf pdata with
  | payload address data next =>
    refine ⟨address, data, next, rfl, fun n => ?_⟩
    have more := endless (n + 1)
    rwa [follow, found] at more
  | _ => simp [follow, found] at first

/-- An endless chain is left by a refused transfer only. -/
theorem endless_returns (endless : Endless buf pdata)
    (returned : Returns (turn device buf) (.sections pdata issued) result) :
    result.1 = .returned (-1) := by
  obtain ⟨fuel, ran⟩ := returned
  obtain ⟨last, visited, leaves⟩ := visits_of_run ran
  have inside : Endless buf last.place := by
    refine @Visits.invariant _ _ _ (fun s => Endless buf s.place) _ _ visited endless ?_
    intro s t inside step
    cases s with
    | sections place log =>
      have here : Endless buf place := inside
      obtain ⟨address, data, next, found, more⟩ := here.record
      simp only [turn, found, Turn.again.injEq] at step
      subst step
      exact more
    | sending place address data offset log =>
      simp only [turn] at step
      split_ifs at step
      · cases step
        exact inside
      · cases step
        exact inside
  cases last with
  | sections place log =>
    have here : Endless buf place := inside
    obtain ⟨address, data, next, found, -⟩ := here.record
    simp only [turn, found] at leaves
    cases leaves
  | sending place address data offset log =>
    simp only [turn] at leaves
    split_ifs at leaves
    cases leaves
    rfl

/-- How the download of a chain that ends comes out on a device that takes everything. -/
theorem chain_ends {n : Nat} (ends : follow buf n pdata = none) (issued : List Transfer) :
    ∃ outcome log, Returns (turn accepting buf) (.sections pdata issued) (outcome, issued ++ log) ∧
      (outcome = .undefined ∨ outcome = .returned 0 ∧
        ((∃ transfers entry, Spells buf pdata transfers entry ∧
          log = transfers ++ [dlCmd entry []]) ∨ ∀ t ∈ log, t.data ≠ [])) := by
  induction n generalizing pdata issued with
  | zero => cases ends
  | succ n ih =>
    cases found : readRecord buf pdata with
    | stop =>
      refine ⟨.returned 0, [], (returns_done ?_).mpr rfl, Or.inr ⟨rfl, Or.inr nofun⟩⟩
      simp only [turn, found, List.append_nil]
    | entry address =>
      refine ⟨.returned 0, [dlCmd address []], (returns_done ?_).mpr rfl,
        Or.inr ⟨rfl, Or.inl ⟨[], address, .entry found, rfl⟩⟩⟩
      simp only [turn, found]
    | undefined =>
      refine ⟨.undefined, [], (returns_done ?_).mpr rfl, Or.inl rfl⟩
      simp only [turn, found, List.append_nil]
    | payload address data next =>
      rw [follow, found] at ends
      obtain ⟨outcome, log, returned, verdict⟩ :=
        ih ends (issued ++ sectionTransfers address data)
      refine ⟨outcome, sectionTransfers address data ++ log, ?_, ?_⟩
      · rw [payload_returns accepting_whole found, issue_accepting]
        simpa only [if_true, List.append_assoc] using returned
      · rcases verdict with undef | ⟨zero, ⟨transfers, entry, spells, rfl⟩ | blocks⟩
        · exact Or.inl undef
        · exact Or.inr ⟨zero, Or.inl ⟨_, entry, .payload found spells,
            (List.append_assoc _ _ _).symm⟩⟩
        · refine Or.inr ⟨zero, Or.inr fun t member => ?_⟩
          rcases List.mem_append.mp member with here | later
          · exact chunks_some t here
          · exact blocks t later

end Chain

end ProgrammerDownload
