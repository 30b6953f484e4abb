import DomesdayDuplicator.Capture.DeviceTelemetry
import DomesdayDuplicator.Firmware.RegisterRequests
import DomesdayDuplicator.Gateware.BufferMonitor
import Mathlib.Tactic.IntervalCases

/-!
# Telemetry from the gateware to the host

The buffer monitor is latched by the register port beside it, on the clock on which the port has
a read of the instrument's first register. The read goes on for many clocks after that, all of
them answered from the one sample, which the host's parser finds in what came.
-/

namespace TelemetryReading

open BufferMonitor SpiRegisters FpgaRegisters RegisterRequests DeviceTelemetry
open RegisterBank (addressOf pointer)

/-! ## The block of registers -/

section

variable {g : Geometry}

/-- `bufferMonitor.v`'s `geometry`. -/
def geometry (g : Geometry) : BitVec 48 :=
  BitVec.ofNat 16 g.nearFullWords ++ BitVec.ofNat 16 g.packetWords ++ BitVec.ofNat 16 g.fifoDepth

/-- The `k`-th register after `TELEM_ID`. -/
def telemetryByte (s : Shadow g) (k : Nat) : DeviceTelemetry.Byte :=
  if k ≤ 16 then lane (telemetry s) (k - 1) else lane (geometry g) (k - 17)

def block (s : Shadow g) : List DeviceTelemetry.Byte :=
  telemetryIdValue :: (List.range' 1 22).map (telemetryByte s)

/-- What the host is to make of a sample. -/
def told (s : Shadow g) : FpgaTelemetry where
  present := true
  format := kTelemetryFormat
  overflowSinceOpen := s.status.getLsbD 4
  saturated := s.status.getLsbD 5
  latchCount := s.latchCount
  usedNow := s.usedNow.toNat
  peak := s.peakInterval.toNat
  peakSinceOpen := s.peakLifetime.toNat
  overflowEvents := s.overflowEvents.toNat
  droppedWords := s.droppedWords.toNat
  packetsRead := s.packetsRead.toNat
  nearFullUnits := s.nearFullUnits.toNat
  depthWords := g.fifoDepth
  packetWords := g.packetWords
  nearFullWords := g.nearFullWords

/-- The geometry is one that two bytes a number can show. -/
structure Presentable (g : Geometry) : Prop where
  packet : g.packetWords < g.fifoDepth
  depth : g.fifoDepth < 2 ^ 16
  nearFull : g.nearFullWords < 2 ^ 16

theorem Presentable.usedBits (h : Presentable g) : g.usedBits ≤ 16 :=
  Nat.clog_le_of_le_pow h.depth

theorem lanes_toNat {n : Nat} (word : BitVec n) (k : Nat) :
    (lane word k).toNat + (lane word (k + 1)).toNat * 2 ^ 8 =
      (word.extractLsb' (8 * k) 16).toNat := by
  simp only [lane, BitVec.extractLsb'_toNat, Nat.shiftRight_eq_div_pow]
  rw [show 8 * (k + 1) = 8 * k + 8 from rfl, Nat.pow_add, ← Nat.div_div_eq_div_mul]
  omega

/-- The width as the sum that the fields make. -/
theorem telemetry_extract (s : Shadow g) (start length : Nat) :
    (telemetry s).extractLsb' start length =
      (s.nearFullUnits ++ s.packetsRead ++ s.droppedWords ++ s.overflowEvents ++
        s.peakLifetime.setWidth 16 ++ s.peakInterval.setWidth 16 ++ s.usedNow.setWidth 16 ++
        s.latchCount ++ s.status).extractLsb' start length := rfl

theorem telemetry_status (s : Shadow g) : lane (telemetry s) 0 = s.status := by
  rw [lane, telemetry_extract]
  simp (disch := omega) only [BitVec.extractLsb'_append_eq_of_add_le]
  exact BitVec.extractLsb'_eq_self

theorem telemetry_latchCount (s : Shadow g) : lane (telemetry s) 1 = s.latchCount := by
  rw [lane, telemetry_extract]
  simp (disch := omega) only [BitVec.extractLsb'_append_eq_of_add_le,
    BitVec.extractLsb'_append_eq_of_le]
  exact BitVec.extractLsb'_eq_self

theorem telemetry_words (s : Shadow g) :
    (telemetry s).extractLsb' 16 16 = s.usedNow.setWidth 16 ∧
    (telemetry s).extractLsb' 32 16 = s.peakInterval.setWidth 16 ∧
    (telemetry s).extractLsb' 48 16 = s.peakLifetime.setWidth 16 ∧
    (telemetry s).extractLsb' 64 16 = s.overflowEvents ∧
    (telemetry s).extractLsb' 80 16 = s.droppedWords ∧
    (telemetry s).extractLsb' 96 16 = s.packetsRead ∧
    (telemetry s).extractLsb' 112 16 = s.nearFullUnits := by
  simp (disch := omega) only [telemetry_extract, BitVec.extractLsb'_append_eq_of_add_le,
    BitVec.extractLsb'_append_eq_of_le]
  refine ⟨?_, ?_, ?_, ?_, ?_, ?_, ?_⟩ <;> exact BitVec.extractLsb'_eq_self

theorem geometry_extract (start length : Nat) :
    (geometry g).extractLsb' start length =
      (BitVec.ofNat 16 g.nearFullWords ++ BitVec.ofNat 16 g.packetWords ++
        BitVec.ofNat 16 g.fifoDepth).extractLsb' start length := rfl

theorem geometry_words :
    (geometry g).extractLsb' 0 16 = BitVec.ofNat 16 g.fifoDepth ∧
    (geometry g).extractLsb' 16 16 = BitVec.ofNat 16 g.packetWords ∧
    (geometry g).extractLsb' 32 16 = BitVec.ofNat 16 g.nearFullWords := by
  simp (disch := omega) only [geometry_extract, BitVec.extractLsb'_append_eq_of_add_le,
    BitVec.extractLsb'_append_eq_of_le]
  refine ⟨?_, ?_, ?_⟩ <;> exact BitVec.extractLsb'_eq_self

variable (s : Shadow g) (more : List DeviceTelemetry.Byte)

theorem readWord_telemetry {j : Nat} (inside : j < 8) :
    readWord (block s ++ more) (2 * j + 1) =
      ((telemetry s).extractLsb' (8 * (2 * j)) 16).toNat := by
  rw [← lanes_toNat]
  interval_cases j <;> rfl

theorem readWord_geometry {j : Nat} (inside : j < 3) :
    readWord (block s ++ more) (2 * j + 17) =
      ((geometry g).extractLsb' (8 * (2 * j)) 16).toNat := by
  rw [← lanes_toNat]
  interval_cases j <;> rfl

variable {s}

/-- Whatever comes after it, the host finds the sample in the block. -/
theorem parse_block (fits : Presentable g)
    (format : s.status &&& kTelemetryFormatMask = kTelemetryFormat) :
    parseFpgaTelemetry (block s ++ more) = told s := by
  obtain ⟨used, peak, lifetime, overflows, dropped, packets, nearFull⟩ := telemetry_words s
  obtain ⟨depth, packet, threshold⟩ := geometry_words (g := g)
  have status : (block s ++ more).getD kTelemetryOffsetStatus 0 = s.status := telemetry_status s
  have latchCount : (block s ++ more).getD kTelemetryOffsetLatchCount 0 = s.latchCount :=
    telemetry_latchCount s
  have identity : (block s ++ more).getD 0 0 = kTelemetryIdValue := rfl
  have long : ¬ (block s ++ more).length < kTelemetryBlockLength := by
    rw [List.length_append]
    exact Nat.not_lt.mpr (Nat.le_add_right 23 _)
  have flags : ∀ b : DeviceTelemetry.Byte,
      decide (b &&& kTelemetryFlagOverflowSeen ≠ 0) = b.getLsbD 4 ∧
      decide (b &&& kTelemetryFlagSaturated ≠ 0) = b.getLsbD 5 := by decide +kernel
  have width := fits.usedBits
  have depth : readWord (block s ++ more) kTelemetryOffsetDepth = g.fifoDepth :=
    (readWord_geometry s more (j := 0) (by decide)).trans (by
      rw [depth]
      exact Nat.mod_eq_of_lt fits.depth)
  have packet : readWord (block s ++ more) kTelemetryOffsetPacketWords = g.packetWords :=
    (readWord_geometry s more (j := 1) (by decide)).trans (by
      rw [packet]
      exact Nat.mod_eq_of_lt (fits.packet.trans fits.depth))
  have threshold : readWord (block s ++ more) kTelemetryOffsetNearFullWords = g.nearFullWords :=
    (readWord_geometry s more (j := 2) (by decide)).trans (by
      rw [threshold]
      exact Nat.mod_eq_of_lt fits.nearFull)
  have used : readWord (block s ++ more) kTelemetryOffsetUsedNow = s.usedNow.toNat :=
    (readWord_telemetry s more (j := 1) (by decide)).trans (by
      rw [used, BitVec.toNat_setWidth_of_le width])
  have peak : readWord (block s ++ more) kTelemetryOffsetPeak = s.peakInterval.toNat :=
    (readWord_telemetry s more (j := 2) (by decide)).trans (by
      rw [peak, BitVec.toNat_setWidth_of_le width])
  have lifetime : readWord (block s ++ more) kTelemetryOffsetPeakLifetime =
      s.peakLifetime.toNat :=
    (readWord_telemetry s more (j := 3) (by decide)).trans (by
      rw [lifetime, BitVec.toNat_setWidth_of_le width])
  have overflows : readWord (block s ++ more) kTelemetryOffsetOverflows =
      s.overflowEvents.toNat :=
    (readWord_telemetry s more (j := 4) (by decide)).trans (congrArg _ overflows)
  have dropped : readWord (block s ++ more) kTelemetryOffsetDropped = s.droppedWords.toNat :=
    (readWord_telemetry s more (j := 5) (by decide)).trans (congrArg _ dropped)
  have packets : readWord (block s ++ more) kTelemetryOffsetPackets = s.packetsRead.toNat :=
    (readWord_telemetry s more (j := 6) (by decide)).trans (congrArg _ packets)
  have nearFull : readWord (block s ++ more) kTelemetryOffsetNearFull = s.nearFullUnits.toNat :=
    (readWord_telemetry s more (j := 7) (by decide)).trans (congrArg _ nearFull)
  have apart : ¬(g.packetWords = 0 ∨ g.fifoDepth ≤ g.packetWords) := by
    have := g.packet
    have := fits.packet
    omega
  rw [parseFpgaTelemetry]
  simp only [status, latchCount, identity, depth, packet, threshold, used, peak, lifetime,
    overflows, dropped, packets, nearFull, format, (flags s.status).1, (flags s.status).2]
  rw [if_neg long, if_neg (not_not.mpr rfl), if_neg (not_not.mpr rfl), if_neg apart]
  rfl

end

/-! ## The monitor beside the port -/

section

variable {g : Geometry} (traffic : Nat → Inputs g)

/-- What the monitor is given at a clock: the latch is the port's. -/
def inputsAt (latches : List Nat) (time : Nat) : Inputs g :=
  { traffic time with latch := latches.contains time }

/-- The monitor and what it has sampled, so many clocks after the reset. -/
def monitor (latches : List Nat) (time : Nat) : Observed g :=
  observe ((List.range time).map fun t => ⟨true, inputsAt traffic latches t⟩)

/-- The sample that a latch at this time takes. -/
def sample (latches : List Nat) (stamp : Nat) : Shadow g :=
  shadowed { traffic stamp with latch := true } (monitor traffic latches stamp).registers

def beside (w : Around) : Around := fun time window latches =>
  { w time window latches with
    telemetry := telemetry (monitor traffic latches time).registers.shadow
    telemetryGeometry := geometry g }

variable {traffic} {l l' : List Nat} {since stamp time : Nat}

theorem monitor_succ : monitor traffic l (time + 1) =
    (monitor traffic l time).next ⟨true, inputsAt traffic l time⟩ := by
  rw [monitor, List.range_succ, List.map_append, observe, List.foldl_append]
  rfl

theorem monitor_congr (same : ∀ t < time, l.contains t = l'.contains t) :
    monitor traffic l time = monitor traffic l' time := by
  refine congrArg observe (List.map_congr_left fun t before => ?_)
  rw [inputsAt, inputsAt, same t (List.mem_range.mp before)]

/-- Without a latch the sample stays what it was. -/
theorem monitor_between (passed : ∀ t ∈ l, t < since) (le : since ≤ time) :
    (monitor traffic l time).readings = (monitor traffic l since).readings ∧
      (monitor traffic l time).registers.shadow = (monitor traffic l since).registers.shadow := by
  induction time, le using Nat.le_induction with
  | base => exact ⟨rfl, rfl⟩
  | succ time le ih =>
    have quiet : (inputsAt traffic l time).latch = false := by
      rw [inputsAt, List.contains_eq_mem, decide_eq_false_iff_not]
      intro member
      exact absurd (passed time member) (Nat.not_lt.mpr le)
    rw [monitor_succ]
    simp only [Observed.next, if_true, quiet, Bool.false_eq_true, if_false]
    refine ⟨ih.1, ?_⟩
    simp only [BufferMonitor.clock, shadowed, quiet, Bool.false_eq_true, if_false]
    exact ih.2

theorem monitor_latched (passed : ∀ t ∈ l, t < since) (le : since ≤ stamp)
    (later : stamp < time) :
    (monitor traffic (l ++ [stamp]) time).readings =
        (monitor traffic l since).readings ++ [sample traffic l stamp] ∧
      (monitor traffic (l ++ [stamp]) time).registers.shadow = sample traffic l stamp := by
  have before : monitor traffic (l ++ [stamp]) stamp = monitor traffic l stamp := by
    refine monitor_congr fun t early => ?_
    simp only [List.contains_eq_mem, List.mem_append, List.mem_singleton, Nat.ne_of_lt early,
      or_false]
  have now : inputsAt traffic (l ++ [stamp]) stamp = { traffic stamp with latch := true } := by
    simp [inputsAt]
  have through : ∀ t ∈ l ++ [stamp], t < stamp + 1 := by
    intro t member
    rcases List.mem_append.mp member with old | new
    · exact Nat.lt_succ_of_lt (Nat.lt_of_lt_of_le (passed t old) le)
    · exact List.mem_singleton.mp new ▸ Nat.lt_succ_self _
  obtain ⟨readings, shadow⟩ : (monitor traffic (l ++ [stamp]) time).readings = _ ∧
      (monitor traffic (l ++ [stamp]) time).registers.shadow = _ := monitor_between through later
  rw [readings, shadow, monitor_succ, before, now]
  simp only [Observed.next, if_true, BufferMonitor.clock]
  exact ⟨congrArg (· ++ [_]) (monitor_between passed le).1, rfl⟩

theorem sample_format :
    (sample traffic l stamp).status &&& kTelemetryFormatMask = kTelemetryFormat := by
  simp only [sample, shadowed, if_true]
  cases (monitor traffic l stamp).registers.saturated <;>
    cases (monitor traffic l stamp).registers.overflowSticky <;> rfl

end

/-! ## One read -/

section

variable {g : Geometry} {traffic : Nat → Inputs g} {p : Parameters} {w : Around} {q : Pace}
  {b c : Board} {bank : Bank}

theorem readRegister_telemetry (present : p.telemetryPresent = true) (around : Surroundings)
    {k : Nat} (one : 1 ≤ k) (small : k < 23) :
    readRegister p around bank (pointer (addressOf 0x40) k) =
      if k ≤ 16 then lane around.telemetry (k - 1)
      else lane around.telemetryGeometry (k - 17) := by
  have place : ∀ k < 23, pointer (addressOf 0x40) k = BitVec.ofNat 7 (0x40 + k) := by decide
  rw [place k small]
  interval_cases k <;> simp [readRegister, present]

theorem reads_end {around : Nat → Surroundings} {start : Address} {k time latest : Nat}
    {received : List DeviceTelemetry.Byte}
    (reads : Reads p around bank start k time received latest) : time < latest := by
  induction received generalizing k time with
  | nil => exact reads
  | cons byte rest ih =>
    obtain ⟨-, next, after, reads⟩ := reads
    have := ih reads
    omega

/-- While the sample stays, the bytes that are read are those of its block. -/
theorem reads_block {around : Nat → Surroundings} {s : Shadow g} {since time latest k : Nat}
    {received : List DeviceTelemetry.Byte} (present : p.telemetryPresent = true)
    (stays : ∀ t, since ≤ t → (around t).telemetry = telemetry s ∧
      (around t).telemetryGeometry = geometry g)
    (one : 1 ≤ k) (late : since ≤ time)
    (reads : Reads p around bank (addressOf 0x40) k time received latest) :
    received.take (23 - k) =
      ((List.range' k (23 - k)).map (telemetryByte s)).take received.length := by
  induction received generalizing k time with
  | nil => simp
  | cons byte rest ih =>
    obtain ⟨is, next, after, reads⟩ := reads
    rcases Nat.lt_or_ge k 23 with inside | past
    · obtain ⟨now, sizes⟩ := stays time late
      rw [readRegister_telemetry present _ one inside, now, sizes] at is
      have others := ih (Nat.le_succ_of_le one) (by omega) reads
      rw [show 23 - k = 23 - (k + 1) + 1 by omega, List.take_succ_cons, List.range'_succ,
        List.map_cons, List.length_cons, List.take_succ_cons, others, is]
      rfl
    · rw [Nat.sub_eq_zero_of_le past]
      rfl

/-- What the link has counted so far lies behind it. -/
def Dated (b : Board) : Prop := ∀ t ∈ b.latches, t ≤ b.time

/-- The monitor after the clock that the port is in, whose latch is known. -/
def standing (traffic : Nat → Inputs g) (b : Board) : Observed g :=
  monitor traffic b.latches (b.time + 1)

/-- A reply holds as much of the sample's block as was asked for. -/
structure Shows (received : List DeviceTelemetry.Byte) (s : Shadow g) : Prop where
  bytes : received.take 23 = (block s).take received.length
  format : s.status &&& kTelemetryFormatMask = kTelemetryFormat

theorem Shows.parse {received : List DeviceTelemetry.Byte} {s : Shadow g}
    (h : Shows received s) (fits : Presentable g) (whole : 23 ≤ received.length) :
    parseFpgaTelemetry received = told s := by
  have all : received.take 23 = block s := h.bytes.trans (List.take_of_length_le whole)
  rw [← List.take_append_drop 23 received, all]
  exact parse_block _ fits h.format

theorem read_shows {length : DeviceTelemetry.Byte} {received : List DeviceTelemetry.Byte}
    (present : p.telemetryPresent = true) (dated : Dated b)
    (answered : Answered p (beside traffic w) 0x40 length b received c) :
    Dated c ∧ ∃ s, (standing traffic c).readings = (standing traffic b).readings ++ [s] ∧
      Shows received s := by
  obtain ⟨time, rest, next, after, late, is, reads, latches⟩ := answered.reads
  rw [if_pos ⟨present, rfl⟩] at latches
  have passed : ∀ t ∈ b.latches, t < b.time + 1 := fun t member =>
    Nat.lt_succ_of_le (dated t member)
  have ends := reads_end reads
  refine ⟨?_, sample traffic b.latches (time + 1), ?_, ?_, sample_format⟩
  · intro t member
    rw [latches] at member
    rcases List.mem_append.mp member with old | new
    · exact (dated t old).trans answered.later
    · rw [List.mem_singleton.mp new]
      omega
  · rw [standing, latches]
    exact (monitor_latched passed (by omega) (by omega)).1
  · have stays : ∀ t, next ≤ t →
        (meanwhile (beside traffic w) c t).telemetry =
            telemetry (sample traffic b.latches (time + 1)) ∧
          (meanwhile (beside traffic w) c t).telemetryGeometry = geometry g := by
      intro t since
      refine ⟨?_, rfl⟩
      change telemetry (monitor traffic c.latches t).registers.shadow = _
      rw [latches, (monitor_latched passed (by omega) (by omega)).2]
    have others := reads_block present stays (Nat.le_refl 1) (Nat.le_refl next) reads
    have first : readRegister p (meanwhile (beside traffic w) b time) b.port.transfer.bank
        (addressOf 0x40) = telemetryIdValue := by
      simp [readRegister, addressOf, present]
    rw [is, first, List.take_succ_cons, List.length_cons, block, List.take_succ_cons]
    exact congrArg _ others

end

/-! ## A run of requests -/

section

variable {g : Geometry} {traffic : Nat → Inputs g} {p : Parameters} {w : Around} {q : Pace}
  {b c : Board} {request : Request} {reply : Reply} {requests : List Request}
  {replies : List Reply}

/-- What came of a request, if it was one that samples the instrument. -/
def sampled (p : Parameters) (request : Request) : Reply → List (List DeviceTelemetry.Byte)
  | .bytes (some received) => if samples p request = 0 then [] else [received]
  | _ => []

def sampledReplies (p : Parameters) (requests : List Request) (replies : List Reply) :
    List (List DeviceTelemetry.Byte) :=
  (List.zipWith (sampled p) requests replies).flatten

theorem stamped_le {α : Type} {log : List (Nat × α)} {earliest latest : Nat}
    (h : Stamped earliest log latest) : earliest ≤ latest := by
  induction log generalizing earliest with
  | nil => exact h
  | cons entry rest ih =>
    have := ih h.2
    have := h.1
    omega

theorem performed_shows (dated : Dated b)
    (h : Performed p (beside traffic w) request b reply c) :
    Dated c ∧ ∃ taken, (standing traffic c).readings = (standing traffic b).readings ++ taken ∧
      List.Forall₂ Shows (sampled p request reply) taken := by
  by_cases none : samples p request = 0
  · obtain ⟨times, latches, count⟩ := h.latches
    rw [none] at count
    obtain rfl := List.eq_nil_of_length_eq_zero count
    rw [List.append_nil] at latches
    obtain ⟨log, -, -, stamps⟩ := h.window.log
    have later := stamped_le stamps
    refine ⟨fun t member => (dated t (latches ▸ member)).trans later, [], ?_, ?_⟩
    · rw [standing, latches, List.append_nil]
      exact (monitor_between (fun t member => Nat.lt_succ_of_le (dated t member))
        (by omega)).1
    · rcases reply with (_ | received) | ok
      · exact .nil
      · rw [sampled, if_pos none]
        exact .nil
      · exact .nil
  · cases request with
    | read address length =>
      obtain ⟨present, rfl, some⟩ :
          p.telemetryPresent = true ∧ address = 0x40 ∧ length ≠ 0 := by
        by_contra other
        exact none (if_neg other)
      have answers := h.answers
      cases reply with
      | done ok => exact absurd rfl (answers.2 _ _)
      | bytes received =>
        obtain ⟨address, asked, same, answers⟩ := answers
        cases same
        have taken : refused (.read 0x40 length) = false := by
          rw [refused, Bool.or_eq_false_iff]
          exact ⟨beq_eq_false_iff_ne.mpr some, rfl⟩
        rw [if_neg (by rw [taken]; decide)] at answers
        obtain ⟨bytes, rfl, answered⟩ := answers
        obtain ⟨later, s, readings, shows⟩ := read_shows present dated answered
        refine ⟨later, [s], readings, ?_⟩
        rw [sampled, if_neg none]
        exact .cons shows .nil
    | write address value => exact absurd rfl none
    | writeBurst address data => exact absurd rfl none

theorem served_shows (dated : Dated b)
    (served : Served p (beside traffic w) b requests replies c) :
    Dated c ∧ ∃ taken, (standing traffic c).readings = (standing traffic b).readings ++ taken ∧
      List.Forall₂ Shows (sampledReplies p requests replies) taken := by
  induction requests generalizing b replies with
  | nil =>
    cases replies with
    | nil =>
      obtain rfl : c = b := served
      exact ⟨dated, [], (List.append_nil _).symm, .nil⟩
    | cons reply replies => exact served.elim
  | cons request rest ih =>
    cases replies with
    | nil => exact served.elim
    | cons reply replies =>
      obtain ⟨d, first, others⟩ := served
      obtain ⟨between, taken, readings, shows⟩ := performed_shows dated first
      obtain ⟨after, more, later, rest_shows⟩ := ih between others
      refine ⟨after, taken ++ more, ?_, List.rel_append shows rest_shows⟩
      rw [later, readings, List.append_assoc]

/-! ## From the reset on -/

theorem clocks_dated (dated : Dated b) (n : Nat) : Dated (clocks p w n b) := by
  induction n generalizing b with
  | zero => exact dated
  | succ n ih =>
    refine ih fun t member => ?_
    rcases List.mem_append.mp member with old | new
    · exact Nat.le_succ_of_le (dated t old)
    · split_ifs at new
      · exact Nat.le_of_eq (List.mem_singleton.mp new)
      · exact absurd new List.not_mem_nil

theorem setValue_dated {pins : Pins} (dated : Dated b) : Dated (setValue p w q pins b) :=
  clocks_dated (b := { b with pins := pins, statements := b.statements + 1 }) dated _

theorem initialise_dated (dated : Dated b) : Dated (fpgaRegistersInitialise p w q b) :=
  setValue_dated (setValue_dated (setValue_dated dated))

/-- The board as the reset leaves it. -/
def afterReset (pins : Pins) : Board := ⟨pins, 0, 0, SpiRegisters.reset, [], []⟩

end

/-- Whatever the capture path does and whatever else is asked of the registers, the reads of the
instrument find its samples, one each and in order; the host makes of a whole block what was
sampled, and that is what happened since the sample before. -/
theorem telemetry_told (p : Parameters) (w : Around) (q : Pace)
    (traffic : Nat → Inputs captureGeometry) (pins : Pins) (n : Nat) (requests : List Request) :
    let w := beside traffic w
    let b := clocks p w (n + 5) (fpgaRegistersInitialise p w q (afterReset pins))
    let result := performAll p w q true requests b
    let c := result.2
    ∃ taken, (standing traffic c).readings = (standing traffic b).readings ++ taken ∧
      List.Forall₂ (fun received s => received.take 23 = (block s).take received.length ∧
          (23 ≤ received.length → parseFpgaTelemetry received = told s))
        (sampledReplies p requests result.1) taken ∧
      List.Forall₂ Reports
        (Intervals.cut Cycle.latch
          (cycles ((List.range (c.time + 1)).map (inputsAt traffic c.latches)))).closed
        (standing traffic c).readings := by
  intro w b result c
  have fits : Presentable captureGeometry := ⟨by decide, by decide, by decide⟩
  have dated : Dated b := clocks_dated (initialise_dated fun t member => by cases member) _
  have served := (requests_served p w q (afterReset pins) n requests).served
  obtain ⟨-, taken, readings, shows⟩ := served_shows dated served
  refine ⟨taken, readings, shows.imp fun received s h => ⟨h.bytes, h.parse fits⟩, ?_⟩
  have follows := (follows_run
    ((List.range (c.time + 1)).map fun t => ⟨true, inputsAt traffic c.latches t⟩)).readings
  have same : (List.range (c.time + 1)).map (fun t => Edge.mk true (inputsAt traffic c.latches t)) =
      ((List.range (c.time + 1)).map (inputsAt traffic c.latches)).map (Edge.mk true) := by
    rw [List.map_map]
    rfl
  rw [same, sinceReset_released] at follows
  rw [standing, monitor, same]
  exact follows

end TelemetryReading
