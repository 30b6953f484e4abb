import DomesdayDuplicator.Foundations.Execution
import Mathlib.Algebra.Ring.Nat

/-!
# The device's buffer readings

`fpga_telemetry.cpp`, the telemetry requests of `libusb_source.cpp` on the transfer
thread, and the totals `PublishStats` builds from the readings on the processing
thread. Between the two stands a publisher that keeps the latest reading only; its
sequence lock makes a publication and a copy one access each. A pass tells a new
reading from the one it has counted by the latch count, an eight-bit counter.
-/

namespace DeviceTelemetry

open Execution

abbrev Byte := BitVec 8

def kTelemetryIdValue : Byte := 0xBD
def kTelemetryBlockLength : Nat := 23
def kTelemetryFormat : Byte := 1
def kTelemetryOffsetStatus : Nat := 1
def kTelemetryOffsetLatchCount : Nat := 2
def kTelemetryOffsetUsedNow : Nat := 3
def kTelemetryOffsetPeak : Nat := 5
def kTelemetryOffsetPeakLifetime : Nat := 7
def kTelemetryOffsetOverflows : Nat := 9
def kTelemetryOffsetDropped : Nat := 11
def kTelemetryOffsetPackets : Nat := 13
def kTelemetryOffsetNearFull : Nat := 15
def kTelemetryOffsetDepth : Nat := 17
def kTelemetryOffsetPacketWords : Nat := 19
def kTelemetryOffsetNearFullWords : Nat := 21
def kTelemetryFormatMask : Byte := 0x0F
def kTelemetryFlagOverflowSeen : Byte := 0x10
def kTelemetryFlagSaturated : Byte := 0x20
def kTelemetryMaxFailures : Nat := 2

structure FpgaTelemetry where
  present : Bool := false
  format : Byte := 0
  overflowSinceOpen : Bool := false
  saturated : Bool := false
  latchCount : Byte := 0
  usedNow : Nat := 0
  peak : Nat := 0
  peakSinceOpen : Nat := 0
  overflowEvents : Nat := 0
  droppedWords : Nat := 0
  packetsRead : Nat := 0
  nearFullUnits : Nat := 0
  depthWords : Nat := 0
  packetWords : Nat := 0
  nearFullWords : Nat := 0
  deriving DecidableEq

def readWord (block : List Byte) (offset : Nat) : Nat :=
  (block.getD offset 0).toNat + (block.getD (offset + 1) 0).toNat * 2 ^ 8

def parseFpgaTelemetry (block : List Byte) : FpgaTelemetry :=
  let status := block.getD kTelemetryOffsetStatus 0
  let format := status &&& kTelemetryFormatMask
  let depth := readWord block kTelemetryOffsetDepth
  let packet := readWord block kTelemetryOffsetPacketWords
  if block.length < kTelemetryBlockLength then {}
  else if block.getD 0 0 ≠ kTelemetryIdValue then {}
  else if format ≠ kTelemetryFormat then {}
  else if packet = 0 ∨ depth ≤ packet then {}
  else
    { present := true
      format
      overflowSinceOpen := status &&& kTelemetryFlagOverflowSeen ≠ 0
      saturated := status &&& kTelemetryFlagSaturated ≠ 0
      latchCount := block.getD kTelemetryOffsetLatchCount 0
      usedNow := readWord block kTelemetryOffsetUsedNow
      peak := readWord block kTelemetryOffsetPeak
      peakSinceOpen := readWord block kTelemetryOffsetPeakLifetime
      overflowEvents := readWord block kTelemetryOffsetOverflows
      droppedWords := readWord block kTelemetryOffsetDropped
      packetsRead := readWord block kTelemetryOffsetPackets
      nearFullUnits := readWord block kTelemetryOffsetNearFull
      depthWords := depth
      packetWords := packet
      nearFullWords := readWord block kTelemetryOffsetNearFullWords }

def FpgaTelemetry.backPressurePercent (t : FpgaTelemetry) : Nat :=
  if ¬ t.present then 0
  else if t.overflowEvents > 0 then 100
  else if t.peak ≤ t.packetWords then 0
  else min ((t.peak - t.packetWords) * 100 / (t.depthWords - t.packetWords)) 100

/-! ## The transfer thread -/

structure TelemetrySource where
  telemetryInFlight : Bool
  telemetryPrimed : Bool
  telemetryFailures : Nat
  deriving DecidableEq

/-- How the control transfer ended, with the bytes that came. -/
inductive Completion where
  | completed (block : List Byte)
  | cancelled
  | failed

/-- `due` is whether the interval is up, `submitted` whether libusb took the request. -/
def pollTelemetry (due submitted : Bool) (s : TelemetrySource) : TelemetrySource :=
  if s.telemetryInFlight ∨ s.telemetryFailures ≥ kTelemetryMaxFailures then s
  else if ¬ due then s
  else if ¬ submitted then { s with telemetryFailures := s.telemetryFailures + 1 }
  else { s with telemetryInFlight := true }

/-- The source afterwards and the reading it publishes. -/
def onTelemetryCompletion (c : Completion) (s : TelemetrySource) :
    TelemetrySource × Option FpgaTelemetry :=
  let s := { s with telemetryInFlight := false }
  match c with
  | .cancelled => (s, none)
  | .failed => ({ s with telemetryFailures := s.telemetryFailures + 1 }, none)
  | .completed block =>
    if block.length < kTelemetryBlockLength then
      ({ s with telemetryFailures := s.telemetryFailures + 1 }, none)
    -- the first reading covers the time before the capture and is thrown away
    else if ¬ s.telemetryPrimed then ({ s with telemetryPrimed := true }, none)
    else (s, some (parseFpgaTelemetry block))

/-! ## The processing thread -/

structure DeviceTotals where
  deviceBufferSeen : Bool
  deviceBufferLatch : Byte
  deviceOverflowEvents : Nat
  deviceDroppedWords : Nat
  peakDeviceBufferWords : Nat
  peakBackPressurePercent : Nat
  deviceNearFullUnits : Nat
  deriving DecidableEq

/-- Whether a pass takes this for a reading it has not counted. -/
def DeviceTotals.fresh (d : DeviceTotals) (t : FpgaTelemetry) : Bool :=
  t.present && (!d.deviceBufferSeen || t.latchCount != d.deviceBufferLatch)

def DeviceTotals.count (d : DeviceTotals) (t : FpgaTelemetry) : DeviceTotals where
  deviceBufferSeen := true
  deviceBufferLatch := t.latchCount
  deviceOverflowEvents := d.deviceOverflowEvents + t.overflowEvents
  deviceDroppedWords := d.deviceDroppedWords + t.droppedWords
  peakDeviceBufferWords := max d.peakDeviceBufferWords t.peak
  peakBackPressurePercent := max d.peakBackPressurePercent t.backPressurePercent
  deviceNearFullUnits := d.deviceNearFullUnits + t.nearFullUnits

structure Monitor where
  source : TelemetrySource
  /-- What the publisher holds. -/
  latest : FpgaTelemetry
  totals : DeviceTotals
  deriving DecidableEq

def start : Monitor where
  source := ⟨false, false, 0⟩
  latest := {}
  totals := ⟨false, 0, 0, 0, 0, 0, 0⟩

inductive Action where
  | pollTelemetry (due submitted : Bool)
  | telemetryCompletion (c : Completion)
  | publishStats

inductive Event where
  | quiet
  | published (reading : FpgaTelemetry)
  | counted (reading : FpgaTelemetry)
  deriving DecidableEq

/-- The part of `PublishStats` that concerns the device. -/
def publishStats (s : Monitor) : Monitor × Event :=
  if s.totals.fresh s.latest then
    ({ s with totals := s.totals.count s.latest }, .counted s.latest)
  else (s, .quiet)

def step (s : Monitor) : Action → Monitor × Event
  | .pollTelemetry due submitted =>
    ({ s with source := pollTelemetry due submitted s.source }, .quiet)
  | .telemetryCompletion c =>
    if s.source.telemetryInFlight then
      match onTelemetryCompletion c s.source with
      | (source, some reading) => ({ s with source, latest := reading }, .published reading)
      | (source, none) => ({ s with source }, .quiet)
    else (s, .quiet)
  | .publishStats => publishStats s

def machine : Machine Monitor Action Event := ⟨step⟩

/-! ## What is published and what is counted -/

def Event.reading : Event → List FpgaTelemetry
  | .published reading => [reading]
  | _ => []

def Event.count : Event → List FpgaTelemetry
  | .counted reading => [reading]
  | _ => []

def published (es : List Event) : List FpgaTelemetry := es.flatMap Event.reading

def counted (es : List Event) : List FpgaTelemetry := es.flatMap Event.count

/-- The readings among what was published: a block nothing can be read from is not one. -/
def readings (es : List Event) : List FpgaTelemetry := (published es).filter (·.present)

/-- The readings a pass would count now. -/
def waiting (s : Monitor) : List FpgaTelemetry :=
  if s.totals.fresh s.latest then [s.latest] else []

@[simp] theorem published_append (es : List Event) (e : Event) :
    published (es ++ [e]) = published es ++ e.reading := by
  simp [published]

@[simp] theorem counted_append (es : List Event) (e : Event) :
    counted (es ++ [e]) = counted es ++ e.count := by
  simp [counted]

@[simp] theorem readings_append (es : List Event) (e : Event) :
    readings (es ++ [e]) = readings es ++ e.reading.filter (·.present) := by
  simp [readings]

/-- What a step can do to the books. -/
theorem step_cases (s : Monitor) (a : Action) :
    ((step s a).2 = .quiet ∧ (step s a).1.latest = s.latest ∧
      (step s a).1.totals = s.totals ∧ (a = .publishStats → waiting s = [])) ∨
    (∃ r, (step s a).2 = .published r ∧ (step s a).1.latest = r ∧
      (step s a).1.totals = s.totals ∧ a ≠ .publishStats) ∨
    ((step s a).2 = .counted s.latest ∧ (step s a).1.latest = s.latest ∧
      (step s a).1.totals = s.totals.count s.latest ∧ waiting s = [s.latest] ∧
      a = .publishStats) := by
  cases a with
  | pollTelemetry due submitted => exact Or.inl ⟨rfl, rfl, rfl, by simp⟩
  | telemetryCompletion c =>
    by_cases flight : s.source.telemetryInFlight
    · cases outcome : onTelemetryCompletion c s.source with
      | mk source reading =>
        cases reading with
        | none => exact Or.inl (by simp [step, flight, outcome])
        | some r => exact Or.inr (Or.inl ⟨r, by simp [step, flight, outcome]⟩)
    · exact Or.inl (by simp [step, flight])
  | publishStats =>
    cases new : s.totals.fresh s.latest with
    | false => exact Or.inl (by simp [step, publishStats, new, waiting])
    | true => exact Or.inr (Or.inr (by simp [step, publishStats, new, waiting]))

theorem fresh_count (d : DeviceTotals) (t : FpgaTelemetry) : (d.count t).fresh t = false := by
  simp [DeviceTotals.fresh, DeviceTotals.count]

/-! ## The totals are sums -/

/-- The totals are those of the readings counted so far. -/
def Summed (es : List Event) (s : Monitor) : Prop :=
  s.totals.deviceOverflowEvents = ((counted es).map (·.overflowEvents)).sum ∧
    s.totals.deviceDroppedWords = ((counted es).map (·.droppedWords)).sum

theorem Summed.step {es : List Event} {s : Monitor} (h : Summed es s) (a : Action) :
    Summed (es ++ [(step s a).2]) (step s a).1 := by
  obtain ⟨overflow, dropped⟩ := h
  rcases step_cases s a with ⟨e, -, totals, -⟩ | ⟨r, e, -, totals, -⟩ | ⟨e, -, totals, -⟩
  · simp [Summed, e, totals, Event.count, overflow, dropped]
  · simp [Summed, e, totals, Event.count, overflow, dropped]
  · simp [Summed, e, totals, Event.count, DeviceTotals.count, overflow, dropped]

/-- An unreadable block publishes zeros. -/
theorem parse_absent {block : List Byte} (h : (parseFpgaTelemetry block).present = false) :
    parseFpgaTelemetry block = {} := by
  simp only [parseFpgaTelemetry] at h ⊢
  split_ifs at h ⊢ <;> rfl

/-- What was published without being a reading adds nothing. -/
def Blank (es : List Event) : Prop := ∀ r ∈ published es, r.present = false → r = {}

theorem Blank.step {es : List Event} (h : Blank es) (s : Monitor) (a : Action) :
    Blank (es ++ [(step s a).2]) := by
  intro r member absent
  rw [published_append, List.mem_append] at member
  rcases member with before | now
  · exact h r before absent
  · cases a with
    | pollTelemetry due submitted => cases now
    | publishStats =>
      simp only [DeviceTelemetry.step, publishStats] at now
      split at now <;> cases now
    | telemetryCompletion c =>
      simp only [DeviceTelemetry.step] at now
      split at now
      · cases c with
        | cancelled => cases now
        | failed => cases now
        | completed block =>
          simp only [onTelemetryCompletion] at now
          split_ifs at now
          · cases now
          · obtain rfl := List.mem_singleton.mp now
            exact parse_absent absent
          · cases now
      · cases now

theorem sum_readings {es : List Event} (blank : Blank es) (f : FpgaTelemetry → Nat)
    (zero : f {} = 0) : ((readings es).map f).sum = ((published es).map f).sum := by
  have every : ∀ l : List FpgaTelemetry, (∀ r ∈ l, r.present = false → r = {}) →
      ((l.filter (·.present)).map f).sum = (l.map f).sum := by
    intro l absent
    induction l with
    | nil => rfl
    | cons r rest ih =>
      have later := ih fun r member => absent r (List.mem_cons_of_mem _ member)
      cases here : r.present with
      | true => simp [here, later]
      | false =>
        have none : f r = 0 := by rw [absent r List.mem_cons_self here, zero]
        simp [here, later, none]
  exact every _ blank

/-! ## Nothing lost, nothing twice -/

/-- A reading is published when a pass has read the one before it, and with a latch
count other than that of the last one counted. -/
def Admissible (s : Monitor) (a : Action) : Prop :=
  ∀ r, (step s a).2 = .published r →
    waiting s = [] ∧ (r.present = true → s.totals.fresh r = true)

def Balanced (es : List Event) (s : Monitor) : Prop := counted es ++ waiting s = readings es

def Short (es : List Event) (s : Monitor) : Prop :=
  (counted es).length + (waiting s).length < (readings es).length

theorem waiting_of_same {s t : Monitor} (latest : t.latest = s.latest)
    (totals : t.totals = s.totals) : waiting t = waiting s := by
  simp only [waiting, latest, totals]

theorem length_waiting_published {s : Monitor} {r : FpgaTelemetry} (latest : s.latest = r) :
    (waiting s).length ≤ ([r].filter (·.present)).length := by
  cases absent : r.present <;> simp [waiting, latest, DeviceTotals.fresh, absent]
  split <;> simp

theorem Balanced.step {es : List Event} {s : Monitor} (h : Balanced es s) {a : Action}
    (ok : Admissible s a) : Balanced (es ++ [(step s a).2]) (step s a).1 := by
  rcases step_cases s a with ⟨e, latest, totals, -⟩ | ⟨r, e, latest, totals, -⟩ |
    ⟨e, latest, totals, due, -⟩
  · simpa [Balanced, e, Event.count, Event.reading, waiting_of_same latest totals] using h
  · obtain ⟨read, new⟩ := ok r e
    have all : counted es = readings es := by simpa [Balanced, read] using h
    have next : waiting (DeviceTelemetry.step s a).1 = [r].filter (·.present) := by
      cases absent : r.present with
      | false => simp [waiting, latest, DeviceTotals.fresh, absent]
      | true => simp [waiting, latest, totals, new absent, absent]
    simp [Balanced, e, Event.count, Event.reading, all, next]
  · have done : waiting (DeviceTelemetry.step s a).1 = [] := by
      simp [waiting, latest, totals, fresh_count]
    simpa [Balanced, e, Event.count, Event.reading, done, due] using h

theorem Balanced.short {es : List Event} {s : Monitor} (h : Balanced es s) {a : Action}
    (bad : ¬ Admissible s a) : Short (es ++ [(DeviceTelemetry.step s a).2])
      (DeviceTelemetry.step s a).1 := by
  have size : (counted es).length + (waiting s).length = (readings es).length := by
    rw [← List.length_append, h]
  simp only [Admissible, not_forall] at bad
  obtain ⟨r, e, broken⟩ := bad
  rcases step_cases s a with ⟨e', -⟩ | ⟨r', e', latest, totals, -⟩ | ⟨e', -⟩
  · simp [e'] at e
  · obtain rfl : r' = r := by simpa [e'] using e
    simp only [Short, e', counted_append, readings_append, Event.count, Event.reading,
      List.append_nil, List.length_append]
    by_cases read : waiting s = []
    · have stale : r'.present = true ∧ s.totals.fresh r' = false := by
        simpa [read] using broken
      have missed : waiting (DeviceTelemetry.step s a).1 = [] := by
        simp [waiting, latest, totals, stale.2]
      simp [missed, stale.1]
      simp [read] at size
      omega
    · have lost := List.length_pos_iff.mpr read
      have room := length_waiting_published latest
      omega
  · simp [e'] at e

theorem Short.step {es : List Event} {s : Monitor} (h : Short es s) (a : Action) :
    Short (es ++ [(step s a).2]) (step s a).1 := by
  rcases step_cases s a with ⟨e, latest, totals, -⟩ | ⟨r, e, latest, totals, -⟩ |
    ⟨e, latest, totals, due, -⟩
  · simpa [Short, e, Event.count, Event.reading, waiting_of_same latest totals] using h
  · have room := length_waiting_published latest
    simp only [Short] at h
    simp only [Short, e, counted_append, readings_append, Event.count, Event.reading,
      List.append_nil, List.length_append]
    omega
  · have done : waiting (DeviceTelemetry.step s a).1 = [] := by
      simp [waiting, latest, totals, fresh_count]
    simpa [Short, e, Event.count, Event.reading, done, due] using h

/-! ## Runs -/

/-- Every step of the run is admissible where it is taken. -/
def Kept : Monitor → List Action → Prop
  | _, [] => True
  | s, a :: rest => Admissible s a ∧ Kept (step s a).1 rest

theorem trace_cons (s : Monitor) (a : Action) (rest : List Action) :
    machine.trace s (a :: rest) = ((step s a).2 :: (machine.trace (step s a).1 rest).1,
      (machine.trace (step s a).1 rest).2) := rfl

theorem trace_summed {es : List Event} {s : Monitor} (sums : Summed es s) (blank : Blank es)
    (actions : List Action) :
    Summed (es ++ (machine.trace s actions).1) (machine.trace s actions).2 ∧
      Blank (es ++ (machine.trace s actions).1) := by
  induction actions generalizing es s with
  | nil => simpa [Machine.trace] using ⟨sums, blank⟩
  | cons a rest ih =>
    have next := ih (sums.step a) (blank.step s a)
    rw [trace_cons]
    simpa using next

theorem trace_short {es : List Event} {s : Monitor} (short : Short es s)
    (actions : List Action) :
    Short (es ++ (machine.trace s actions).1) (machine.trace s actions).2 := by
  induction actions generalizing es s with
  | nil => simpa [Machine.trace] using short
  | cons a rest ih =>
    have next := ih (short.step a)
    rw [trace_cons]
    simpa using next

theorem trace_balanced {es : List Event} {s : Monitor} (balanced : Balanced es s)
    (actions : List Action) :
    (Kept s actions →
      Balanced (es ++ (machine.trace s actions).1) (machine.trace s actions).2) ∧
    (¬ Kept s actions →
      Short (es ++ (machine.trace s actions).1) (machine.trace s actions).2) := by
  induction actions generalizing es s with
  | nil => simpa [Machine.trace, Kept] using balanced
  | cons a rest ih =>
    rw [trace_cons]
    by_cases ok : Admissible s a
    · have next := ih (balanced.step ok)
      simpa [Kept, ok] using next
    · have next := trace_short (balanced.short ok) rest
      simpa [Kept, ok] using next

/-- The totals of a run are exact: every reading published has been counted once, in
order, and the totals are the sums over all that was published. -/
structure Exact (es : List Event) (s : Monitor) : Prop where
  once : counted es = readings es
  overflowEvents :
    s.totals.deviceOverflowEvents = ((published es).map (·.overflowEvents)).sum
  droppedWords : s.totals.deviceDroppedWords = ((published es).map (·.droppedWords)).sum

theorem trace_snoc (s : Monitor) (actions : List Action) (a : Action) :
    machine.trace s (actions ++ [a]) =
      ((machine.trace s actions).1 ++ [(step (machine.trace s actions).2 a).2],
        (step (machine.trace s actions).2 a).1) := by
  induction actions generalizing s with
  | nil => rfl
  | cons b rest ih => simp [trace_cons, ih]

theorem kept_snoc_publishStats (s : Monitor) (actions : List Action) :
    Kept s (actions ++ [.publishStats]) ↔ Kept s actions := by
  induction actions generalizing s with
  | nil =>
    have quiet : Admissible s .publishStats := by
      intro r e
      simp only [step, publishStats] at e
      split at e <;> cases e
    simp [Kept, quiet]
  | cons a rest ih => simp [Kept, ih]

theorem waiting_after_pass (s : Monitor) : waiting (publishStats s).1 = [] := by
  cases new : s.totals.fresh s.latest with
  | false => simp [publishStats, new, waiting]
  | true => simp [publishStats, new, waiting, fresh_count]

/-- What a pass reports is exact if and only if the passes before it have kept up. -/
theorem totals_exact_iff (actions : List Action) :
    Exact (machine.trace start (actions ++ [.publishStats])).1
        (machine.trace start (actions ++ [.publishStats])).2 ↔ Kept start actions := by
  rw [← kept_snoc_publishStats]
  have read : waiting (machine.trace start (actions ++ [.publishStats])).2 = [] := by
    rw [trace_snoc]
    exact waiting_after_pass _
  obtain ⟨balanced, short⟩ := @trace_balanced [] start rfl
    (actions ++ [.publishStats])
  obtain ⟨sums, blank⟩ := @trace_summed [] start ⟨rfl, rfl⟩
    (fun _ member => absurd member List.not_mem_nil) (actions ++ [.publishStats])
  simp only [List.nil_append] at balanced short sums blank
  constructor
  · intro precise
    by_contra lost
    have fewer := short lost
    rw [Short, read, precise.once] at fewer
    simp at fewer
  · intro kept
    have once : counted (machine.trace start (actions ++ [.publishStats])).1 =
        readings (machine.trace start (actions ++ [.publishStats])).1 := by
      simpa [Balanced, read] using balanced kept
    constructor
    · exact once
    · rw [sums.1, once, sum_readings blank _ rfl]
    · rw [sums.2, once, sum_readings blank _ rfl]

/-! ### A reading overwritten -/

/-- A block with this latch count and one overflow event of one word. -/
def overflowed (latch : Byte) : List Byte :=
  [kTelemetryIdValue, kTelemetryFormat, latch, 0, 0, 0, 0, 0, 0, 1, 0, 1, 0, 0, 0, 0, 0,
    0, 64, 0, 32, 0, 0]

/-- Three readings, the first to prime the source, and no pass between the others. -/
def unattended : List Action :=
  [.pollTelemetry true true, .telemetryCompletion (.completed (overflowed 0)),
    .pollTelemetry true true, .telemetryCompletion (.completed (overflowed 1)),
    .pollTelemetry true true, .telemetryCompletion (.completed (overflowed 2))]

theorem reading_overwritten : ¬ ∀ actions : List Action,
    Exact (machine.trace start (actions ++ [.publishStats])).1
      (machine.trace start (actions ++ [.publishStats])).2 := by
  intro claim
  have sum := (claim unattended).overflowEvents
  exact absurd sum (by decide)

end DeviceTelemetry
