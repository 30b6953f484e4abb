import DomesdayDuplicator.Foundations.Intervals
import DomesdayDuplicator.Gateware.Fifo
import Mathlib.Data.List.Forall2

/-!
# The buffer monitor

`bufferMonitor.v`: what the capture FIFO did, counted from one latch to the next.
The record of a run says what happened in every cycle without any of the module's
registers; cut at the latches, it is what the module reports.
-/

namespace BufferMonitor

open Intervals

/-- The module's parameters; a packet of one word has no word counter. -/
structure Geometry where
  fifoDepth : Nat
  packetWords : Nat
  nearFullWords : Nat
  packet : 1 < packetWords

abbrev Geometry.usedBits (g : Geometry) : Nat := Fifo.countBits g.fifoDepth
abbrev Geometry.packetBits (g : Geometry) : Nat := Nat.clog 2 g.packetWords

def Geometry.nearFullThreshold (g : Geometry) : BitVec g.usedBits :=
  BitVec.ofNat _ g.nearFullWords

def Geometry.packetLastWord (g : Geometry) : BitVec g.packetBits :=
  BitVec.ofNat _ g.packetWords - 1

def telemetryFormat : BitVec 4 := 1
def counterMaximum : BitVec 16 := 0xFFFF

variable {g : Geometry}

structure Inputs (g : Geometry) where
  usedWords : BitVec g.usedBits
  writeEnable : Bool
  overflow : Bool
  isReading : Bool
  latch : Bool

structure Shadow (g : Geometry) where
  status : BitVec 8
  latchCount : BitVec 8
  usedNow : BitVec g.usedBits
  peakInterval : BitVec g.usedBits
  peakLifetime : BitVec g.usedBits
  overflowEvents : BitVec 16
  droppedWords : BitVec 16
  packetsRead : BitVec 16
  nearFullUnits : BitVec 16

structure Registers (g : Geometry) where
  peakInterval : BitVec g.usedBits
  peakLifetime : BitVec g.usedBits
  overflowEvents : BitVec 16
  droppedWords : BitVec 16
  packetsRead : BitVec 16
  nearFullUnits : BitVec 16
  packetWordCount : BitVec g.packetBits
  nearFullPrescale : BitVec 8
  latchCounter : BitVec 8
  overflowActive : Bool
  overflowSticky : Bool
  saturated : Bool
  shadow : Shadow g

def cleared (g : Geometry) : Registers g where
  peakInterval := 0
  peakLifetime := 0
  overflowEvents := 0
  droppedWords := 0
  packetsRead := 0
  nearFullUnits := 0
  packetWordCount := 0
  nearFullPrescale := 0
  latchCounter := 0
  overflowActive := false
  overflowSticky := false
  saturated := false
  shadow := ⟨0#4 ++ telemetryFormat, 0, 0, 0, 0, 0, 0, 0, 0⟩

def overflowEvent (i : Inputs g) (r : Registers g) : Bool := i.overflow && !r.overflowActive

def packetComplete (i : Inputs g) (r : Registers g) : Bool :=
  i.isReading && r.packetWordCount == g.packetLastWord

def nearFullSample (i : Inputs g) : Bool :=
  i.writeEnable && decide (g.nearFullThreshold ≤ i.usedWords)

def nearFullTick (i : Inputs g) (r : Registers g) : Bool :=
  nearFullSample i && r.nearFullPrescale == 0xFF

def anySaturation (i : Inputs g) (r : Registers g) : Bool :=
  (overflowEvent i r && r.overflowEvents == counterMaximum) ||
    (i.overflow && r.droppedWords == counterMaximum) ||
    (nearFullTick i r && r.nearFullUnits == counterMaximum)

/-- A counter that stops at its maximum. A latch clears it to what its own cycle brings. -/
def saturating (latch event : Bool) (count : BitVec 16) : BitVec 16 :=
  if latch then if event then 1 else 0
  else if event && count != counterMaximum then count + 1 else count

/-- The packet counter, which wraps. -/
def wrapping (latch event : Bool) (count : BitVec 16) : BitVec 16 :=
  if latch then if event then 1 else 0 else if event then count + 1 else count

/-- The shadow bank takes the counters as they stood before the latch cleared them. -/
def shadowed (i : Inputs g) (r : Registers g) : Shadow g :=
  if i.latch then
    { status := 0#2 ++ BitVec.ofBool r.saturated ++ BitVec.ofBool r.overflowSticky ++
        telemetryFormat
      latchCount := r.latchCounter + 1
      usedNow := i.usedWords
      peakInterval := r.peakInterval
      peakLifetime := r.peakLifetime
      overflowEvents := r.overflowEvents
      droppedWords := r.droppedWords
      packetsRead := r.packetsRead
      nearFullUnits := r.nearFullUnits }
  else r.shadow

/-- One edge of the clock. -/
def clock (i : Inputs g) (r : Registers g) : Registers g where
  peakInterval :=
    if i.latch then i.usedWords
    else if r.peakInterval < i.usedWords then i.usedWords else r.peakInterval
  peakLifetime := if r.peakLifetime < i.usedWords then i.usedWords else r.peakLifetime
  overflowEvents := saturating i.latch (overflowEvent i r) r.overflowEvents
  droppedWords := saturating i.latch i.overflow r.droppedWords
  packetsRead := wrapping i.latch (packetComplete i r) r.packetsRead
  nearFullUnits := saturating i.latch (nearFullTick i r) r.nearFullUnits
  packetWordCount :=
    if i.isReading then
      if r.packetWordCount = g.packetLastWord then 0 else r.packetWordCount + 1
    else r.packetWordCount
  nearFullPrescale :=
    if nearFullSample i then r.nearFullPrescale + 1 else r.nearFullPrescale
  latchCounter := if i.latch then r.latchCounter + 1 else r.latchCounter
  overflowActive :=
    if i.overflow then true else if i.writeEnable then false else r.overflowActive
  overflowSticky := if i.overflow then true else r.overflowSticky
  saturated := if i.latch then false else if anySaturation i r then true else r.saturated
  shadow := shadowed i r

/-- What the register map presents from `TELEM_STATUS` on. -/
def telemetry (s : Shadow g) : BitVec 128 :=
  s.nearFullUnits ++ s.packetsRead ++ s.droppedWords ++ s.overflowEvents ++
    s.peakLifetime.setWidth 16 ++ s.peakInterval.setWidth 16 ++ s.usedNow.setWidth 16 ++
    s.latchCount ++ s.status

/-! ## A run and its record -/

/-- One edge, and the reset that may be in force at it. -/
structure Edge (g : Geometry) where
  resetN : Bool
  inputs : Inputs g

/-- The registers, and what the shadow bank held after every latch since the reset. -/
structure Observed (g : Geometry) where
  registers : Registers g
  readings : List (Shadow g)

def Observed.next (o : Observed g) (e : Edge g) : Observed g :=
  if e.resetN then
    let registers := clock e.inputs o.registers
    ⟨registers, if e.inputs.latch then o.readings ++ [registers.shadow] else o.readings⟩
  else ⟨cleared g, []⟩

def observe (edges : List (Edge g)) : Observed g :=
  edges.foldl Observed.next ⟨cleared g, []⟩

/-- The inputs since the last reset. -/
def sinceReset (edges : List (Edge g)) : List (Inputs g) :=
  edges.foldl (fun h e => if e.resetN then h ++ [e.inputs] else []) []

/-- What happened in one cycle. -/
structure Cycle where
  used : Nat
  overflowEvent : Bool
  droppedWord : Bool
  packetComplete : Bool
  nearFullTick : Bool
  latch : Bool

/-- Of the samples offered before, the last found no room. -/
def stalled (before : List (Inputs g)) : Bool :=
  match (before.filter fun i => i.overflow || i.writeEnable).getLast? with
  | some i => i.overflow
  | none => false

/-- The cycle of `i`, given those before it: a burst of overflows is one event, a packet
is complete with its last word, and 256 near-full samples are one unit. -/
def cycleAt (before : List (Inputs g)) (i : Inputs g) : Cycle where
  used := i.usedWords.toNat
  overflowEvent := i.overflow && !stalled before
  droppedWord := i.overflow
  packetComplete :=
    i.isReading && (before.countP (·.isReading) + 1) % g.packetWords == 0
  nearFullTick := nearFullSample i && (before.countP nearFullSample + 1) % 256 == 0
  latch := i.latch

def cyclesFrom (before : List (Inputs g)) : List (Inputs g) → List Cycle
  | [] => []
  | i :: rest => cycleAt before i :: cyclesFrom (before ++ [i]) rest

def cycles (history : List (Inputs g)) : List Cycle := cyclesFrom [] history

theorem cyclesFrom_snoc (before history : List (Inputs g)) (i : Inputs g) :
    cyclesFrom before (history ++ [i]) =
      cyclesFrom before history ++ [cycleAt (before ++ history) i] := by
  induction history generalizing before with
  | nil => simp [cyclesFrom]
  | cons j rest ih => simp [cyclesFrom, ih]

theorem cycles_snoc (history : List (Inputs g)) (i : Inputs g) :
    cycles (history ++ [i]) = cycles history ++ [cycleAt history i] := by
  simp [cycles, cyclesFrom_snoc]

/-! ## The counts -/

inductive Count where
  | overflowEvents | droppedWords | packetsRead | nearFullUnits
  deriving DecidableEq

def Count.event : Count → Cycle → Bool
  | .overflowEvents, c => c.overflowEvent
  | .droppedWords, c => c.droppedWord
  | .packetsRead, c => c.packetComplete
  | .nearFullUnits, c => c.nearFullTick

def Count.live : Count → Registers g → BitVec 16
  | .overflowEvents, r => r.overflowEvents
  | .droppedWords, r => r.droppedWords
  | .packetsRead, r => r.packetsRead
  | .nearFullUnits, r => r.nearFullUnits

def Count.reading : Count → Shadow g → BitVec 16
  | .overflowEvents, s => s.overflowEvents
  | .droppedWords, s => s.droppedWords
  | .packetsRead, s => s.packetsRead
  | .nearFullUnits, s => s.nearFullUnits

/-- What sixteen bits show of a number of events: all of them, as long as they fit. -/
def Count.shown : Count → Nat → Nat
  | .packetsRead, n => n % 2 ^ 16
  | _, n => min n (2 ^ 16 - 1)

theorem Count.shown_of_fits (c : Count) {n : Nat} (fits : n < 2 ^ 16) : c.shown n = n := by
  cases c with
  | packetsRead => exact Nat.mod_eq_of_lt fits
  | _ =>
    simp only [Count.shown]
    omega

/-- One of the counters that stop has had to stop. -/
def Exceeded (interval : List Cycle) : Prop :=
  ∃ c : Count, c ≠ .packetsRead ∧ 2 ^ 16 ≤ interval.countP c.event

def peak (interval : List Cycle) : Nat :=
  (interval.map (·.used)).foldl max 0

theorem peak_snoc (interval : List Cycle) (c : Cycle) :
    peak (interval ++ [c]) = max (peak interval) c.used := by
  simp [peak]

/-- The highest occupancy over every cycle of the interval. -/
structure Highest (interval : List Cycle) (n : Nat) : Prop where
  bound : ∀ c ∈ interval, c.used ≤ n
  reached : interval ≠ [] → ∃ c ∈ interval, c.used = n

theorem highest_peak (interval : List Cycle) : Highest interval (peak interval) := by
  induction interval using List.reverseRecOn with
  | nil => exact ⟨by simp, fun some => absurd rfl some⟩
  | append_singleton interval last ih =>
    rw [peak_snoc]
    constructor
    · rintro c mem
      rcases List.mem_append.mp mem with before | here
      · exact (ih.bound c before).trans (Nat.le_max_left _ _)
      · obtain rfl : c = last := by simpa using here
        exact Nat.le_max_right _ _
    · rintro -
      rcases Nat.le_total (peak interval) last.used with le | le
      · exact ⟨last, by simp, (Nat.max_eq_right le).symm⟩
      · rw [Nat.max_eq_left le]
        by_cases before : interval = []
        · subst before
          exact ⟨last, by simp, Nat.le_zero.mp le⟩
        · obtain ⟨c, mem, eq⟩ := ih.reached before
          exact ⟨c, by simp [mem], eq⟩

theorem saturating_spec {count : BitVec 16} {n : Nat} (h : count.toNat = min n (2 ^ 16 - 1))
    (latch event : Bool) : (saturating latch event count).toNat =
      min (if latch then event.toNat else n + event.toNat) (2 ^ 16 - 1) := by
  cases latch with
  | true => cases event <;> rfl
  | false =>
    cases event with
    | false => simpa [saturating] using h
    | true =>
      by_cases full : count = counterMaximum
      · have : count.toNat = 2 ^ 16 - 1 := by rw [full]; rfl
        simp only [saturating, full, bne_self_eq_false, Bool.and_false, if_false,
          Bool.false_eq_true, Bool.toNat_true]
        rw [← full]
        omega
      · have below : count.toNat ≠ 2 ^ 16 - 1 := by
          intro eq
          exact full (BitVec.eq_of_toNat_eq eq)
        simp only [saturating, bne_iff_ne.mpr full, Bool.and_self, if_true, if_false,
          Bool.false_eq_true, Bool.toNat_true, BitVec.toNat_add]
        simp
        omega

theorem wrapping_spec {count : BitVec 16} {n : Nat} (h : count.toNat = n % 2 ^ 16)
    (latch event : Bool) : (wrapping latch event count).toNat =
      (if latch then event.toNat else n + event.toNat) % 2 ^ 16 := by
  cases latch with
  | true => cases event <;> rfl
  | false =>
    cases event with
    | false => simpa [wrapping] using h
    | true => simp [wrapping, h]

/-! ## The registers follow the record -/

/-- The cycles of the interval that goes on. -/
def current (h : List (Inputs g)) : List Cycle := (cut Cycle.latch (cycles h)).current

theorem current_snoc (h : List (Inputs g)) (i : Inputs g) : current (h ++ [i]) =
    if i.latch then [cycleAt h i] else current h ++ [cycleAt h i] := by
  simp only [current, cycles_snoc, cut_snoc, Cut.next]
  split <;> simp_all [cycleAt]

/-- Where the registers are after the cycles `h`. -/
structure Tracks (h : List (Inputs g)) (r : Registers g) : Prop where
  active : r.overflowActive = stalled h
  word : r.packetWordCount.toNat = h.countP (·.isReading) % g.packetWords
  prescale : r.nearFullPrescale.toNat = h.countP nearFullSample % 256
  counts : ∀ c : Count, (c.live r).toNat = c.shown ((current h).countP c.event)
  saturated : r.saturated = true ↔ Exceeded (current h)
  peak : r.peakInterval.toNat = peak (current h)

variable {h : List (Inputs g)} {r : Registers g}

theorem tracks_cleared : Tracks ([] : List (Inputs g)) (cleared g) := by
  constructor
  · rfl
  · simp [cleared]
  · rfl
  · intro c
    cases c <;> rfl
  · simp [cleared, Exceeded, current, cycles, cyclesFrom]
  · rfl

theorem toNat_packetLastWord : g.packetLastWord.toNat = g.packetWords - 1 := by
  have packet := g.packet
  have fits : g.packetWords ≤ 2 ^ g.packetBits := Nat.le_pow_clog (by decide) _
  have one : 1 < 2 ^ g.packetBits := by omega
  have last : g.packetLastWord = BitVec.ofNat _ (g.packetWords - 1) := by
    rw [Geometry.packetLastWord, ← BitVec.ofNat_sub_ofNat_of_le _ _ (by omega) (by omega)]
    rfl
  rw [last, BitVec.toNat_ofNat, Nat.mod_eq_of_lt (by omega)]

/-- The last word of a packet makes a whole number of packets. -/
theorem Tracks.last_word (track : Tracks h r) : r.packetWordCount = g.packetLastWord ↔
    (h.countP (·.isReading) + 1) % g.packetWords = 0 := by
  have packet := g.packet
  rw [← BitVec.toNat_inj, track.word, toNat_packetLastWord]
  generalize h.countP (·.isReading) = n
  have bound := Nat.mod_lt n (by omega : 0 < g.packetWords)
  rw [Nat.add_mod, Nat.mod_eq_of_lt packet]
  constructor
  · intro eq
    rw [eq, Nat.sub_add_cancel (by omega), Nat.mod_self]
  · intro zero
    by_contra short
    rw [Nat.mod_eq_of_lt (by omega)] at zero
    omega

theorem Tracks.overflowEvent_eq (track : Tracks h r) (i : Inputs g) :
    overflowEvent i r = (cycleAt h i).overflowEvent := by
  rw [overflowEvent, track.active]
  rfl

theorem Tracks.packetComplete_eq (track : Tracks h r) (i : Inputs g) :
    packetComplete i r = (cycleAt h i).packetComplete := by
  have last := track.last_word
  simp only [packetComplete, cycleAt]
  congr 1
  exact Bool.eq_iff_iff.mpr (by simpa using last)

theorem Tracks.nearFullTick_eq (track : Tracks h r) (i : Inputs g) :
    nearFullTick i r = (cycleAt h i).nearFullTick := by
  have last : r.nearFullPrescale = 0xFF ↔ (h.countP nearFullSample + 1) % 256 = 0 := by
    rw [← BitVec.toNat_inj, track.prescale]
    simp
    omega
  simp only [nearFullTick, cycleAt]
  congr 1
  exact Bool.eq_iff_iff.mpr (by simpa using last)

/-- What one cycle adds to the interval it belongs to. -/
theorem count_current_snoc (c : Count) (i : Inputs g) :
    (current (h ++ [i])).countP c.event =
      if i.latch then (c.event (cycleAt h i)).toNat
      else (current h).countP c.event + (c.event (cycleAt h i)).toNat := by
  rw [current_snoc]
  cases i.latch with
  | true => cases event : c.event (cycleAt h i) <;> simp [event]
  | false => cases event : c.event (cycleAt h i) <;> simp [event, List.countP_append]

theorem Tracks.counts_clock (track : Tracks h r) (i : Inputs g) (c : Count) :
    (c.live (clock i r)).toNat = c.shown ((current (h ++ [i])).countP c.event) := by
  rw [count_current_snoc]
  cases c with
  | overflowEvents =>
    simp only [Count.live, clock, track.overflowEvent_eq]
    exact saturating_spec (track.counts .overflowEvents) _ _
  | droppedWords => exact saturating_spec (track.counts .droppedWords) _ _
  | packetsRead =>
    simp only [Count.live, clock, track.packetComplete_eq]
    exact wrapping_spec (track.counts .packetsRead) _ _
  | nearFullUnits =>
    simp only [Count.live, clock, track.nearFullTick_eq]
    exact saturating_spec (track.counts .nearFullUnits) _ _

/-- A counter at its maximum has been given that many events at least. -/
theorem Tracks.at_maximum (track : Tracks h r) {c : Count} (stops : c ≠ .packetsRead) :
    c.live r = counterMaximum ↔ 2 ^ 16 - 1 ≤ (current h).countP c.event := by
  have count := track.counts c
  have shown : c.shown ((current h).countP c.event) =
      min ((current h).countP c.event) (2 ^ 16 - 1) := by
    cases c with
    | packetsRead => exact absurd rfl stops
    | _ => rfl
  rw [← BitVec.toNat_inj, count, shown]
  simp [counterMaximum]

theorem Tracks.anySaturation_iff (track : Tracks h r) (i : Inputs g) :
    anySaturation i r = true ↔ ∃ c : Count, c ≠ .packetsRead ∧ c.event (cycleAt h i) = true ∧
      2 ^ 16 - 1 ≤ (current h).countP c.event := by
  have overflow := track.at_maximum (c := .overflowEvents) (by decide)
  have dropped := track.at_maximum (c := .droppedWords) (by decide)
  have nearFull := track.at_maximum (c := .nearFullUnits) (by decide)
  simp only [Count.live] at overflow dropped nearFull
  simp only [anySaturation, Bool.or_eq_true, Bool.and_eq_true, beq_iff_eq, overflow, dropped,
    nearFull, track.overflowEvent_eq, track.nearFullTick_eq]
  constructor
  · rintro ((⟨event, full⟩ | ⟨event, full⟩) | ⟨event, full⟩)
    · exact ⟨.overflowEvents, by decide, event, full⟩
    · exact ⟨.droppedWords, by decide, event, full⟩
    · exact ⟨.nearFullUnits, by decide, event, full⟩
  · rintro ⟨c, stops, event, full⟩
    cases c with
    | overflowEvents => exact Or.inl (Or.inl ⟨event, full⟩)
    | droppedWords => exact Or.inl (Or.inr ⟨event, full⟩)
    | packetsRead => exact absurd rfl stops
    | nearFullUnits => exact Or.inr ⟨event, full⟩

theorem Tracks.saturated_clock (track : Tracks h r) (i : Inputs g) :
    (clock i r).saturated = true ↔ Exceeded (current (h ++ [i])) := by
  have saturated := track.saturated
  have saturation := track.anySaturation_iff i
  simp only [Exceeded, count_current_snoc] at saturated ⊢
  cases latch : i.latch with
  | true =>
    simp only [clock, latch, if_true, Bool.false_eq_true, false_iff]
    rintro ⟨c, -, many⟩
    have := Bool.toNat_le (c.event (cycleAt h i))
    omega
  | false =>
    simp only [clock, latch, Bool.false_eq_true, if_false, Bool.if_true_left, Bool.or_eq_true,
      decide_eq_true_eq]
    rw [saturated, saturation]
    constructor
    · rintro (⟨c, stops, event, full⟩ | ⟨c, stops, many⟩)
      · refine ⟨c, stops, ?_⟩
        rw [event, Bool.toNat_true]
        omega
      · exact ⟨c, stops, many.trans (Nat.le_add_right _ _)⟩
    · rintro ⟨c, stops, many⟩
      by_cases already : 2 ^ 16 ≤ (current h).countP c.event
      · exact Or.inr ⟨c, stops, already⟩
      · left
        cases event : c.event (cycleAt h i) with
        | false =>
          rw [event, Bool.toNat_false] at many
          omega
        | true =>
          rw [event, Bool.toNat_true] at many
          exact ⟨c, stops, event, by omega⟩

theorem Tracks.peak_clock (track : Tracks h r) (i : Inputs g) :
    (clock i r).peakInterval.toNat = BufferMonitor.peak (current (h ++ [i])) := by
  have before := track.peak
  rw [current_snoc]
  cases latch : i.latch with
  | true => simp [clock, latch, BufferMonitor.peak, cycleAt]
  | false =>
    simp only [clock, latch, Bool.false_eq_true, if_false, peak_snoc, ← before]
    by_cases higher : r.peakInterval < i.usedWords
    · rw [if_pos higher]
      exact (Nat.max_eq_right (Nat.le_of_lt higher)).symm
    · rw [if_neg higher]
      exact (Nat.max_eq_left (Nat.le_of_not_lt higher)).symm

theorem stalled_snoc (i : Inputs g) : stalled (h ++ [i]) =
    if i.overflow then true else if i.writeEnable then false else stalled h := by
  simp only [stalled, List.filter_append]
  cases overflow : i.overflow with
  | true => simp [overflow]
  | false => cases offered : i.writeEnable <;> simp [overflow, offered]

theorem Tracks.clock (track : Tracks h r) (i : Inputs g) :
    Tracks (h ++ [i]) (BufferMonitor.clock i r) := by
  constructor
  · rw [stalled_snoc, ← track.active]
    rfl
  · have packet := g.packet
    have last := track.last_word
    have word := track.word
    simp only [BufferMonitor.clock, List.countP_append, List.countP_singleton]
    cases i.isReading with
    | false => simpa using word
    | true =>
      by_cases complete : r.packetWordCount = g.packetLastWord
      · simp only [if_true, complete]
        exact (last.mp complete).symm
      · simp only [if_true, if_neg complete]
        rw [last] at complete
        have bound := Nat.mod_lt (h.countP (·.isReading)) (by omega : 0 < g.packetWords)
        have fits : g.packetWords ≤ 2 ^ g.packetBits := Nat.le_pow_clog (by decide) _
        have inside : h.countP (·.isReading) % g.packetWords + 1 < g.packetWords := by
          by_contra wraps
          apply complete
          rw [Nat.add_mod, Nat.mod_eq_of_lt packet,
            show h.countP (·.isReading) % g.packetWords + 1 = g.packetWords by omega, Nat.mod_self]
        rw [BitVec.toNat_add, word, Nat.add_mod (h.countP _) 1 g.packetWords,
          Nat.mod_eq_of_lt packet, Nat.mod_eq_of_lt inside]
        have one : (1 : BitVec g.packetBits).toNat = 1 :=
          Nat.mod_eq_of_lt (by omega : 1 < 2 ^ g.packetBits)
        rw [one]
        exact Nat.mod_eq_of_lt (by omega)
  · have prescale := track.prescale
    simp only [BufferMonitor.clock, List.countP_append, List.countP_singleton]
    cases nearFullSample i with
    | false => simpa using prescale
    | true => simp [prescale]
  · exact track.counts_clock i
  · exact track.saturated_clock i
  · exact track.peak_clock i

/-- A reading of the shadow bank says this of the interval it closed. -/
structure Reports (interval : List Cycle) (s : Shadow g) : Prop where
  counts : ∀ c : Count, (c.reading s).toNat = c.shown (interval.countP c.event)
  saturated : s.status.getLsbD 5 = true ↔ Exceeded interval
  peak : Highest interval s.peakInterval.toNat

theorem Tracks.reports (track : Tracks h r) {i : Inputs g} (latch : i.latch = true) :
    Reports (current h) (BufferMonitor.clock i r).shadow := by
  have counts := track.counts
  constructor
  · intro c
    have count := counts c
    cases c <;> simpa [BufferMonitor.clock, shadowed, latch, Count.reading, Count.live] using count
  · rw [← track.saturated]
    simp only [BufferMonitor.clock, shadowed, latch, if_true]
    cases r.saturated <;> cases r.overflowSticky <;> decide
  · have highest := highest_peak (current h)
    rw [← track.peak] at highest
    simpa [BufferMonitor.clock, shadowed, latch] using highest

/-- What a run shows of the record it makes. -/
structure Follows (h : List (Inputs g)) (o : Observed g) : Prop where
  tracks : Tracks h o.registers
  readings : List.Forall₂ Reports (cut Cycle.latch (cycles h)).closed o.readings

theorem Follows.next {o : Observed g} (f : Follows h o) (i : Inputs g) :
    Follows (h ++ [i]) (o.next ⟨true, i⟩) := by
  constructor
  · exact f.tracks.clock i
  · simp only [Observed.next, if_true, cycles_snoc, cut_snoc, Cut.next]
    cases latch : i.latch with
    | true =>
      rw [if_pos (by simpa [cycleAt] using latch), if_pos rfl]
      exact List.rel_append f.readings (.cons (f.tracks.reports latch) .nil)
    | false =>
      rw [if_neg (by simp [cycleAt, latch]), if_neg (by simp)]
      exact f.readings

theorem follows_run (edges : List (Edge g)) : Follows (sinceReset edges) (observe edges) := by
  have start : Follows ([] : List (Inputs g)) ⟨cleared g, []⟩ := ⟨tracks_cleared, .nil⟩
  induction edges using List.reverseRecOn with
  | nil => exact start
  | append_singleton edges e ih =>
    obtain ⟨resetN, i⟩ := e
    simp only [sinceReset, observe, List.foldl_append, List.foldl_cons, List.foldl_nil] at ih ⊢
    cases resetN with
    | true => exact ih.next i
    | false => exact start

/-- Between two latches no event is lost and none is counted twice, unless a count
outgrew its sixteen bits; the flag tells that of the three counters that stop, and the
peak is the highest occupancy of the interval. -/
theorem intervals_reported (edges : List (Edge g)) :
    let record := cycles (sinceReset edges)
    let parts := cut Cycle.latch record
    let out := observe edges
    parts.closed.flatten ++ parts.current = record ∧
    (∀ c : Count,
      (∀ interval ∈ parts.closed ++ [parts.current], interval.countP c.event < 2 ^ 16) →
      (out.readings.map fun s => (c.reading s).toNat).sum + (c.live out.registers).toNat =
        record.countP c.event) ∧
    List.Forall₂ Reports parts.closed out.readings ∧
    (out.registers.saturated = true ↔ Exceeded parts.current) ∧
    Highest parts.current out.registers.peakInterval.toNat := by
  intro record parts out
  obtain ⟨track, readings⟩ := follows_run edges
  refine ⟨flatten_cut record, ?_, readings, track.saturated, ?_⟩
  · intro c fits
    have exact_reading : ∀ (closed : List (List Cycle)) (shadows : List (Shadow g)),
        List.Forall₂ Reports closed shadows →
        (∀ interval ∈ closed, interval.countP c.event < 2 ^ 16) →
        shadows.map (fun s => (c.reading s).toNat) = closed.map (List.countP c.event) := by
      intro closed shadows each small
      induction each with
      | nil => rfl
      | cons report rest ih =>
        rw [List.map_cons, List.map_cons, report.counts c,
          c.shown_of_fits (small _ (by simp)), ih fun interval mem => small interval (by simp [mem])]
    have live : (c.live out.registers).toNat = parts.current.countP c.event := by
      rw [track.counts c]
      exact c.shown_of_fits (fits _ (by simp [parts, current, record]))
    rw [exact_reading _ _ readings fun interval mem => fits interval (by simp [parts, record, mem]),
      live]
    exact sum_counts c.event record
  · rw [track.peak]
    exact highest_peak _

/-- Two samples dropped in one burst, a latch, and one sample more that finds no room. -/
def twoBursts : List (Edge ⟨4, 2, 3, by decide⟩) :=
  [⟨true, 4, true, true, false, false⟩, ⟨true, 4, true, true, false, false⟩,
    ⟨true, 3, true, false, true, true⟩, ⟨true, 4, true, true, false, false⟩]

theorem bursts_counted :
    ((observe twoBursts).readings.map fun s => s.overflowEvents.toNat).sum +
      (observe twoBursts).registers.overflowEvents.toNat = 2 :=
  (intervals_reported twoBursts).2.1 .overflowEvents (by decide)

/-- Reading `packetWords` words makes one packet, wherever the latches fall. -/
theorem packets_of_reads (h : List (Inputs g)) :
    (cycles h).countP (·.packetComplete) = h.countP (·.isReading) / g.packetWords := by
  induction h using List.reverseRecOn with
  | nil => simp [cycles, cyclesFrom]
  | append_singleton h i ih =>
    rw [cycles_snoc, List.countP_append, List.countP_append, List.countP_singleton,
      List.countP_singleton, ih]
    cases reading : i.isReading with
    | false => simp [cycleAt, reading]
    | true =>
      simp only [cycleAt, reading, Bool.true_and, beq_iff_eq, if_true, Nat.succ_div,
        Nat.dvd_iff_mod_eq_zero]

/-- With no latch, the cycles are all of one interval. -/
theorem current_of_unlatched {h : List (Inputs g)} (none : ∀ i ∈ h, i.latch = false) :
    cut Cycle.latch (cycles h) = ⟨[], cycles h⟩ := by
  apply cut_unmarked
  induction h using List.reverseRecOn with
  | nil => simp [cycles, cyclesFrom]
  | append_singleton h i ih =>
    intro c mem
    rw [cycles_snoc] at mem
    rcases List.mem_append.mp mem with before | here
    · exact ih (fun j mem => none j (by simp [mem])) c before
    · obtain rfl : c = cycleAt h i := by simpa using here
      exact none i (by simp)

theorem sinceReset_released (h : List (Inputs g)) : sinceReset (h.map (Edge.mk true)) = h := by
  induction h using List.reverseRecOn with
  | nil => rfl
  | append_singleton h i ih =>
    simp only [sinceReset, List.map_append, List.foldl_append] at ih ⊢
    rw [ih]
    rfl

/-- Cycles in which nothing is offered count nothing but words read. -/
theorem quiet_not_exceeded {h : List (Inputs g)}
    (quiet : ∀ i ∈ h, i.overflow = false ∧ i.writeEnable = false) : ¬ Exceeded (cycles h) := by
  rintro ⟨c, stops, many⟩
  have none : (cycles h).countP c.event = 0 := by
    induction h using List.reverseRecOn with
    | nil => simp [cycles, cyclesFrom]
    | append_singleton h i ih =>
      have last := quiet i (by simp)
      have before := ih (fun j mem => quiet j (by simp [mem]))
      rw [cycles_snoc, List.countP_append, List.countP_singleton] at many ⊢
      have silent : c.event (cycleAt h i) = false := by
        cases c with
        | packetsRead => exact absurd rfl stops
        | _ => simp [Count.event, cycleAt, nearFullSample, last]
      rw [silent] at many ⊢
      rw [before (by simpa using many)]
      rfl
  omega

/-- 65536 packets in an interval read as none, and nothing else says so. -/
theorem packets_wrap {h : List (Inputs g)} {last : Inputs g} (latch : last.latch = true)
    (quiet : ∀ i ∈ h, i.overflow = false ∧ i.writeEnable = false)
    (unlatched : ∀ i ∈ h, i.latch = false)
    (reads : h.countP (·.isReading) = 2 ^ 16 * g.packetWords) :
    ∃ s : Shadow g, (observe ((h ++ [last]).map (Edge.mk true))).readings = [s] ∧
      (cut Cycle.latch (cycles (h ++ [last]))).closed.map (List.countP (·.packetComplete)) =
        [2 ^ 16] ∧
      s.packetsRead = 0 ∧ s.status.getLsbD 5 = false := by
  have packet := g.packet
  have packets : (cycles h).countP (·.packetComplete) = 2 ^ 16 := by
    rw [packets_of_reads, reads]
    exact Nat.mul_div_cancel _ (by omega)
  have closed : (cut Cycle.latch (cycles (h ++ [last]))).closed = [cycles h] := by
    rw [cycles_snoc, cut_snoc, current_of_unlatched unlatched, Cut.next,
      if_pos (by simpa [cycleAt] using latch)]
    rfl
  have readings := (follows_run ((h ++ [last]).map (Edge.mk true))).readings
  rw [sinceReset_released, closed] at readings
  generalize (observe ((h ++ [last]).map (Edge.mk true))).readings = out at readings
  cases readings with
  | cons report rest =>
    cases rest
    refine ⟨_, rfl, ?_, ?_, ?_⟩
    · rw [closed, List.map_singleton, packets]
    · have shown := report.counts .packetsRead
      apply BitVec.eq_of_toNat_eq
      have events : (cycles h).countP Count.packetsRead.event = 2 ^ 16 := packets
      rw [events] at shown
      exact shown
    · have flag := report.saturated
      rw [Bool.eq_false_iff]
      exact fun bit => quiet_not_exceeded quiet (flag.mp bit)

/-- The parameters `buffer.v` gives. -/
def captureGeometry : Geometry := ⟨16384, 8192, 12288, by decide⟩

def wordRead : Inputs captureGeometry := ⟨0, false, false, true, false⟩
def latchAlone : Inputs captureGeometry := ⟨0, false, false, false, true⟩

/-- A host that lets 65536 packets go by before it reads again. -/
def longInterval : List (Inputs captureGeometry) :=
  List.replicate (2 ^ 16 * captureGeometry.packetWords) wordRead

theorem packets_wrap_unflagged : ∃ s : Shadow captureGeometry,
    (observe ((longInterval ++ [latchAlone]).map (Edge.mk true))).readings = [s] ∧
    (cut Cycle.latch (cycles (longInterval ++ [latchAlone]))).closed.map
      (List.countP (·.packetComplete)) = [2 ^ 16] ∧
    s.packetsRead = 0 ∧ s.status.getLsbD 5 = false := by
  have same : ∀ i ∈ longInterval, i = wordRead := by
    intro i mem
    exact (List.mem_replicate.mp mem).2
  apply packets_wrap rfl
  · intro i mem
    rw [same i mem]
    exact ⟨rfl, rfl⟩
  · intro i mem
    rw [same i mem]
    rfl
  · have reading : wordRead.isReading = true := rfl
    rw [longInterval, List.countP_replicate, if_pos reading]

end BufferMonitor
