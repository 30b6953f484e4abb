import DomesdayDuplicator.Firmware.FpgaRegisters

/-!
# What the register link does

However long its statements take, the firmware's pins put one bit after another into the port
and find the port's answer settled when they look. A transaction of the firmware is one of the
register bank.
-/

namespace RegisterLink

open InputFilter SpiRegisters SpiTransfer SerialBits FpgaRegisters
open RegisterBank (addressOf isRead latches pointer transact transactBytes windowWritten)

variable {p : Parameters} {w : Around} {q : Pace} {first : Bank}
  {bits : List Bool} {loaded : Byte} {m : Bool} {j : Nat} {b c d : Board}

/-! ## Levels -/

/-- Chip select and clock, `j` edges after one of them may have changed. -/
structure Levels (s₀ s c₀ c : Bool) (j : Nat) (r : Registers) : Prop where
  select : r.spiChipSelectN = Channel.toward s₀ s j
  clock : r.spiClock = Channel.toward c₀ c j
  previous : r.spiClockLevelPrevious = if j ≤ 4 then c₀ else c

variable {s₀ s c₀ k : Bool} {r : Registers}

theorem Levels.next (h : Levels s₀ s c₀ k j r) {i : Inputs} (select : i.pins.spiChipSelectN = s)
    (clock : i.pins.spiClock = k) : Levels s₀ s c₀ k (j + 1) (SpiRegisters.clock p i r) where
  select := by
    change r.spiChipSelectN.clock _ = _
    rw [h.select, select, Channel.clock_toward]
  clock := by
    change r.spiClock.clock _ = _
    rw [h.clock, clock, Channel.clock_toward]
  previous := by
    change r.spiClock.level = _
    rw [h.clock, Channel.toward_level]
    split_ifs <;> first | rfl | omega

/-- What was before is forgotten. -/
theorem Levels.late (h : Levels s₀ s c₀ k j r) (late : 5 ≤ j) (s₁ c₁ : Bool) :
    Levels s₁ s c₁ k j r where
  select := by rw [h.select, Channel.toward_late _ _ (by omega), Channel.toward_late _ _ (by omega)]
  clock := by rw [h.clock, Channel.toward_late _ _ (by omega), Channel.toward_late _ _ (by omega)]
  previous := by rw [h.previous, if_neg (by omega), if_neg (by omega)]

/-- The next change starts from rest. -/
theorem Levels.start (h : Levels s₀ s c₀ k j r) (late : 5 ≤ j) (s' k' : Bool) :
    Levels s s' k k' 0 r where
  select := by rw [h.select, Channel.toward_late _ _ (by omega)]; rfl
  clock := by rw [h.clock, Channel.toward_late _ _ (by omega)]; rfl
  previous := by rw [h.previous, if_neg (by omega), if_pos (by omega)]

theorem Levels.eventOf (h : Levels s₀ s c₀ k j r) : eventOf r =
    if (if j < 4 then s₀ else s) then .released
    else if j = 4 ∧ c₀ ≠ k then if k then .rise r.spiMosiSync1 else .fall
    else .quiet := by
  unfold SpiTransfer.eventOf spiClockRising spiClockFalling
  rw [h.select, h.clock, h.previous, Channel.toward_level, Channel.toward_level]
  rcases Nat.lt_trichotomy j 4 with before | rfl | after
  · have early : j ≤ 4 := by omega
    have other : j ≠ 4 := by omega
    simp only [before, early, other, if_true, false_and, if_false]
    cases c₀ <;> simp
  · cases c₀ <;> cases k <;> simp
  · have early : ¬ j ≤ 4 := by omega
    have later : ¬ j < 4 := by omega
    have other : j ≠ 4 := by omega
    simp only [early, later, other, if_false, false_and]
    cases k <;> simp

/-! ## What leaves the port -/

/-- From one board to a later one; `sent` is the transaction, if a byte of it was completed, and
`stamp` the clock that shows it. -/
structure Passes (p : Parameters) (sent : List Byte) (stamp : Nat) (b c : Board) : Prop where
  window : c.window = b.window ++ (windowWritten sent).toList.map fun w => (stamp, w)
  latches : c.latches = b.latches ++ if latches p sent then [stamp] else []
  time : b.time ≤ c.time

abbrev Quiet (p : Parameters) (b c : Board) : Prop := Passes p [] 0 b c

theorem Quiet.window_eq (h : Quiet p b c) : c.window = b.window :=
  h.window.trans (List.append_nil _)

theorem Quiet.latches_eq (h : Quiet p b c) : c.latches = b.latches := by
  rw [h.latches]
  simp [RegisterBank.latches]

theorem Quiet.of_eq (window : c.window = b.window) (latches : c.latches = b.latches)
    (time : b.time ≤ c.time) : Quiet p b c :=
  ⟨window.trans (List.append_nil _).symm, by rw [latches]; simp [RegisterBank.latches], time⟩

theorem Quiet.refl (b : Board) : Quiet p b b := .of_eq rfl rfl (Nat.le_refl _)

variable {sent : List Byte} {stamp : Nat}

theorem Quiet.trans (first : Quiet p b c) (second : Passes p sent stamp c d) :
    Passes p sent stamp b d :=
  ⟨first.window_eq ▸ second.window, first.latches_eq ▸ second.latches,
    first.time.trans second.time⟩

theorem Passes.then_quiet (first : Passes p sent stamp b c) (second : Quiet p c d) :
    Passes p sent stamp b d :=
  ⟨second.window_eq.trans first.window, second.latches_eq.trans first.latches,
    first.time.trans second.time⟩

/-- Pins and statements are the firmware's own. -/
theorem Passes.start {pins : Pins} {n : Nat}
    (h : Passes p sent stamp { b with pins := pins, statements := n } c) :
    Passes p sent stamp b c :=
  ⟨h.window, h.latches, h.time⟩

theorem tick_transfer (b : Board) : (tick p w b).port.transfer =
    take p (seen w b) b.port.transfer (eventOf b.port) :=
  clockTransfer_eq p (seen w b) b.port

theorem tick_passes
    (strobes : Strobes p sent (take p (seen w b) b.port.transfer (eventOf b.port))) :
    Passes p sent (b.time + 1) b (tick p w b) where
  window := by
    change b.window ++ (windowOf (tick p w b).port.transfer).toList.map _ = _
    rw [tick_transfer, strobes.window]
  latches := by
    change b.latches ++ (if (tick p w b).port.transfer.telemetryLatchPulse then _ else _) = _
    rw [tick_transfer, strobes.latch]
  time := Nat.le_succ _

theorem tick_quiet
    (strobes : Strobes p [] (take p (seen w b) b.port.transfer (eventOf b.port))) :
    Quiet p b (tick p w b) := by
  have passes := tick_passes strobes
  exact .of_eq (passes.window.trans (List.append_nil _))
    (by rw [passes.latches]; simp [RegisterBank.latches]) passes.time

theorem clocks_add (n k : Nat) (b : Board) :
    clocks p w (n + k) b = clocks p w k (clocks p w n b) := by
  induction n generalizing b with
  | zero => rw [Nat.zero_add]; rfl
  | succ n ih => rw [Nat.succ_add]; exact ih (tick p w b)

theorem clocks_time (n : Nat) (b : Board) : (clocks p w n b).time = b.time + n := by
  induction n generalizing b with
  | zero => rfl
  | succ n ih =>
    rw [clocks, ih]
    change b.time + 1 + n = _
    omega

theorem clocks_pins (n : Nat) (b : Board) : (clocks p w n b).pins = b.pins := by
  induction n generalizing b with
  | zero => rfl
  | succ n ih => rw [clocks, ih]; rfl

/-- Chip select low and the clock low, `j` edges after it fell. -/
structure Low (p : Parameters) (first : Bank) (bits : List Bool) (loaded : Byte) (j : Nat)
    (b : Board) : Prop where
  select : b.pins.spiChipSelectN = false
  clock : b.pins.spiClock = false
  levels : Levels false false true false j b.port
  carries : Carries p first bits loaded (decide (j ≤ 4)) b.port.transfer

theorem Low.ticks (h : Low p first bits loaded j b) :
    Low p first bits loaded (j + 1) (tick p w b) ∧ Quiet p b (tick p w b) := by
  have event := h.levels.eventOf
  have levels : Levels false false true false (j + 1) (tick p w b).port :=
    h.levels.next h.select h.clock
  by_cases now : j = 4
  · subst now
    have falls : eventOf b.port = .fall := event
    refine ⟨⟨h.select, h.clock, levels, ?_⟩, tick_quiet ?_⟩
    · rw [tick_transfer, falls]
      exact h.carries.lower.fall
    · rw [falls]
      exact ⟨rfl, rfl, (strobes_lower b.port.transfer).latch⟩
  · have quiet : eventOf b.port = .quiet := by
      rw [event, if_neg (by split_ifs <;> decide), if_neg fun both => now both.1]
    have same : decide (j + 1 ≤ 4) = decide (j ≤ 4) := decide_eq_decide.2 (by omega)
    refine ⟨⟨h.select, h.clock, levels, ?_⟩, tick_quiet ?_⟩
    · rw [tick_transfer, quiet, same]
      exact h.carries.lower
    · rw [quiet]
      exact strobes_lower _

theorem Low.holds (h : Low p first bits loaded j b) (n : Nat) :
    Low p first bits loaded (j + n) (clocks p w n b) ∧
      Quiet p b (clocks p w n b) := by
  induction n generalizing b j with
  | zero => exact ⟨h, Quiet.refl b⟩
  | succ n ih =>
    obtain ⟨next, passes⟩ := h.ticks (w := w)
    obtain ⟨last, rest⟩ := ih next
    have count : j + (n + 1) = j + 1 + n := by omega
    exact ⟨count ▸ last, passes.trans rest⟩

/-! ## A bit -/

/-- Chip select low and the clock high, which the port has not seen yet. -/
structure Rising (p : Parameters) (first : Bank) (bits : List Bool) (loaded : Byte) (m : Bool)
    (j : Nat) (b : Board) : Prop where
  select : b.pins.spiChipSelectN = false
  clock : b.pins.spiClock = true
  mosi : b.pins.spiMosi = m
  mosi0 : b.port.spiMosiSync0 = m
  mosi1 : b.port.spiMosiSync1 = m
  levels : Levels false false false true j b.port
  carries : Carries p first bits loaded false b.port.transfer

structure Risen (p : Parameters) (first : Bank) (bits : List Bool) (loaded : Byte) (j : Nat)
    (b : Board) : Prop where
  select : b.pins.spiChipSelectN = false
  clock : b.pins.spiClock = true
  levels : Levels false false false true j b.port
  carries : Carries p first bits loaded true b.port.transfer

theorem clocks_succ (n : Nat) (b : Board) :
    clocks p w (n + 1) b = tick p w (clocks p w n b) := clocks_add n 1 b

theorem Rising.ticks (h : Rising p first bits loaded m j b) (early : j < 4) :
    Rising p first bits loaded m (j + 1) (tick p w b) ∧ Quiet p b (tick p w b) ∧
      (tick p w b).port.transfer.misoOut = b.port.transfer.misoOut := by
  have levels : Levels false false false true (j + 1) (tick p w b).port :=
    h.levels.next h.select h.clock
  have quiet : eventOf b.port = .quiet := by
    rw [h.levels.eventOf, if_neg (by split_ifs <;> decide), if_neg fun both => by omega]
  refine ⟨⟨h.select, h.clock, h.mosi, h.mosi, h.mosi0, levels, ?_⟩, tick_quiet ?_, ?_⟩
  · rw [tick_transfer, quiet]
    exact h.carries.lower
  · rw [quiet]
    exact strobes_lower _
  · rw [tick_transfer, quiet]
    rfl

/-- The edge at which the port takes the bit. -/
theorem Rising.takes (h : Rising p first bits loaded m 4 b) :
    Risen p first (bits ++ [m])
      (loadedNext p (seen w b) b.port.transfer.bank loaded (completes bits (.rise m))
        (.rise m)) 5 (tick p w b) ∧
    Passes p (completes bits (.rise m)) (b.time + 1) b (tick p w b) ∧
    (tick p w b).port.transfer.misoOut = b.port.transfer.misoOut := by
  have levels : Levels false false false true 5 (tick p w b).port :=
    h.levels.next h.select h.clock
  have rises : eventOf b.port = .rise m := by
    have event := h.levels.eventOf
    rw [h.mosi1] at event
    exact event
  obtain ⟨strobes, carries⟩ := h.carries.rise (seen w b) m
  refine ⟨⟨h.select, h.clock, levels, ?_⟩, tick_passes ?_, ?_⟩
  · rw [tick_transfer, rises]
    exact carries
  · rw [rises]
    exact strobes
  · rw [tick_transfer, rises]
    exact takeBit_miso m b.port.transfer.lower

theorem Risen.ticks (h : Risen p first bits loaded j b) (late : 5 ≤ j) :
    Risen p first bits loaded (j + 1) (tick p w b) ∧ Quiet p b (tick p w b) ∧
      (tick p w b).port.transfer.misoOut = b.port.transfer.misoOut := by
  have levels : Levels false false false true (j + 1) (tick p w b).port :=
    h.levels.next h.select h.clock
  have quiet : eventOf b.port = .quiet := by
    rw [h.levels.eventOf, if_neg (by split_ifs <;> decide), if_neg fun both => by omega]
  refine ⟨⟨h.select, h.clock, levels, ?_⟩, tick_quiet ?_, ?_⟩
  · rw [tick_transfer, quiet]
    exact h.carries.lower
  · rw [quiet]
    exact strobes_lower _
  · rw [tick_transfer, quiet]
    rfl

/-- Up to the fifth edge the port has not taken the bit. -/
theorem Rising.waits (h : Rising p first bits loaded m 0 b) {n : Nat} (few : n ≤ 4) :
    Rising p first bits loaded m n (clocks p w n b) ∧
      Quiet p b (clocks p w n b) ∧
      (clocks p w n b).port.transfer.misoOut = b.port.transfer.misoOut := by
  induction n with
  | zero => exact ⟨h, Quiet.refl b, rfl⟩
  | succ n ih =>
    obtain ⟨before, passes, miso⟩ := ih (by omega)
    obtain ⟨next, last, same⟩ := before.ticks (w := w) (by omega)
    rw [clocks_succ]
    exact ⟨next, passes.trans last, same.trans miso⟩

/-- From the fifth edge on it has, once. -/
theorem Rising.rises (h : Rising p first bits loaded m 0 b) {n : Nat} (enough : 5 ≤ n) :
    Risen p first (bits ++ [m])
      (loadedNext p (w (b.time + 4) b.window b.latches) (transact p first bits) loaded
        (completes bits (.rise m)) (.rise m)) n (clocks p w n b) ∧
    Passes p (completes bits (.rise m)) (b.time + 5) b (clocks p w n b) ∧
    (clocks p w n b).port.transfer.misoOut = b.port.transfer.misoOut := by
  induction n, enough using Nat.le_induction with
  | base =>
    obtain ⟨before, passes, miso⟩ := h.waits (w := w) (Nat.le_refl 4)
    obtain ⟨taken, strobes, same⟩ := before.takes (w := w)
    have time : (clocks p w 4 b).time = b.time + 4 := clocks_time 4 b
    have here : seen w (clocks p w 4 b) = w (b.time + 4) b.window b.latches := by
      rw [seen, time, passes.window_eq, passes.latches_eq]
    rw [before.carries.bank, here] at taken
    rw [time] at strobes
    rw [clocks_succ]
    exact ⟨taken, passes.trans strobes, same.trans miso⟩
  | succ n enough ih =>
    obtain ⟨before, passes, miso⟩ := ih
    obtain ⟨next, last, same⟩ := before.ticks (w := w) enough
    rw [clocks_succ]
    exact ⟨next, passes.then_quiet last, same.trans miso⟩

/-- Whenever the firmware looks, the output is still the bit that the last falling edge put out. -/
theorem Rising.answers (h : Rising p first bits loaded m 0 b) (n : Nat) :
    spiMiso (clocks p w n b).port = loaded.getMsbD (bits.length % 8) := by
  have start : b.port.transfer.misoOut = loaded.getMsbD (bits.length % 8) := h.carries.miso rfl
  rcases Nat.lt_or_ge n 5 with few | many
  · exact (h.waits (by omega)).2.2.trans start
  · exact (h.rises many).2.2.trans start

theorem clocks_mosi {n : Nat} (enough : 2 ≤ n) (b : Board) :
    (clocks p w n b).port.spiMosiSync0 = b.pins.spiMosi ∧
      (clocks p w n b).port.spiMosiSync1 = b.pins.spiMosi := by
  obtain ⟨k, rfl⟩ := Nat.exists_eq_add_of_le' enough
  have pins : (clocks p w k b).pins = b.pins := clocks_pins k b
  have more : (clocks p w (k + 1) b).pins = b.pins := clocks_pins (k + 1) b
  rw [clocks_succ, clocks_succ] at *
  exact ⟨congrArg Pins.spiMosi more, congrArg Pins.spiMosi pins⟩

theorem clocks_statements (n k : Nat) (b : Board) :
    clocks p w n { b with statements := k } = { clocks p w n b with statements := k } := by
  induction n generalizing b with
  | zero => rfl
  | succ n ih => exact ih (tick p w b)

/-- Setting the data line leaves the clock where it is. -/
theorem Low.setMosi (h : Low p first bits loaded j b) (m : Bool) :
    ∃ k, Low p first bits loaded k (setValue p w q { b.pins with spiMosi := m } b) ∧
      Quiet p b (setValue p w q { b.pins with spiMosi := m } b) := by
  have same : Low p first bits loaded j
      { b with pins := { b.pins with spiMosi := m }, statements := b.statements + 1 } :=
    ⟨h.select, h.clock, h.levels, h.carries⟩
  obtain ⟨low, passes⟩ := same.holds (w := w) (q.edge b.statements)
  exact ⟨_, low, passes.start⟩

theorem Low.waits (h : Low p first bits loaded j b) :
    ∃ k, 5 ≤ k ∧ Low p first bits loaded k (busyWait p w q b) ∧
      Quiet p b (busyWait p w q b) ∧
      b.time + 6 ≤ (busyWait p w q b).time := by
  have same : Low p first bits loaded j { b with statements := b.statements + 1 } :=
    ⟨h.select, h.clock, h.levels, h.carries⟩
  obtain ⟨low, passes⟩ := same.holds (w := w) (q.wait b.statements)
  have settles := q.settles b.statements
  have time : (busyWait p w q b).time = b.time + q.wait b.statements := clocks_time _ _
  exact ⟨_, by omega, low, passes.start, by omega⟩

theorem busyWait_mosi (b : Board) :
    (busyWait p w q b).pins = b.pins ∧
    (busyWait p w q b).port.spiMosiSync0 = b.pins.spiMosi ∧
    (busyWait p w q b).port.spiMosiSync1 = b.pins.spiMosi := by
  have settles := q.settles b.statements
  exact ⟨clocks_pins _ _, clocks_mosi (by omega) _⟩

/-- One bit each way, which the port takes no sooner than `setup` clocks after the start and
before the next one. -/
structure Exchanged (p : Parameters) (w : Around) (first : Bank)
    (bits : List Bool) (loaded : Byte) (m : Bool) (setup : Nat) (b c : Board) : Prop where
  low : ∃ j time, b.time + setup ≤ time ∧ time < c.time ∧ Low p first (bits ++ [m])
    (loadedNext p (w time b.window b.latches) (transact p first bits) loaded
      (completes bits (.rise m)) (.rise m)) j c ∧ Passes p (completes bits (.rise m)) (time + 1) b c
  time : b.time + setup + 2 ≤ c.time

theorem Exchanged.later {setup n : Nat} (quiet : Quiet p b c)
    (time : b.time + n ≤ c.time) (h : Exchanged p w first bits loaded m setup c d) :
    Exchanged p w first bits loaded m (n + setup) b d := by
  obtain ⟨⟨j, taken, after, before, low, passes⟩, long⟩ := h
  rw [quiet.window_eq, quiet.latches_eq] at low
  exact ⟨⟨j, taken, by omega, before, low, quiet.trans passes⟩, by omega⟩

theorem Risen.falls (h : Risen p first bits loaded j b) (late : 5 ≤ j) (n k : Nat) :
    Low p first bits loaded 0
      { ({ b with statements := n } : Board) with
        pins := { ({ b with statements := n } : Board).pins with spiClock := false }
        statements := k } :=
  ⟨h.select, rfl, h.levels.start late false false, h.carries⟩

/-- The clock goes up, the firmware looks, waits, and the clock goes down again. -/
theorem Low.pulse (h : Low p first bits loaded j b) (late : 5 ≤ j) (mosi : b.pins.spiMosi = m)
    (mosi0 : b.port.spiMosiSync0 = m) (mosi1 : b.port.spiMosiSync1 = m) :
    let up := setValue p w q { b.pins with spiClock := true } b
    let held := busyWait p w q up
    let down := setValue p w q { held.pins with spiClock := false } held
    spiMiso up.port = loaded.getMsbD (bits.length % 8) ∧
      Exchanged p w first bits loaded m 4 b down := by
  intro up held down
  have settled : decide (j ≤ 4) = false := decide_eq_false (by omega)
  have rising : Rising p first bits loaded m 0
      { b with pins := { b.pins with spiClock := true }, statements := b.statements + 1 } :=
    ⟨h.select, rfl, mosi, mosi0, mosi1, h.levels.start late false true, settled ▸ h.carries⟩
  have held_is : held = { clocks p w (q.edge b.statements + q.wait up.statements)
      { b with pins := { b.pins with spiClock := true }, statements := b.statements + 1 } with
      statements := up.statements + 1 } := by
    rw [clocks_add]
    exact clocks_statements _ _ _
  have settles := q.settles up.statements
  obtain ⟨risen, passes, -⟩ := rising.rises (w := w)
    (n := q.edge b.statements + q.wait up.statements) (by omega)
  have time := clocks_time (p := p) (w := w)
    (q.edge b.statements + q.wait up.statements)
    { b with pins := { b.pins with spiClock := true }, statements := b.statements + 1 }
  generalize clocks p w (q.edge b.statements + q.wait up.statements)
    { b with pins := { b.pins with spiClock := true }, statements := b.statements + 1 } = c at *
  have low := risen.falls (by omega) (up.statements + 1) (held.statements + 1)
  rw [← held_is] at low
  obtain ⟨last, still⟩ := low.holds (w := w) (q.edge held.statements)
  have held_passes : Passes p (completes bits (.rise m)) (b.time + 4 + 1) b held := by
    rw [held_is]
    exact ⟨passes.window, passes.latches, passes.time⟩
  have held_time : held.time = c.time := by rw [held_is]
  have after : held.time ≤ down.time := still.time
  change c.time = b.time + _ at time
  exact ⟨rising.answers _, ⟨_, b.time + 4, Nat.le_refl _, by omega, last,
    held_passes.then_quiet still.start⟩, by omega⟩

theorem transferBit_exchanges (low : Low p first bits loaded j b) (send : Byte) (bit : Nat)
    (received : Byte) :
    Exchanged p w first bits loaded (send.getLsbD bit) 10 b
      (transferBit p w q send bit (received, b)).2 ∧
    (transferBit p w q send bit (received, b)).1 =
      if loaded.getMsbD (bits.length % 8) then received ||| (1#8 <<< bit) else received := by
  obtain ⟨k, set, first_passes⟩ :=
    low.setMosi (w := w) (q := q) (send.getLsbD bit)
  obtain ⟨n, late, ready, second_passes, waited⟩ := set.waits (w := w) (q := q)
  obtain ⟨pins, mosi0, mosi1⟩ := busyWait_mosi (p := p) (w := w) (q := q)
    (setValue p w q { b.pins with spiMosi := send.getLsbD bit } b)
  have held : (setValue p w q { b.pins with spiMosi := send.getLsbD bit } b).pins.spiMosi =
      send.getLsbD bit := congrArg Pins.spiMosi (clocks_pins _ _)
  obtain ⟨answer, exchanged⟩ :=
    ready.pulse (w := w) (q := q) late (pins ▸ held) (mosi0.trans held)
      (mosi1.trans held)
  have quiet := first_passes.trans second_passes
  have began := first_passes.time
  refine ⟨exchanged.later (n := 6) quiet (by omega), ?_⟩
  rw [← answer]
  rfl

/-! ## A byte -/

/-- The bits below the `n`-th, from the top down. -/
def topDown (send : Byte) : Nat → List Bool
  | 0 => []
  | n + 1 => send.getLsbD n :: topDown send n

/-- The same bits of the answer, put where they belong. -/
def gather (answer : Byte) : Nat → Byte → Byte
  | 0, received => received
  | n + 1, received =>
    gather answer n (if answer.getLsbD n then received ||| (1#8 <<< n) else received)

theorem gather_all (answer : Byte) : gather answer 8 0 = answer := by
  have every : ∀ x : Byte, gather x 8 0 = x := by decide +kernel
  exact every answer

theorem getMsbD_place {n i : Nat} (place : i + (n + 1) = 8) (x : Byte) :
    x.getMsbD i = x.getLsbD n := by
  have low : 8 - 1 - i = n := by omega
  have within : i < 8 := by omega
  rw [BitVec.getMsbD, decide_eq_true within, Bool.true_and, low]

theorem transact_within (within : (bits.length + 1) % 8 ≠ 0) :
    transact p first (bits ++ [m]) = transact p first bits := by
  rw [transact, transact, bytes_snoc_within within]

theorem transferBits_exchanges {n : Nat} (low : Low p first bits loaded j b)
    (place : bits.length % 8 + (n + 1) = 8) (send received : Byte) :
    (transferBits p w q send (n + 1) (received, b)).1 =
      gather loaded (n + 1) received ∧
    ∃ k time, b.time + 12 * n + 10 ≤ time ∧
      time < (transferBits p w q send (n + 1) (received, b)).2.time ∧
      Low p first (bits ++ topDown send (n + 1))
        (respond p (w time b.window b.latches) (transact p first bits)
          (bytes (bits ++ topDown send (n + 1)))) k
        (transferBits p w q send (n + 1) (received, b)).2 ∧
      Passes p (bytes (bits ++ topDown send (n + 1))) (time + 1) b
        (transferBits p w q send (n + 1) (received, b)).2 := by
  induction n generalizing bits loaded j b received with
  | zero =>
    obtain ⟨⟨⟨k, time, after, before, there, passes⟩, -⟩, answer⟩ :=
      transferBit_exchanges (w := w) (q := q) low send 0 received
    have full : (bits.length + 1) % 8 = 0 := by omega
    have some : bytes (bits ++ [send.getLsbD 0]) ≠ [] := by
      rw [bytes_snoc_full full]
      simp
    have loads : loadedNext p (w time b.window b.latches) (transact p first bits) loaded
        (bytes (bits ++ [send.getLsbD 0])) (.rise (send.getLsbD 0)) =
        respond p (w time b.window b.latches) (transact p first bits)
          (bytes (bits ++ [send.getLsbD 0])) := if_neg some
    rw [completes_some full] at there passes
    rw [loads] at there
    rw [getMsbD_place place] at answer
    exact ⟨answer, k, time, after, before, there, passes⟩
  | succ n ih =>
    obtain ⟨⟨⟨k, time, after, before, there, passes⟩, long⟩, answer⟩ :=
      transferBit_exchanges (w := w) (q := q) low send (n + 1) received
    have within : (bits.length + 1) % 8 ≠ 0 := by omega
    have loads : loadedNext p (w time b.window b.latches) (transact p first bits) loaded []
        (.rise (send.getLsbD (n + 1))) = loaded := rfl
    rw [completes_none within] at there passes
    rw [loads] at there
    rw [getMsbD_place place] at answer
    have quiet : Quiet p b (transferBit p w q send (n + 1) (received, b)).2 :=
      .of_eq (passes.window.trans (List.append_nil _))
        (by rw [passes.latches]; simp [RegisterBank.latches]) passes.time
    have length : (bits ++ [send.getLsbD (n + 1)]).length = bits.length + 1 := by
      rw [List.length_append, List.length_singleton]
    obtain ⟨rest_answer, l, last, late, early, low', rest⟩ :=
      ih there (by rw [length]; omega)
        (transferBit p w q send (n + 1) (received, b)).1
    rw [List.append_assoc, List.singleton_append, transact_within within, quiet.window_eq,
      quiet.latches_eq] at low'
    rw [List.append_assoc, List.singleton_append] at rest
    exact ⟨rest_answer.trans (congrArg (gather loaded (n + 1)) answer), l, last, by omega, early,
      low', quiet.trans rest⟩

/-- Between two bytes of a transaction of which `sent` has been sent. -/
structure Between (p : Parameters) (first : Bank) (sent : List Byte) (loaded : Byte) (b : Board) :
    Prop where
  low : ∃ bits j, bits.length % 8 = 0 ∧ bytes bits = sent ∧ Low p first bits loaded j b

/-- One byte each way: the one received was settled before, the one to come is settled now. -/
structure Sends (p : Parameters) (w : Around) (first : Bank) (sent : List Byte)
    (b c : Board) : Prop where
  next : ∃ time, b.time + 94 ≤ time ∧ time < c.time ∧
    Between p first sent
      (respond p (w time b.window b.latches) (transactBytes p first sent.dropLast) sent) c ∧
    Passes p sent (time + 1) b c

theorem transferByte_sends (between : Between p first sent loaded b) (send : Byte) :
    (transferByte p w q send b).1 = loaded ∧
      Sends p w first (sent ++ [send]) b (transferByte p w q send b).2 := by
  obtain ⟨bits, j, whole, rfl, low⟩ := between.low
  obtain ⟨answer, k, time, after, before, there, passes⟩ :=
    transferBits_exchanges (w := w) (q := q) (n := 7) low (by omega) send 0
  have all : topDown send 8 = bitsOf send := rfl
  have grown : bytes (bits ++ bitsOf send) = bytes bits ++ [send] :=
    bytes_append_bitsOf whole send
  rw [all, grown] at there passes
  refine ⟨answer.trans (gather_all loaded), time, after, before, ⟨_, k, ?_, grown, ?_⟩, passes⟩
  · rw [List.length_append, length_bitsOf]
    omega
  · rw [List.dropLast_concat]
    exact there

/-! ## Chip select -/

/-- Deselected, `j` edges ago. -/
structure Deselected (bank : Bank) (s₀ : Bool) (j : Nat) (b : Board) : Prop where
  select : b.pins.spiChipSelectN = true
  clock : b.pins.spiClock = false
  levels : Levels s₀ true false false j b.port
  bank : b.port.transfer.bank = bank

/-- Between transactions. -/
def Idle (b : Board) : Prop := ∃ j, 5 ≤ j ∧ Deselected b.port.transfer.bank true j b

variable {bank : Bank}

theorem Deselected.ticks (h : Deselected bank s₀ j b) :
    Deselected bank s₀ (j + 1) (tick p w b) ∧ Quiet p b (tick p w b) := by
  have levels : Levels s₀ true false false (j + 1) (tick p w b).port :=
    h.levels.next h.select h.clock
  have still : eventOf b.port = .released ∨ eventOf b.port = .quiet := by
    have same : ¬(j = 4 ∧ false ≠ false) := fun both => both.2 rfl
    rw [h.levels.eventOf, if_neg same]
    exact ite_eq_or_eq _ _ _
  have transfer := tick_transfer (p := p) (w := w) b
  rcases still with released | quiet
  · rw [released] at transfer
    refine ⟨⟨h.select, h.clock, levels, by rw [transfer]; exact h.bank⟩, tick_quiet ?_⟩
    rw [released]
    exact strobes_release _
  · rw [quiet] at transfer
    refine ⟨⟨h.select, h.clock, levels, by rw [transfer]; exact h.bank⟩, tick_quiet ?_⟩
    rw [quiet]
    exact strobes_lower _

theorem Deselected.holds (h : Deselected bank s₀ j b) (n : Nat) :
    Deselected bank s₀ (j + n) (clocks p w n b) ∧ Quiet p b (clocks p w n b) := by
  induction n generalizing b j with
  | zero => exact ⟨h, Quiet.refl b⟩
  | succ n ih =>
    obtain ⟨next, passes⟩ := h.ticks (w := w)
    obtain ⟨last, rest⟩ := ih next
    have count : j + (n + 1) = j + 1 + n := by omega
    exact ⟨count ▸ last, passes.trans rest⟩

/-- Selected; the port clears the last transaction until it sees it. -/
structure Selecting (p : Parameters) (bank : Bank) (j : Nat) (b : Board) : Prop where
  select : b.pins.spiChipSelectN = false
  clock : b.pins.spiClock = false
  levels : Levels true false false false j b.port
  carries : 1 ≤ j → Carries p bank [] 0 false b.port.transfer
  bank : b.port.transfer.bank = bank

theorem Selecting.ticks (h : Selecting p bank j b) :
    Selecting p bank (j + 1) (tick p w b) ∧ Quiet p b (tick p w b) := by
  have levels : Levels true false false false (j + 1) (tick p w b).port :=
    h.levels.next h.select h.clock
  have transfer := tick_transfer (p := p) (w := w) b
  by_cases early : j < 4
  · have released : eventOf b.port = .released := by
      rw [h.levels.eventOf, if_pos early, if_pos rfl]
    rw [released] at transfer
    refine ⟨⟨h.select, h.clock, levels, ?_, by rw [transfer]; exact h.bank⟩, tick_quiet ?_⟩
    · intro _
      rw [transfer, ← h.bank]
      exact carries_release b.port.transfer false
    · rw [released]
      exact strobes_release _
  · have quiet : eventOf b.port = .quiet := by
      rw [h.levels.eventOf, if_neg early, if_neg (by decide), if_neg fun both => both.2 rfl]
    rw [quiet] at transfer
    refine ⟨⟨h.select, h.clock, levels, ?_, by rw [transfer]; exact h.bank⟩, tick_quiet ?_⟩
    · intro _
      rw [transfer]
      exact (h.carries (by omega)).lower
    · rw [quiet]
      exact strobes_lower _

theorem Selecting.holds (h : Selecting p bank j b) (n : Nat) :
    Selecting p bank (j + n) (clocks p w n b) ∧ Quiet p b (clocks p w n b) := by
  induction n generalizing b j with
  | zero => exact ⟨h, Quiet.refl b⟩
  | succ n ih =>
    obtain ⟨next, passes⟩ := h.ticks (w := w)
    obtain ⟨last, rest⟩ := ih next
    have count : j + (n + 1) = j + 1 + n := by omega
    exact ⟨count ▸ last, passes.trans rest⟩

theorem selectFpga_begins (idle : Idle b) :
    Between p b.port.transfer.bank [] 0 (selectFpga p w q b) ∧
      Quiet p b (selectFpga p w q b) := by
  obtain ⟨j, late, h⟩ := idle
  have start : Selecting p b.port.transfer.bank 0
      { b with pins := { b.pins with spiChipSelectN := false },
               statements := b.statements + 1 } :=
    ⟨rfl, h.clock, h.levels.start late false false, fun some => absurd some (by decide), rfl⟩
  obtain ⟨set, first_passes⟩ := start.holds (w := w) (q.edge b.statements)
  have waiting : Selecting p b.port.transfer.bank (0 + q.edge b.statements)
      { setValue p w q { b.pins with spiChipSelectN := false } b with
        statements :=
          (setValue p w q { b.pins with spiChipSelectN := false } b).statements + 1 } :=
    ⟨set.select, set.clock, set.levels, set.carries, set.bank⟩
  obtain ⟨done, second_passes⟩ := waiting.holds (w := w)
    (q.wait (setValue p w q { b.pins with spiChipSelectN := false } b).statements)
  have settles := q.settles
    (setValue p w q { b.pins with spiChipSelectN := false } b).statements
  have carries := done.carries (by omega)
  refine ⟨⟨[], _, rfl, rfl, done.select, done.clock, done.levels.late (by omega) false true, ?_⟩,
    Quiet.trans first_passes.start second_passes.start⟩
  rw [decide_eq_false (by omega)]
  exact carries

theorem deselectFpga_ends {sent : List Byte} (between : Between p first sent loaded b) :
    Idle (deselectFpga p w q b) ∧
      (deselectFpga p w q b).port.transfer.bank = transactBytes p first sent ∧
      Quiet p b (deselectFpga p w q b) := by
  obtain ⟨bits, j, -, rfl, low⟩ := between.low
  obtain ⟨k, late, waited, first_passes, -⟩ := low.waits (w := w) (q := q)
  have start : Deselected (transactBytes p first (bytes bits)) false 0
      { busyWait p w q b with
        pins := { (busyWait p w q b).pins with spiChipSelectN := true }
        statements := (busyWait p w q b).statements + 1 } :=
    ⟨rfl, waited.clock, waited.levels.start late true false, waited.carries.bank⟩
  obtain ⟨set, second_passes⟩ :=
    start.holds (w := w) (q.edge (busyWait p w q b).statements)
  generalize up_is : setValue p w q
    { (busyWait p w q b).pins with spiChipSelectN := true } (busyWait p w q b) = up
  have deselected : Deselected (transactBytes p first (bytes bits)) false
      (0 + q.edge (busyWait p w q b).statements)
      { up with statements := up.statements + 1 } := by
    rw [← up_is]
    exact ⟨set.select, set.clock, set.levels, set.bank⟩
  obtain ⟨done, third_passes⟩ := deselected.holds (w := w) (q.wait up.statements)
  have settles := q.settles up.statements
  have is : deselectFpga p w q b =
      clocks p w (q.wait up.statements) { up with statements := up.statements + 1 } := by
    rw [← up_is]
    rfl
  have up_passes : Quiet p (busyWait p w q b) up := by
    rw [← up_is]
    exact second_passes.start
  rw [is]
  refine ⟨⟨_, ?_, done.select, done.clock, done.levels.late ?_ true false, rfl⟩, done.bank, ?_⟩
  · exact Nat.le_add_left_of_le (by omega)
  · exact Nat.le_add_left_of_le (by omega)
  · exact first_passes.trans (up_passes.trans third_passes.start)

end RegisterLink
