import DomesdayDuplicator.Gateware.SpiTransfer

/-!
# The port under every waveform

The three lines may do anything. What the registers hold and what leaves the module is read off
the levels that get past the input filter, transaction by transaction.
-/

namespace SpiWaveform

open InputFilter SpiRegisters SpiTransfer SerialBits
open RegisterBank (transact)

/-- What the lines say to the shift register at a clock, two edges after the filter. -/
def event (pins : Nat → Pins) (n : Nat) : Event :=
  let deselected := accepted true fun k => (pins k).spiChipSelectN
  let level := accepted false fun k => (pins k).spiClock
  if deselected (n - 2) then .released
  else if level (n - 2) && !level (n - 3) then .rise (line false (fun k => (pins k).spiMosi) (n - 1))
  else if !level (n - 2) && level (n - 3) then .fall
  else .quiet

/-- The bits of the transaction under way. -/
def current (e : Nat → Event) : Nat → List Bool
  | 0 => []
  | n + 1 =>
    match e n with
    | .released => []
    | .rise bit => current e n ++ [bit]
    | _ => current e n

def finished (e : Nat → Event) : Nat → List (List Bool)
  | 0 => []
  | n + 1 =>
    match e n with
    | .released => if current e n = [] then finished e n else finished e n ++ [current e n]
    | _ => finished e n

/-- The bytes of the transaction under way, at a clock that completes one. -/
def sent (e : Nat → Event) (n : Nat) : List Byte := completes (current e n) (e n)

/-- The registers of the bank when the transaction under way began. -/
def bankBefore (p : Parameters) (e : Nat → Event) (n : Nat) : Bank :=
  (finished e n).foldl (transact p) Bank.reset

variable {p : Parameters} {i : Nat → Inputs} {n : Nat}

def port (p : Parameters) (i : Nat → Inputs) : Nat → Registers :=
  ClockedCircuit.run (clock p) reset i

abbrev pinsOf (i : Nat → Inputs) (n : Nat) : Pins := (i n).pins

structure Hears (pins : Nat → Pins) (n : Nat) (r : Registers) : Prop where
  spiClock : Follows false (fun k => (pins k).spiClock) n r.spiClock
  spiChipSelectN : Follows true (fun k => (pins k).spiChipSelectN) n r.spiChipSelectN
  previous : r.spiClockLevelPrevious = accepted false (fun k => (pins k).spiClock) (n - 3)
  mosi0 : r.spiMosiSync0 = line false (fun k => (pins k).spiMosi) n
  mosi1 : r.spiMosiSync1 = line false (fun k => (pins k).spiMosi) (n - 1)

theorem hears (p : Parameters) (i : Nat → Inputs) (n : Nat) :
    Hears (pinsOf i) n (port p i n) := by
  induction n with
  | zero => exact ⟨⟨rfl, rfl, rfl, rfl⟩, ⟨rfl, rfl, rfl, rfl⟩, rfl, rfl, rfl⟩
  | succ n ih =>
    exact ⟨ih.spiClock.clock, ih.spiChipSelectN.clock, ih.spiClock.level, rfl, ih.mosi0⟩

theorem Hears.event {pins : Nat → Pins} {r : Registers} (h : Hears pins n r) :
    eventOf r = event pins n := by
  unfold eventOf SpiWaveform.event spiClockRising spiClockFalling
  rw [h.spiChipSelectN.level, h.spiClock.level, h.previous, h.mosi1]

theorem transfer_next (p : Parameters) (i : Nat → Inputs) (n : Nat) :
    (port p i (n + 1)).transfer =
      take p (i n).around (port p i n).transfer (event (pinsOf i) n) := by
  rw [← (hears p i n).event]
  exact clockTransfer_eq p (i n).around (port p i n)

theorem transact_nil (bank : Bank) : transact p bank [] = bank := rfl

/-! ## One edge -/

/-- A rising edge comes at a low level, a falling one at a high one. -/
theorem Hears.rising {pins : Nat → Pins} {r : Registers} {b : Bool} (h : Hears pins n r)
    (here : SpiWaveform.event pins n = .rise b) :
    r.spiClock.level = true ∧ r.spiClockLevelPrevious = false := by
  rw [← h.event, eventOf] at here
  split_ifs at here with _ rising
  simpa [spiClockRising] using rising

theorem Hears.falling {pins : Nat → Pins} {r : Registers} (h : Hears pins n r)
    (here : SpiWaveform.event pins n = .fall) :
    r.spiClock.level = false ∧ r.spiClockLevelPrevious = true := by
  rw [← h.event, eventOf] at here
  split_ifs at here with _ _ falling
  simpa [spiClockFalling] using falling

theorem Hears.resting {pins : Nat → Pins} {r : Registers} (h : Hears pins n r)
    (here : SpiWaveform.event pins n = .quiet) :
    r.spiClock.level = r.spiClockLevelPrevious := by
  rw [← h.event, eventOf] at here
  split_ifs at here with _ rising falling
  cases level : r.spiClock.level <;> cases previous : r.spiClockLevelPrevious <;>
    simp_all [spiClockRising, spiClockFalling]

/-- One edge of any waveform. -/
theorem step {e : Nat → Event} {loaded : Byte} {high level : Bool} {t : Transfer}
    {around : Surroundings} (h : Carries p (bankBefore p e n) (current e n) loaded high t)
    (rising : ∀ b, e n = .rise b → level = true ∧ high = false)
    (falling : e n = .fall → level = false ∧ high = true)
    (resting : e n = .quiet → level = high) :
    Strobes p (sent e n) (take p around t (e n)) ∧
    Carries p (bankBefore p e (n + 1)) (current e (n + 1))
      (loadedNext p around t.bank loaded (sent e n) (e n)) level (take p around t (e n)) := by
  cases here : e n with
  | released =>
    have bits : current e (n + 1) = [] := by simp only [current, here]
    have bank : bankBefore p e (n + 1) = t.bank := by
      rw [bankBefore, finished, here, h.bank, bankBefore]
      dsimp only
      split_ifs with none
      · rw [none, transact_nil]
      · rw [List.foldl_append, List.foldl_cons, List.foldl_nil]
    have nothing : sent e n = [] := by rw [sent, here]; rfl
    rw [bits, bank, nothing]
    exact ⟨strobes_release t, carries_release t level⟩
  | rise b =>
    obtain ⟨rfl, rfl⟩ := rising b here
    have bits : current e (n + 1) = current e n ++ [b] := by simp only [current, here]
    have bank : bankBefore p e (n + 1) = bankBefore p e n := by
      simp only [bankBefore, finished, here]
    have completed : sent e n = completes (current e n) (.rise b) := by rw [sent, here]
    rw [bits, bank, completed]
    exact h.rise around b
  | fall =>
    obtain ⟨rfl, rfl⟩ := falling here
    have bits : current e (n + 1) = current e n := by simp only [current, here]
    have bank : bankBefore p e (n + 1) = bankBefore p e n := by
      simp only [bankBefore, finished, here]
    have nothing : sent e n = [] := by rw [sent, here]; rfl
    rw [bits, bank, nothing]
    exact ⟨⟨rfl, rfl, (strobes_lower t).latch⟩, h.lower.fall⟩
  | quiet =>
    obtain rfl := resting here
    have bits : current e (n + 1) = current e n := by simp only [current, here]
    have bank : bankBefore p e (n + 1) = bankBefore p e n := by
      simp only [bankBefore, finished, here]
    have nothing : sent e n = [] := by rw [sent, here]; rfl
    rw [bits, bank, nothing]
    exact ⟨strobes_lower t, h.lower⟩

/-- The same edge, in a run of the port. -/
theorem port_step {loaded : Byte}
    (h : Carries p (bankBefore p (event (pinsOf i)) n) (current (event (pinsOf i)) n) loaded
      (port p i n).spiClockLevelPrevious (port p i n).transfer) :
    Strobes p (sent (event (pinsOf i)) n) (port p i (n + 1)).transfer ∧
    Carries p (bankBefore p (event (pinsOf i)) (n + 1)) (current (event (pinsOf i)) (n + 1))
      (loadedNext p (i n).around (port p i n).transfer.bank loaded (sent (event (pinsOf i)) n)
        (event (pinsOf i) n))
      (port p i (n + 1)).spiClockLevelPrevious (port p i (n + 1)).transfer := by
  have hear := hears p i n
  have previous : (port p i (n + 1)).spiClockLevelPrevious = (port p i n).spiClock.level := rfl
  rw [transfer_next, previous]
  exact step h (fun b here => hear.rising here) (fun here => hear.falling here)
    (fun here => hear.resting here)

theorem port_carries (p : Parameters) (i : Nat → Inputs) (n : Nat) : ∃ loaded,
    Carries p (bankBefore p (event (pinsOf i)) n) (current (event (pinsOf i)) n) loaded
      (port p i n).spiClockLevelPrevious (port p i n).transfer := by
  induction n with
  | zero =>
    exact ⟨0, carries_release Transfer.reset false⟩
  | succ n ih =>
    obtain ⟨loaded, h⟩ := ih
    exact ⟨_, (port_step h).2⟩

/-! ## The port is the bank -/

theorem rise_levels {pins : Nat → Pins} {b : Bool} (here : event pins n = .rise b) :
    accepted false (fun k => (pins k).spiClock) (n - 2) = true ∧
      accepted false (fun k => (pins k).spiClock) (n - 3) = false := by
  rw [event] at here
  split_ifs at here with _ rising
  simpa using rising

theorem sent_rise {e : Nat → Event} (some : sent e n ≠ []) : ∃ b, e n = .rise b ∧
    ((current e n).length + 1) % 8 = 0 := by
  rw [sent] at some
  cases here : e n with
  | rise b =>
    refine ⟨b, rfl, ?_⟩
    by_contra within
    rw [here, completes_none within] at some
    exact some rfl
  | released | fall | quiet =>
    rw [here] at some
    exact absurd rfl some

/-- No two rising edges follow each other, so a strobe lasts one clock. -/
theorem sent_once {pins : Nat → Pins} (some : sent (event pins) n ≠ []) :
    sent (event pins) (n + 1) = [] := by
  by_contra again
  obtain ⟨b, here, -⟩ := sent_rise some
  obtain ⟨c, next, -⟩ := sent_rise again
  have high := (rise_levels here).1
  have low := (rise_levels next).2
  have same : n + 1 - 3 = n - 2 := by omega
  rw [same, high] at low
  exact absurd low (by decide)

/-- Every waveform does to the registers, the window and the strobes what its transactions do to
the bank. -/
theorem port_refines (p : Parameters) (i : Nat → Inputs) (n : Nat) :
    (port p i n).transfer.bank = transact p (bankBefore p (event (pinsOf i)) n)
      (current (event (pinsOf i)) n) ∧
    Strobes p (sent (event (pinsOf i)) n) (port p i (n + 1)).transfer ∧
    (sent (event (pinsOf i)) n ≠ [] → sent (event (pinsOf i)) (n + 1) = []) := by
  obtain ⟨loaded, h⟩ := port_carries p i n
  exact ⟨h.bank, (port_step h).1, sent_once⟩

/-! ## What the master reads -/

/-- Until the next byte is complete, the byte on its way out stays what it was. -/
theorem port_loaded {m : Nat} (later : m < n) (completed : sent (event (pinsOf i)) m ≠ [])
    (within : ∀ k, m < k → k < n →
      event (pinsOf i) k ≠ .released ∧ sent (event (pinsOf i)) k = []) :
    Carries p (bankBefore p (event (pinsOf i)) n) (current (event (pinsOf i)) n)
      (respond p (i m).around (port p i m).transfer.bank (sent (event (pinsOf i)) m))
      (port p i n).spiClockLevelPrevious (port p i n).transfer := by
  induction n, later using Nat.le_induction with
  | base =>
    obtain ⟨loaded, h⟩ := port_carries p i m
    obtain ⟨b, here, -⟩ := sent_rise completed
    have after := (port_step h).2
    have loads : loadedNext p (i m).around (port p i m).transfer.bank loaded
        (sent (event (pinsOf i)) m) (event (pinsOf i) m) =
        respond p (i m).around (port p i m).transfer.bank (sent (event (pinsOf i)) m) := by
      rw [here]
      exact if_neg completed
    rwa [loads] at after
  | succ n later ih =>
    have before := ih fun k after less => within k after (Nat.lt_succ_of_lt less)
    obtain ⟨selected, nothing⟩ := within n later (Nat.lt_succ_self n)
    have after := (port_step before).2
    have keeps : ∀ loaded : Byte, loadedNext p (i n).around (port p i n).transfer.bank loaded
        (sent (event (pinsOf i)) n) (event (pinsOf i) n) = loaded := by
      intro loaded
      cases here : event (pinsOf i) n with
      | released => exact absurd here selected
      | rise | fall | quiet => exact if_pos nothing
    rwa [keeps] at after

/-- At the rising edges of a byte the master finds, bit by bit, the register that the address
pointed at when the byte before was complete. -/
theorem port_answers (p : Parameters) (i : Nat → Inputs) {m n : Nat} (later : m < n) {b : Bool}
    (completed : sent (event (pinsOf i)) m ≠ []) (here : event (pinsOf i) n = .rise b)
    (within : ∀ k, m < k → k < n →
      event (pinsOf i) k ≠ .released ∧ sent (event (pinsOf i)) k = []) :
    spiMiso (port p i n) = (respond p (i m).around (port p i m).transfer.bank
      (sent (event (pinsOf i)) m)).getMsbD ((current (event (pinsOf i)) n).length % 8) := by
  have low := ((hears p i n).rising here).2
  exact (port_loaded later completed within).miso low

/-- A master that asks for the register at address zero, four clocks a bit. -/
def identityRead (k : Nat) : Inputs :=
  ⟨⟨k / 2 % 2 == 1, decide (k < 7), false⟩, ⟨0, 0, 0, 0⟩⟩

theorem identity_second_bit : spiMiso (port ⟨0, 0, 1, true, true⟩ identityRead 42) = true := by
  have command : sent (event (pinsOf identityRead)) 34 = [0x80] := by decide +kernel
  have within : ∀ k < 42, 34 < k → event (pinsOf identityRead) k ≠ .released ∧
      sent (event (pinsOf identityRead)) k = [] := by decide +kernel
  have place : (current (event (pinsOf identityRead)) 42).length = 9 := by decide +kernel
  have answer := port_answers ⟨0, 0, 1, true, true⟩ identityRead (m := 34) (n := 42) (b := false)
    (by decide) (by rw [command]; decide) (by decide +kernel)
    (fun k after before => within k before after)
  rw [answer, command, place]
  rfl

end SpiWaveform
