import DomesdayDuplicator.Gateware.FactoryImage

/-!
# A byte between the boot loader and the flash

While the decision is not made the factory image ignores what comes in from outside, and its
run is the iterate of one function. The loader hands a byte to the bridge and waits; 65 clocks
after that the flash has taken it and the bridge holds the byte it gave back.
-/

namespace BootTurn

open ClockedCircuit FactoryImage SerialFlash
open BootLoader hiding reset clock commandRead Registers
open FlashBridge (Byte Window)

/-! ## Before the decision -/

def quietInputs : Inputs := ⟨⟨false, 0, 0⟩, false⟩

def still (content : Content) (b : Boot) : Boot := Boot.clock content quietInputs b

/-- The states in which nothing from outside is looked at. -/
def Deciding (b : Boot) : Prop :=
  bootActive b.loader = true ∧ b.loader.state ≠ .arm

variable {content : Content}

theorem clock_deciding (i : Inputs) {b : Boot} (deciding : Deciding b) :
    Boot.clock content i b = still content b := by
  obtain ⟨active, notArm⟩ := deciding
  have window : ∀ registers, b.window registers = b.loader.window := fun _ => if_pos active
  have loader : ∀ armed, BootLoader.clock (FlashBridge.dataRead b.link.bridge) b.link.bridge.busy
      armed b.loader = BootLoader.clock (FlashBridge.dataRead b.link.bridge) b.link.bridge.busy
        false b.loader := by
    intro armed
    unfold BootLoader.clock
    cases state : b.loader.state with
    | arm => exact absurd state notArm
    | _ => rfl
  rw [still, Boot.clock, Boot.clock, window, window, loader]
  rfl

theorem deciding_iff (b : Boot) : Deciding b ↔
    b.loader.state ≠ .arm ∧ b.loader.state ≠ .handOver ∧ b.loader.state ≠ .recovery := by
  rw [Deciding, bootActive]
  cases b.loader.state <;> decide

/-- Once it is made the decision stands. -/
theorem made_still {l : BootLoader.Registers} (made : l.state = .arm ∨ l.state = .handOver ∨
    l.state = .recovery) (read : Byte) (busy : Bool) :
    (BootLoader.clock read busy false l).state = l.state := by
  unfold BootLoader.clock
  rcases made with state | state | state <;> rw [state] <;> exact state

theorem deaf (content : Content) : Deaf (Boot.clock content) (still content) Deciding where
  ignores := fun i _ => clock_deciding i
  back := by
    intro b deciding
    rw [deciding_iff] at deciding ⊢
    have stays := fun made => @made_still b.loader made (FlashBridge.dataRead b.link.bridge)
      b.link.bridge.busy
    refine ⟨fun state => ?_, fun state => ?_, fun state => ?_⟩
    · exact deciding.1 ((stays (Or.inl state)).trans state)
    · exact deciding.2.1 ((stays (Or.inr (Or.inl state))).trans state)
    · exact deciding.2.2 ((stays (Or.inr (Or.inr state))).trans state)

/-! ## The bridge at work -/

/-- The clocks until a shift is over. -/
def ticks (r : FlashBridge.Registers) : Nat :=
  if r.busy then
    8 * (r.bitsRemaining.toNat - 1) + (if r.flashClockLevel then 4 else 8) - r.phaseCount.toNat
  else 0

theorem clock_ticks {w : Window} (silent : w.Silent) (flashDataIn : Bool)
    {r : FlashBridge.Registers} (busy : r.busy = true) (bits : r.bitsRemaining ≠ 0) :
    ticks (FlashBridge.clock w flashDataIn r) + 1 = ticks r ∧
      ((FlashBridge.clock w flashDataIn r).busy = true →
        (FlashBridge.clock w flashDataIn r).bitsRemaining ≠ 0) := by
  have quiet : w.write = false := silent
  have start : FlashBridge.startShift w r = false := by
    rw [FlashBridge.startShift, Window.writeDataRegister, quiet]
    rfl
  have positive : 0 < r.bitsRemaining.toNat := by bv_omega
  have phase := r.phaseCount.isLt
  rw [FlashBridge.clock_silent silent, FlashBridge.shift, start, if_neg Bool.false_ne_true,
    if_pos busy]
  split
  · rename_i full
    have last : r.phaseCount.toNat = 3 := congrArg BitVec.toNat full
    cases level : r.flashClockLevel with
    | false =>
      refine ⟨?_, fun _ => bits⟩
      rw [if_pos (show (!false) = true from rfl), ticks, ticks, if_pos busy, if_pos busy, level]
      dsimp only
      rw [last]
      simp
    | true =>
      rw [if_neg (by decide)]
      by_cases one : r.bitsRemaining = 1
      · have count : r.bitsRemaining.toNat = 1 := congrArg BitVec.toNat one
        refine ⟨?_, fun still => ?_⟩
        · rw [ticks, ticks, if_pos busy, level, last, count, one]
          rfl
        · rw [one] at still
          cases still
      · have more : r.bitsRemaining.toNat ≠ 1 := by bv_omega
        refine ⟨?_, fun _ => by dsimp only; bv_omega⟩
        rw [ticks, ticks, if_pos busy, level, last, beq_false_of_ne one]
        simp
        omega
  · rename_i short
    have next : (r.phaseCount + 1).toNat = r.phaseCount.toNat + 1 := by
      have : r.phaseCount ≠ 3 := short
      bv_omega
    refine ⟨?_, fun _ => bits⟩
    have few : r.phaseCount.toNat ≤ 2 := by
      have : r.phaseCount ≠ 3 := short
      bv_omega
    rw [ticks, ticks, if_pos busy, if_pos busy]
    dsimp only
    rw [next]
    split <;> omega

/-- A shift under way for so many clocks is not over before. -/
theorem busy_before {w : Window} (silent : w.Silent) {n k : Nat} {l : Link}
    (busy : l.bridge.busy = true) (bits : l.bridge.bitsRemaining ≠ 0)
    (clocks : ticks l.bridge = n) (before : k < n) :
    ((Link.clock content w)^[k] l).bridge.busy = true := by
  induction k generalizing l n with
  | zero => exact busy
  | succ k ih =>
    have step := clock_ticks silent l.flash.dataOut busy bits
    rw [Function.iterate_succ_apply]
    change ((Link.clock content w)^[k] (Link.clock content w l)).bridge.busy = true
    have left : 0 < ticks (Link.clock content w l).bridge := by
      change 0 < ticks (FlashBridge.clock w l.flash.dataOut l.bridge)
      omega
    have going : (Link.clock content w l).bridge.busy = true := by
      by_contra done
      rw [ticks, if_neg done] at left
      exact absurd left (Nat.lt_irrefl 0)
    exact ih going (step.2 going) rfl (by
      change k < ticks (FlashBridge.clock w l.flash.dataOut l.bridge)
      omega)

/-! ## A byte -/

/-- The states that wait for the bridge. -/
def Waits (state : State) : Prop :=
  state = .headerCommand ∨ state = .headerData ∨ state = .imageCommand ∨ state = .imageData

theorem clock_busy {l : BootLoader.Registers} (waits : Waits l.state) (read : Byte) :
    BootLoader.clock read true false l = settled true l := by
  unfold BootLoader.clock
  rcases waits with state | state | state | state <;> rw [state] <;> rfl

theorem clock_started {l : BootLoader.Registers} (waits : Waits l.state)
    (started : l.shiftStarted = true) (read : Byte) :
    BootLoader.clock read false false l = settled false l := by
  unfold BootLoader.clock
  rcases waits with state | state | state | state <;> rw [state, started] <;> rfl

theorem window_waits {l : BootLoader.Registers} (waits : Waits l.state) (link : Link)
    (registers : Window) : (⟨l, link⟩ : Boot).window registers = l.window := by
  rw [Boot.window, bootActive]
  rcases waits with state | state | state | state <;> rw [state] <;> rfl

/-- No pulse is up, and nothing is in flight. -/
structure Quiet (l : BootLoader.Registers) : Prop where
  silent : l.window.write = false
  shiftStarted : l.shiftStarted = false
  crcRestart : l.crcRestart = false
  crcValid : l.crcValid = false

theorem settled_quiet {l : BootLoader.Registers} (h : Quiet l) (busy : Bool) :
    settled busy l = l := by
  obtain ⟨silent, started, restart, valid⟩ := h
  obtain ⟨state, count, index, bytes, ⟨write, address, data⟩, shift, header, image, crcRestart,
    crcValid, crcData, read, crc⟩ := l
  dsimp only at silent started restart valid
  subst silent started restart valid
  rfl

theorem quiet_settled (l : BootLoader.Registers) : Quiet (settled true l) where
  silent := rfl
  shiftStarted := Bool.and_false _
  crcRestart := rfl
  crcValid := rfl

theorem settled_twice (l : BootLoader.Registers) (busy : Bool) :
    settled true (settled busy l) = settled true l := by
  rw [settled, settled, settled]
  simp only [Bool.not_true, Bool.and_false]
  rfl

/-- While the bridge is busy a quiet loader waits. -/
theorem waits_busy {l : BootLoader.Registers} (waits : Waits l.state) (quiet : Quiet l) {n : Nat}
    {link : Link} (busy : ∀ k < n, ((Link.clock content l.window)^[k] link).bridge.busy = true) :
    (still content)^[n] ⟨l, link⟩ = ⟨l, (Link.clock content l.window)^[n] link⟩ := by
  induction n with
  | zero => rfl
  | succ n ih =>
    rw [Function.iterate_succ_apply', ih fun k before => busy k (by omega), still, Boot.clock,
      window_waits waits, Function.iterate_succ_apply']
    dsimp only
    rw [busy n (Nat.lt_succ_self n)]
    change (⟨BootLoader.clock _ true false l, _⟩ : Boot) = _
    rw [clock_busy waits, settled_quiet quiet]

/-- The bridge between two bytes of a read. -/
structure Open (r : FlashBridge.Registers) : Prop where
  unlocked : r.unlocked = true
  selected : r.chipSelectAsserted = true
  idle : r.busy = false
  low : r.flashClockLevel = false

def after (progress : BitVec 2) (received : Byte) : FlashBridge.Registers :=
  ⟨progress, true, true, 0, false, 0, 0, received, received, false⟩

theorem open_after (progress : BitVec 2) (received : Byte) : Open (after progress received) :=
  ⟨rfl, rfl, rfl, rfl⟩

theorem shift_begins {r : FlashBridge.Registers} (h : Open r) (byte : Byte) (f : Registers) :
    Link.clock content ⟨true, bridgeData, byte⟩ ⟨r, f⟩ =
      ⟨underWay r.unlockProgress byte 0 r.receivedByte 0, f⟩ := by
  obtain ⟨unlocked, selected, idle, low⟩ := h
  obtain ⟨progress, u, cs, phase, level, bits, out, taken, received, busy⟩ := r
  dsimp only at unlocked selected idle low
  subst unlocked selected idle low
  have bridge : FlashBridge.clock ⟨true, bridgeData, byte⟩ f.dataOut
      ⟨progress, true, true, phase, false, bits, out, taken, received, false⟩ =
        underWay progress byte 0 received 0 := by
    simp [FlashBridge.clock, FlashBridge.shift, FlashBridge.startShift, Window.writeUnlock,
      Window.writeControl, Window.writeDataRegister, bridgeData, FlashBridge.addressData,
      FlashBridge.addressUnlock, FlashBridge.addressControl, underWay]
  rw [Link.clock, bridge]
  congr 1

theorem byte_turn {l : BootLoader.Registers} {r : FlashBridge.Registers} {f : Registers}
    {byte : Byte} (waits : Waits l.state) (window : l.window = ⟨true, bridgeData, byte⟩)
    (started : l.shiftStarted = true) (h : Open r) (aligned : f.bitCount % 8 = 0) :
    (still content)^[65] ⟨l, ⟨r, f⟩⟩ =
      ⟨settled true l, ⟨after r.unlockProgress (served f), takeByte content byte f⟩⟩ := by
  have first : still content ⟨l, ⟨r, f⟩⟩ =
      ⟨settled false l, ⟨underWay r.unlockProgress byte 0 r.receivedByte 0, f⟩⟩ := by
    rw [still, Boot.clock, window_waits waits, window]
    dsimp only
    rw [shift_begins h, h.idle]
    change (⟨BootLoader.clock _ false false l, _⟩ : Boot) = _
    rw [clock_started waits started]
  generalize start : underWay r.unlockProgress byte 0 r.receivedByte 0 = u at first
  have silent : (settled true l).window.Silent := rfl
  have busy : ∀ k < 64, ((Link.clock content (settled true l).window)^[k] ⟨u, f⟩).bridge.busy =
      true := by
    rw [← start]
    exact fun k before => busy_before silent rfl (by decide : (8 : BitVec 4) ≠ 0) rfl before
  have second : still content ⟨settled false l, ⟨u, f⟩⟩ =
      ⟨settled true l, Link.clock content (settled true l).window ⟨u, f⟩⟩ := by
    have waits' : Waits (settled false l).state := waits
    rw [still, Boot.clock, window_waits waits']
    dsimp only
    have now : u.busy = true := busy 0 (by decide)
    rw [now]
    change (⟨BootLoader.clock _ true false (settled false l), _⟩ : Boot) = _
    rw [clock_busy waits', settled_twice]
    rfl
  have rest := @waits_busy content (settled true l) waits (quiet_settled l) 63
    (Link.clock content (settled true l).window ⟨u, f⟩) (fun k before => by
      rw [← Function.iterate_succ_apply]
      exact busy (k + 1) (by omega))
  rw [show 65 = 63 + 1 + 1 from rfl, Function.iterate_succ_apply, first,
    Function.iterate_succ_apply, second, rest, ← Function.iterate_succ_apply, ← start,
    byte_exchanged content silent _ byte _ aligned]
  rfl

end BootTurn
