import DomesdayDuplicator.Gateware.BootReading

/-!
# What the boot loader decides

From power-on, for every content of the flash and whatever comes in meanwhile: the image is
armed and entered, or the device stays in the recovery state, as the boot block and the image
say. The write that locks the bridge again reaches it on the way to the image only: in the
recovery state the window is the register bank's at the edge at which the write is there.
-/

namespace BootDecision

open ClockedCircuit ByteLanes FactoryImage SerialFlash BootTurn BootBlock BootReading
open BootLoader hiding reset clock commandRead Registers
open FlashBridge (Byte Window)

/-! ## What the flash says -/

variable (content : Content)

def address : Nat :=
  little [block content 8, block content 9, block content 10, block content 11]

def length : Nat :=
  little [block content 12, block content 13, block content 14, block content 15]

/-- The bytes the block calls the image, through the flash's own address counter. -/
def image : List Byte :=
  (List.range (length content)).map fun k => content (BitVec.ofNat 24 (address content + k))

/-- The block and the image it describes are what the loader asks for. -/
structure Bootable : Prop where
  magic : little [block content 3, block content 2, block content 1, block content 0] = 0x44444242
  version : little [block content 4, block content 5] = 1
  some : length content ≠ 0
  device : address content < 2 ^ 23
  fits : (address content + length content) % 2 ^ 32 ≤ 0x800000
  header : little [block content 20, block content 21, block content 22, block content 23] =
    (Crc32.crcOf ((List.range 20).map (block content))).toNat
  image : little [block content 16, block content 17, block content 18, block content 19] =
    (Crc32.crcOf (image content)).toNat

variable {content}

theorem captured_address : (captured (block content) 24).applicationAddress.toNat =
    address content := by
  rw [captured_fields]
  exact toNat_ofLanes rfl

theorem captured_length : (captured (block content) 24).applicationLength.toNat =
    length content := by
  rw [captured_fields]
  exact toNat_ofLanes rfl

theorem imageBytes_captured :
    imageBytes content (captured (block content) 24) = image content := by
  have start : (captured (block content) 24).applicationAddress.setWidth 24 =
      BitVec.ofNat 24 (address content) := by
    apply BitVec.eq_of_toNat_eq
    rw [BitVec.toNat_setWidth, BitVec.toNat_ofNat, captured_address]
  rw [imageBytes, captured_length, image]
  refine List.map_congr_left fun k _ => ?_
  rw [imageByteAt, bytesAt, start, BitVec.ofNat_add]

theorem bootable_iff : Bootable content ↔ accepts content = true ∧
    ((captured (block content) 24).applicationCrc ==
      Crc32.crcOf (imageBytes content (captured (block content) 24))) = true := by
  have crc : (captured (block content) 24).applicationCrc.toNat =
      little [block content 16, block content 17, block content 18, block content 19] := by
    rw [captured_fields]
    exact toNat_ofLanes rfl
  rw [accepts, captured_valid_iff, beq_iff_eq, imageBytes_captured, ← BitVec.toNat_inj, crc]
  constructor
  · rintro ⟨magic, version, some, device, fits, header, image⟩
    exact ⟨⟨magic, version, some, device, fits, header⟩, image⟩
  · rintro ⟨⟨magic, version, some, device, fits, header⟩, image⟩
    exact ⟨magic, version, some, device, fits, header, image⟩

/-! ## The run -/

variable (content) in
def boot (inputs : Nat → Inputs) : Nat → Boot :=
  ClockedCircuit.run (Boot.clock content) Boot.reset inputs

variable {inputs : Nat → Inputs} {n : Nat}

/-- The loader is at rest in the recovery state, and the bridge is still open to it. -/
structure Recovered (b : Boot) : Prop where
  state : b.loader.state = .recovery
  unlocked : b.link.bridge.unlocked = true

/-- The write that locks the bridge is on its way. -/
structure Arming (content : Content) (b : Boot) : Prop where
  state : b.loader.state = .arm
  window : b.loader.window = ⟨true, bridgeUnlock, 0x00⟩
  header : b.loader.header = captured (block content) 24

theorem deciding_before (here : Deciding ((still content)^[n] Boot.reset)) :
    boot content inputs n = (still content)^[n] Boot.reset ∧
      ∀ m ≤ n, Deciding (boot content inputs m) := by
  refine ⟨(deaf content).run_eq here inputs, fun m before => ?_⟩
  have earlier := (deaf content).before here before
  rw [boot, (deaf content).run_eq earlier inputs]
  exact earlier

/-- The edge at which the decision is made. -/
theorem decides (content : Content) (inputs : Nat → Inputs) : ∃ n,
    (∀ m ≤ n, Deciding (boot content inputs m)) ∧
      (Bootable content ∧ Arming content (boot content inputs (n + 1)) ∨
        ¬ Bootable content ∧ Recovered (boot content inputs (n + 1))) := by
  cases accepted : accepts content with
  | false =>
    obtain ⟨n, checking⟩ := reaches_check Boot.reset rfl
    have here : Deciding ((still content)^[n] Boot.reset) := by
      rw [deciding_iff, checking.state]
      decide
    obtain ⟨same, before⟩ := @deciding_before content inputs n here
    have next : boot content inputs (n + 1) = still content (boot content inputs n) :=
      clock_deciding (inputs n) (before n (Nat.le_refl n))
    refine ⟨n, before, Or.inr ⟨fun bootable => ?_, ?_⟩⟩
    · have valid := (bootable_iff.mp bootable).1
      rw [accepted] at valid
      cases valid
    · rw [next, same, checking.still, accepted]
      exact ⟨rfl, checking.bridge.unlocked⟩
  | true =>
    obtain ⟨n, relocking⟩ := (reaches_check.trans (reaches_relock accepted)) Boot.reset rfl
    have here : Deciding ((still content)^[n] Boot.reset) := by
      rw [deciding_iff, relocking.state]
      decide
    obtain ⟨same, before⟩ := @deciding_before content inputs n here
    have next : boot content inputs (n + 1) = still content (boot content inputs n) :=
      clock_deciding (inputs n) (before n (Nat.le_refl n))
    rw [same, relocking.still] at next
    refine ⟨n, before, ?_⟩
    rw [next]
    by_cases valid : ((captured (block content) 24).applicationCrc ==
        Crc32.crcOf (imageBytes content (captured (block content) 24))) = true
    · refine Or.inl ⟨bootable_iff.mpr ⟨accepted, valid⟩, ?_, rfl, relocking.header⟩
      exact if_pos (relocking.valid.trans valid)
    · refine Or.inr ⟨fun bootable => valid (bootable_iff.mp bootable).2, ?_,
        relocking.bridge.unlocked⟩
      rw [← relocking.valid] at valid
      exact if_neg valid

/-! ## After the decision -/

/-- The image is to be entered, and nothing is on its way to the bridge from the loader. -/
structure Entering (content : Content) (b : Boot) : Prop where
  state : b.loader.state = .arm ∨ b.loader.state = .handOver
  silent : b.loader.window.write = false
  header : b.loader.header = captured (block content) 24

theorem clock_arm {l : BootLoader.Registers} (state : l.state = .arm) (read : Byte)
    (busy armed : Bool) : BootLoader.clock read busy armed l =
      if armed then { settled busy l with state := .handOver } else settled busy l := by
  unfold BootLoader.clock
  rw [state]

theorem clock_handOver {l : BootLoader.Registers} (state : l.state = .handOver) (read : Byte)
    (busy armed : Bool) : BootLoader.clock read busy armed l = settled busy l := by
  unfold BootLoader.clock
  rw [state]

theorem clock_recovery {l : BootLoader.Registers} (state : l.state = .recovery) (read : Byte)
    (busy armed : Bool) : BootLoader.clock read busy armed l = settled busy l := by
  unfold BootLoader.clock
  rw [state]

theorem enters {b : Boot} (state : b.loader.state = .arm)
    (header : b.loader.header = captured (block content) 24) (i : Inputs) :
    Entering content (Boot.clock content i b) ∧
      ((Boot.clock content i b).loader.state = .handOver ↔ i.reconfigurationArmed = true) := by
  rw [Boot.clock, clock_arm state]
  cases i.reconfigurationArmed with
  | true => exact ⟨⟨Or.inr rfl, rfl, header⟩, iff_of_true rfl rfl⟩
  | false =>
    refine ⟨⟨Or.inl state, rfl, header⟩, iff_of_false ?_ Bool.false_ne_true⟩
    change b.loader.state ≠ .handOver
    rw [state]
    decide

theorem Entering.clock {b : Boot} (h : Entering content b) (i : Inputs) :
    Entering content (Boot.clock content i b) ∧
      ((Boot.clock content i b).loader.state = .handOver ↔
        b.loader.state = .handOver ∨ i.reconfigurationArmed = true) := by
  rcases h.state with state | state
  · obtain ⟨entering, handed⟩ := enters state h.header i
    refine ⟨entering, handed.trans ⟨Or.inr, fun either => either.resolve_left ?_⟩⟩
    rw [state]
    decide
  · have same := clock_handOver state (FlashBridge.dataRead b.link.bridge) b.link.bridge.busy
      i.reconfigurationArmed
    rw [Boot.clock, same]
    exact ⟨⟨Or.inr state, rfl, h.header⟩, iff_of_true state (Or.inl state)⟩

theorem window_active {b : Boot} {registers : Window} (active : bootActive b.loader = true) :
    b.window registers = b.loader.window :=
  if_pos active

theorem window_made {b : Boot} {registers : Window} (made : bootActive b.loader = false) :
    b.window registers = registers := by
  rw [Boot.window, made]
  rfl

/-- A clock without a write to the unlock register leaves the lock as it is. -/
theorem lock_stays {b : Boot} {i : Inputs} (none : (b.window i.registers).writeUnlock = false) :
    (Boot.clock content i b).link.bridge.unlocked = b.link.bridge.unlocked := by
  have same : (FlashBridge.shift (b.window i.registers) b.link.flash.dataOut b.link.bridge).unlocked
      = b.link.bridge.unlocked := by
    rw [FlashBridge.shift]
    split_ifs <;> rfl
  change (if (b.window i.registers).writeUnlock then _ else b.link.bridge.unlocked) = _
  rw [none]
  rfl

/-- The loader's write reaches the bridge while the loader still has the window. -/
theorem Arming.locks {b : Boot} (h : Arming content b) (i : Inputs) :
    (Boot.clock content i b).link.bridge.unlocked = false := by
  have active : bootActive b.loader = true := by
    rw [bootActive, h.state]
    rfl
  have window : b.window i.registers = ⟨true, bridgeUnlock, 0x00⟩ :=
    (window_active active).trans h.window
  change (if (b.window i.registers).writeUnlock then b.link.bridge.unlockProgress == 3 &&
    (b.window i.registers).writeData == FlashBridge.unlockByte3 else b.link.bridge.unlocked) = false
  rw [window]
  exact Bool.and_false _

theorem Recovered.clock {b : Boot} (h : b.loader.state = .recovery) (i : Inputs) :
    (Boot.clock content i b).loader.state = .recovery := by
  rw [Boot.clock, clock_recovery h]
  exact h

/-- Armed and then, from the edge after the remote update block reports that it is armed,
handing over. -/
theorem entering_run (arming : Arming content (boot content inputs n)) {m : Nat} (later : n < m) :
    Entering content (boot content inputs m) ∧
      ((boot content inputs m).loader.state = .handOver ↔
        ∃ k, n ≤ k ∧ k < m ∧ (inputs k).reconfigurationArmed = true) := by
  induction m, later using Nat.le_induction with
  | base =>
    obtain ⟨entering, handed⟩ := enters arming.state arming.header (inputs n)
    refine ⟨entering, handed.trans ⟨fun armed => ⟨n, Nat.le_refl n, Nat.lt_succ_self n, armed⟩, ?_⟩⟩
    rintro ⟨k, low, high, armed⟩
    obtain rfl : k = n := by omega
    exact armed
  | succ m later ih =>
    obtain ⟨entering, handed⟩ := ih.1.clock (inputs m)
    refine ⟨entering, handed.trans ?_⟩
    rw [ih.2]
    constructor
    · rintro (⟨k, low, high, armed⟩ | armed)
      · exact ⟨k, low, by omega, armed⟩
      · exact ⟨m, by omega, Nat.lt_succ_self m, armed⟩
    · rintro ⟨k, low, high, armed⟩
      by_cases last : k = m
      · exact Or.inr (last ▸ armed)
      · exact Or.inl ⟨k, low, by omega, armed⟩

theorem recovered_run (recovered : (boot content inputs n).loader.state = .recovery) {m : Nat}
    (later : n ≤ m) : (boot content inputs m).loader.state = .recovery := by
  induction m, later using Nat.le_induction with
  | base => exact recovered
  | succ m later ih => exact Recovered.clock ih (inputs m)

/-- For every content of the flash and whatever comes in, there is an edge up to which the
loader decides. A bootable image is armed from then on, and entered at the edge after the one
at which the remote update block is armed; any other content leaves the device in recovery for
good. -/
theorem boot_decides (content : Content) (inputs : Nat → Inputs) : ∃ n,
    (∀ m < n, Deciding (boot content inputs m)) ∧
    (Bootable content → ∀ m, n ≤ m →
      bootAddress (boot content inputs m).loader = BitVec.ofNat 24 (address content) ∧
      ((boot content inputs m).loader.state = .arm ∨
        (boot content inputs m).loader.state = .handOver) ∧
      (reconfigureRequest (boot content inputs m).loader = true ↔
        ∃ k, n ≤ k ∧ k < m ∧ (inputs k).reconfigurationArmed = true)) ∧
    (¬ Bootable content → ∀ m, n ≤ m → (boot content inputs m).loader.state = .recovery) := by
  obtain ⟨n, before, decided⟩ := decides content inputs
  refine ⟨n + 1, fun m early => before m (Nat.le_of_lt_succ early), fun bootable m later => ?_,
    fun refused m later => ?_⟩
  · have arming := (decided.resolve_right fun other => other.1 bootable).2
    have target : ∀ b : Boot, b.loader.header = captured (block content) 24 →
        bootAddress b.loader = BitVec.ofNat 24 (address content) := by
      intro b header
      apply BitVec.eq_of_toNat_eq
      rw [bootAddress, header, BitVec.toNat_setWidth, BitVec.toNat_ofNat, captured_address]
    rcases Nat.eq_or_lt_of_le later with rfl | later
    · refine ⟨target _ arming.header, Or.inl arming.state, iff_of_false ?_ ?_⟩
      · rw [reconfigureRequest, arming.state]
        decide
      · rintro ⟨k, low, high, -⟩
        omega
    · obtain ⟨entering, handed⟩ := entering_run arming later
      refine ⟨target _ entering.header, entering.state, ?_⟩
      rw [← handed, reconfigureRequest, beq_iff_eq]
  · exact recovered_run (decided.resolve_left fun other => refused other.1).2.state later

/-- Once the decision is made, and until the register bank writes to the unlock register, the
bridge is locked exactly where there is an image to enter. -/
theorem locked_iff_bootable {m : Nat} (made : bootActive (boot content inputs m).loader = false)
    (untouched : ∀ k < m, bootActive (boot content inputs k).loader = false →
      (inputs k).registers.writeUnlock = false) :
    (boot content inputs m).link.bridge.unlocked = false ↔ Bootable content := by
  obtain ⟨n, before, decided⟩ := decides content inputs
  have after : n < m := by
    by_contra early
    rw [(before m (by omega)).1] at made
    cases made
  rcases decided with ⟨bootable, arming⟩ | ⟨refused, recovered⟩
  · refine iff_of_true ?_ bootable
    have later : n + 1 < m := by
      by_contra same
      obtain rfl : m = n + 1 := by omega
      rw [bootActive, arming.state] at made
      cases made
    clear made
    induction m, later using Nat.le_induction with
    | base => exact arming.locks (inputs (n + 1))
    | succ m later ih =>
      have locked := ih (fun k early => untouched k (by omega)) (by omega)
      have none : ((boot content inputs m).window (inputs m).registers).writeUnlock = false := by
        cases active : bootActive (boot content inputs m).loader with
        | true =>
          rw [window_active active, Window.writeUnlock, (entering_run arming later).1.silent]
          rfl
        | false =>
          rw [window_made active]
          exact untouched m (Nat.lt_succ_self m) active
      exact (lock_stays none).trans locked
  · refine iff_of_false (Bool.ne_false_iff.mpr ?_) refused
    clear made
    induction m, after using Nat.le_induction with
    | base => exact recovered.unlocked
    | succ m later ih =>
      have unlocked := ih (fun k early => untouched k (by omega))
      have resting : bootActive (boot content inputs m).loader = false := by
        rw [bootActive, recovered_run recovered.state later]
        rfl
      have none : ((boot content inputs m).window (inputs m).registers).writeUnlock = false := by
        rw [window_made resting]
        exact untouched m (Nat.lt_succ_self m) resting
      exact (lock_stays none).trans unlocked

/-- A flash that has never been written leaves the bridge unlocked. -/
theorem blank_leaves_unlocked : ∃ m,
    bootActive (boot (fun _ => 0xFF) (fun _ => quietInputs) m).loader = false ∧
      (boot (fun _ => 0xFF) (fun _ => quietInputs) m).link.bridge.unlocked = true := by
  have refused : ¬ Bootable fun _ => 0xFF := fun bootable => absurd bootable.magic (by decide)
  obtain ⟨n, -, -, recovery⟩ := boot_decides (fun _ => 0xFF) fun _ => quietInputs
  have made : bootActive (boot (fun _ => 0xFF) (fun _ => quietInputs) n).loader = false := by
    rw [bootActive, recovery refused n (Nat.le_refl n)]
    rfl
  have locked := locked_iff_bootable made fun _ _ _ => rfl
  exact ⟨n, made, Bool.of_not_eq_false (mt locked.mp refused)⟩

end BootDecision
