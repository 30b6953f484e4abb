import DomesdayDuplicator.Gateware.BootBlock
import DomesdayDuplicator.Gateware.BootTurn

/-!
# The two reads of the boot loader

From reset to the header check, and from an accepted header to the relock, for every content of
the flash: where the loader stands after so many bytes, what it has kept of them, and the
checksum of those it has folded.
-/

namespace BootReading

open ClockedCircuit FactoryImage SerialFlash BootTurn BootBlock
open BootLoader hiding reset clock commandRead Registers
open FlashBridge (Byte Window)

variable {content : Content} {b : Boot} {fields : Header} {target : BitVec 24}

theorem link_idle {w : Window} (silent : w.Silent) {l : Link} (idle : l.bridge.busy = false) :
    Link.clock content w l = l := by
  have start : FlashBridge.startShift w l.bridge = false := by
    rw [FlashBridge.startShift, Window.writeDataRegister, show w.write = false from silent]
    rfl
  have same : FlashBridge.clock w l.flash.dataOut l.bridge = l.bridge := by
    rw [FlashBridge.clock_silent silent, FlashBridge.shift, start, if_neg Bool.false_ne_true, idle,
      if_neg Bool.false_ne_true]
  rw [Link.clock, same, observe_same]

/-- A turn of a quiet loader with the bridge open. -/
theorem turn {l : BootLoader.Registers} {byte : Byte} (waits : Waits b.loader.state)
    (quiet : Quiet b.loader) (bridge : Open b.link.bridge) (aligned : b.link.flash.bitCount % 8 = 0)
    (hands : BootLoader.clock (FlashBridge.dataRead b.link.bridge) false false b.loader = l)
    (waits' : Waits l.state) (window : l.window = ⟨true, bridgeData, byte⟩)
    (started : l.shiftStarted = true) :
    (still content)^[66] b = ⟨settled true l, ⟨after b.link.bridge.unlockProgress
      (served b.link.flash), takeByte content byte b.link.flash⟩⟩ := by
  have first : still content b = ⟨l, b.link⟩ := by
    rw [still, Boot.clock, window_waits waits, bridge.idle]
    change (⟨BootLoader.clock _ false false b.loader, _⟩ : Boot) = _
    rw [hands, link_idle quiet.silent bridge.idle]
  rw [show 66 = 65 + 1 from rfl, Function.iterate_succ_apply, first]
  exact byte_turn waits' window started bridge aligned

/-! ## The command -/

inductive Phase where
  | header
  | image
  deriving DecidableEq

def Phase.command : Phase → State
  | .header => .headerCommand
  | .image => .imageCommand

def Phase.data : Phase → State
  | .header => .headerData
  | .image => .imageData

variable {p : Phase}

theorem Phase.waits (p : Phase) : Waits p.command ∧ Waits p.data := by
  cases p with
  | header => exact ⟨Or.inl rfl, Or.inr (Or.inl rfl)⟩
  | image => exact ⟨Or.inr (Or.inr (Or.inl rfl)), Or.inr (Or.inr (Or.inr rfl))⟩

theorem clock_command {l : BootLoader.Registers} (state : l.state = p.command)
    (idle : l.shiftStarted = false) (read : Byte) :
    BootLoader.clock read false false l = command p.data (settled false l) := by
  unfold BootLoader.clock
  cases p <;> rw [state, idle] <;> rfl

theorem commandByte_eq (address : BitVec 24) {n : Nat} (few : n < 4) :
    (readCommand address).take (n + 1) =
      (readCommand address).take n ++ [commandByte (BitVec.ofNat 5 n) address] := by
  obtain rfl | rfl | rfl | rfl : n = 0 ∨ n = 1 ∨ n = 2 ∨ n = 3 := by omega
  all_goals rfl

/-- The flash is about to be selected, and the checksum to start again. -/
structure Selecting (p : Phase) (target : BitVec 24) (fields : Header) (b : Boot) : Prop where
  state : b.loader.state = p.command
  index : b.loader.byteIndex = 0
  window : b.loader.window = ⟨true, bridgeControl, 0x01⟩
  shiftStarted : b.loader.shiftStarted = false
  crcRestart : b.loader.crcRestart = true
  crcValid : b.loader.crcValid = false
  header : b.loader.header = fields
  address : b.loader.readAddress = target
  bytes : b.loader.byteCount = 0
  unlocked : b.link.bridge.unlocked = true
  deselected : b.link.bridge.chipSelectAsserted = false
  idle : b.link.bridge.busy = false
  low : b.link.bridge.flashClockLevel = false

/-- So many bytes of the command have gone out. -/
structure Commanding (content : Content) (p : Phase) (target : BitVec 24) (fields : Header)
    (n : Nat) (b : Boot) : Prop where
  state : b.loader.state = if n = 4 then p.data else p.command
  index : b.loader.byteIndex = if n = 4 then 0 else BitVec.ofNat 5 n
  quiet : Quiet b.loader
  header : b.loader.header = fields
  address : b.loader.readAddress = target
  bytes : b.loader.byteCount = 0
  crc : b.loader.crc = Crc32.initialValue
  bridge : Open b.link.bridge
  flash : ∃ f : Registers, f.bitCount = 0 ∧
    b.link.flash = takeBytes content ((readCommand target).take n) f

/-- The command byte that is handed over in a state like this. -/
theorem commanded {l : BootLoader.Registers} {n : Nat} {f : Registers} {progress : BitVec 2}
    {received : Byte} (few : n < 4) (state : l.state = p.command)
    (index : l.byteIndex = BitVec.ofNat 5 n) (header : l.header = fields)
    (address : l.readAddress = target) (bytes : l.byteCount = 0)
    (crc : l.crc = Crc32.initialValue) (valid : l.crcRestart = false ∧ l.crcValid = false)
    (selected : f.bitCount = 0) :
    Commanding content p target fields (n + 1) ⟨settled true (command p.data l),
      ⟨after progress received, takeByte content (commandByte l.byteIndex l.readAddress)
        (takeBytes content ((readCommand target).take n) f)⟩⟩ := by
  have ends : l.byteIndex = 3 ↔ n + 1 = 4 := by
    rw [index]
    constructor
    · intro three
      have := congrArg BitVec.toNat three
      simp at this
      omega
    · intro last
      obtain rfl : n = 3 := by omega
      rfl
  have folded : Crc32.clock l.crcRestart l.crcValid l.crcData l.crc = Crc32.initialValue := by
    rw [valid.1, valid.2, crc]
    rfl
  rw [command]
  dsimp only
  refine ⟨?_, ?_, quiet_settled _, ?_, ?_, ?_, ?_, open_after _ _, f, selected, ?_⟩
  · rw [settled]
    by_cases last : n + 1 = 4
    · rw [if_pos (ends.mpr last), if_pos last]
    · rw [if_neg (mt ends.mp last), if_neg last]
      exact state
  · rw [settled]
    by_cases last : n + 1 = 4
    · rw [if_pos (ends.mpr last), if_pos last]
    · rw [if_neg (mt ends.mp last), if_neg last]
      dsimp only
      rw [index]
      apply BitVec.eq_of_toNat_eq
      simp
  · rw [← header]
    split <;> rfl
  · rw [← address]
    split <;> rfl
  · rw [← bytes]
    split <;> rfl
  · rw [← folded]
    split <;> rfl
  · rw [commandByte_eq target few, takeBytes, takeBytes, List.foldl_append, index, address]
    rfl

theorem command_hands {l : BootLoader.Registers} (state : l.state = p.command) :
    Waits (command p.data l).state ∧
      (command p.data l).window = ⟨true, bridgeData, commandByte l.byteIndex l.readAddress⟩ ∧
      (command p.data l).shiftStarted = true := by
  rw [command]
  dsimp only
  split
  · exact ⟨p.waits.2, rfl, rfl⟩
  · exact ⟨state ▸ p.waits.1, rfl, rfl⟩

theorem Commanding.next {n : Nat} (h : Commanding content p target fields n b) (some : 0 < n)
    (few : n < 4) : Commanding content p target fields (n + 1) ((still content)^[66] b) := by
  have more : n ≠ 4 := by omega
  have state := h.state
  have index := h.index
  rw [if_neg more] at state index
  obtain ⟨f, selected, flash⟩ := h.flash
  have aligned : b.link.flash.bitCount % 8 = 0 := by
    rw [flash, takeBytes_bitCount, selected]
    omega
  have hands := clock_command state h.quiet.shiftStarted (FlashBridge.dataRead b.link.bridge)
  rw [settled_quiet h.quiet] at hands
  obtain ⟨waits, window, started⟩ := command_hands state
  rw [turn (state ▸ p.waits.1) h.quiet h.bridge aligned hands waits window started, flash]
  exact commanded few state index h.header h.address h.bytes h.crc
    ⟨h.quiet.crcRestart, h.quiet.crcValid⟩ selected

/-- The first byte is handed over at the edge that selects the flash. -/
theorem Selecting.begins (h : Selecting p target fields b) :
    Commanding content p target fields 1 ((still content)^[66] b) := by
  have waits : Waits b.loader.state := h.state ▸ p.waits.1
  have state : (settled false b.loader).state = p.command := h.state
  have hands := clock_command h.state h.shiftStarted (FlashBridge.dataRead b.link.bridge)
  obtain ⟨waits', window, started⟩ := command_hands state
  have bridge : Link.clock content b.loader.window b.link =
      ⟨{ b.link.bridge with chipSelectAsserted := true }, select b.link.flash⟩ := by
    obtain ⟨loader, ⟨⟨progress, u, cs, phase, level, bits, out, taken, received, busy⟩, f⟩⟩ := b
    have unlocked := h.unlocked
    have deselected := h.deselected
    have idle := h.idle
    have low := h.low
    dsimp only at unlocked deselected idle low
    subst unlocked deselected idle low
    have window := h.window
    dsimp only at window ⊢
    rw [window]
    simp [Link.clock, FlashBridge.clock, FlashBridge.shift, FlashBridge.startShift,
      Window.writeUnlock, Window.writeControl, Window.writeDataRegister, bridgeControl,
      FlashBridge.addressData, FlashBridge.addressUnlock, FlashBridge.addressControl, observe,
      FlashBridge.pins]
  have first : still content b = ⟨command p.data (settled false b.loader),
      ⟨{ b.link.bridge with chipSelectAsserted := true }, select b.link.flash⟩⟩ := by
    rw [still, Boot.clock, window_waits waits, h.idle, bridge]
    change (⟨BootLoader.clock _ false false b.loader, _⟩ : Boot) = _
    rw [hands]
  have opened : Open { b.link.bridge with chipSelectAsserted := true } :=
    ⟨h.unlocked, rfl, h.idle, h.low⟩
  have folded : (settled false b.loader).crc = Crc32.initialValue := by
    rw [settled]
    dsimp only
    rw [h.crcRestart, h.crcValid]
    rfl
  rw [show 66 = 65 + 1 from rfl, Function.iterate_succ_apply, first,
    byte_turn waits' window started opened (Nat.zero_mod 8)]
  exact @commanded content fields target p (settled false b.loader) 0 (select b.link.flash) _ _
    (by decide) state h.index h.header h.address h.bytes folded ⟨rfl, rfl⟩ rfl

theorem Selecting.reads (target : BitVec 24) (fields : Header) : LeadsTo (still content)
    (Selecting p target fields) (Commanding content p target fields 4) := by
  have first : LeadsTo (still content) (Selecting p target fields)
      (Commanding content p target fields 1) := .of_iterate 66 fun _ h => h.begins
  exact first.trans (@LeadsTo.count _ (still content) (Commanding content p target fields) 1 4
    (by decide) fun k low high => .of_iterate 66 fun _ h => h.next low high)

/-! ## The boot block -/

/-- The bytes the flash gives out from an address on. -/
def bytesAt (content : Content) (target : BitVec 24) (k : Nat) : Byte :=
  content (target + BitVec.ofNat 24 k)

def block (content : Content) : Nat → Byte := bytesAt content bootBlockAddress

/-- So many dummy bytes have been sent, and what all but the last of them brought is taken. -/
structure HeaderAt (content : Content) (k : Nat) (b : Boot) : Prop where
  state : b.loader.state = .headerData
  index : b.loader.byteIndex = BitVec.ofNat 5 k
  quiet : Quiet b.loader
  header : b.loader.header = captured (block content) (k - 1)
  bytes : b.loader.byteCount = 0
  crc : b.loader.crc = Crc32.folded ((List.range (min (k - 1) 20)).map (block content))
  bridge : Open b.link.bridge
  received : k ≠ 0 → b.link.bridge.receivedByte = block content (k - 1)
  flash : Reading content (bootBlockAddress + BitVec.ofNat 24 k) b.link.flash

theorem clock_headerData {l : BootLoader.Registers} (state : l.state = .headerData)
    (idle : l.shiftStarted = false) (read : Byte) :
    BootLoader.clock read false false l = headerByte read (settled false l) := by
  unfold BootLoader.clock
  rw [state, idle]
  rfl

theorem index_eq_iff {k n : Nat} (few : k < 32) (least : n < 32) :
    BitVec.ofNat 5 k = BitVec.ofNat 5 n ↔ k = n := by
  rw [← BitVec.toNat_inj, BitVec.toNat_ofNat, BitVec.toNat_ofNat]
  omega

/-- What a turn does with the byte that the one before brought. -/
def takeHeader (read : Byte) (l : BootLoader.Registers) : BootLoader.Registers :=
  if l.byteIndex ≠ 0 then
    { l with
      crcValid := decide (l.byteIndex ≤ headerCrcBytes)
      crcData := if l.byteIndex ≤ headerCrcBytes then read else l.crcData
      header := l.header.capture (l.byteIndex - 1) read }
  else l

theorem headerByte_eq (read : Byte) (l : BootLoader.Registers) : headerByte read l =
    if (takeHeader read l).byteIndex = bootBlockBytes then
      { takeHeader read l with window := ⟨true, bridgeControl, 0x00⟩, state := .headerSettle }
    else
      { takeHeader read l with
        window := ⟨true, bridgeData, 0xFF⟩, shiftStarted := true
        byteIndex := (takeHeader read l).byteIndex + 1 } :=
  rfl

theorem takeHeader_kept (read : Byte) (l : BootLoader.Registers) :
    (takeHeader read l).state = l.state ∧ (takeHeader read l).byteIndex = l.byteIndex ∧
      (takeHeader read l).byteCount = l.byteCount ∧
      (takeHeader read l).crcRestart = l.crcRestart ∧ (takeHeader read l).crc = l.crc ∧
      (takeHeader read l).shiftStarted = l.shiftStarted := by
  rw [takeHeader]
  split <;> exact ⟨rfl, rfl, rfl, rfl, rfl, rfl⟩

/-- The field and the checksum once the byte is in. -/
theorem HeaderAt.takes {k : Nat} (h : HeaderAt content k b) (most : k ≤ 24) :
    (takeHeader (FlashBridge.dataRead b.link.bridge) b.loader).header =
        captured (block content) k ∧
      Crc32.clock false (takeHeader (FlashBridge.dataRead b.link.bridge) b.loader).crcValid
        (takeHeader (FlashBridge.dataRead b.link.bridge) b.loader).crcData b.loader.crc =
          Crc32.folded ((List.range (min k 20)).map (block content)) := by
  rw [takeHeader]
  by_cases none : k = 0
  · subst none
    have index : ¬ b.loader.byteIndex ≠ 0 := not_not.mpr h.index
    rw [if_neg index, h.quiet.crcValid]
    exact ⟨h.header, h.crc⟩
  · have index : b.loader.byteIndex ≠ 0 := by
      rw [h.index]
      exact mt (index_eq_iff (by omega) (Nat.zero_lt_succ 31)).mp none
    have folds : b.loader.byteIndex ≤ headerCrcBytes ↔ k ≤ 20 := by
      rw [h.index, BitVec.le_def, BitVec.toNat_ofNat, Nat.mod_eq_of_lt (by omega)]
      rfl
    have before : b.loader.byteIndex - 1 = BitVec.ofNat 5 (k - 1) := by
      rw [h.index]
      apply BitVec.eq_of_toNat_eq
      rw [BitVec.toNat_sub_of_le] <;> simp [BitVec.le_def] <;> omega
    have read : FlashBridge.dataRead b.link.bridge = block content (k - 1) := h.received none
    obtain ⟨j, rfl⟩ : ∃ j, k = j + 1 := ⟨k - 1, by omega⟩
    rw [if_pos index, before, read, h.header, h.crc]
    refine ⟨rfl, ?_⟩
    dsimp only
    rw [Nat.add_sub_cancel]
    by_cases early : j + 1 ≤ 20
    · have counts : min j 20 = j ∧ min (j + 1) 20 = j + 1 := by omega
      rw [decide_eq_true (folds.mpr early), if_pos (folds.mpr early), counts.1, counts.2,
        List.range_succ, List.map_append, List.map_cons, List.map_nil,
        Crc32.folded_append_singleton]
      rfl
    · have counts : min j 20 = 20 ∧ min (j + 1) 20 = 20 := by omega
      rw [decide_eq_false (mt folds.mp early), counts.1, counts.2]
      rfl

theorem HeaderAt.next {k : Nat} (h : HeaderAt content k b) (few : k < 24) :
    HeaderAt content (k + 1) ((still content)^[66] b) := by
  have hands := clock_headerData h.state h.quiet.shiftStarted (FlashBridge.dataRead b.link.bridge)
  obtain ⟨header, crc⟩ := h.takes (by omega)
  obtain ⟨state, index, bytes, restart, register, -⟩ :=
    takeHeader_kept (FlashBridge.dataRead b.link.bridge) b.loader
  have notLast : (takeHeader (FlashBridge.dataRead b.link.bridge) b.loader).byteIndex ≠
      bootBlockBytes := by
    rw [index, h.index]
    exact mt (@index_eq_iff k 24 (by omega) (by decide)).mp (by omega)
  rw [settled_quiet h.quiet, headerByte_eq, if_neg notLast] at hands
  have waits : Waits b.loader.state := h.state ▸ Phase.header.waits.2
  have waits' : Waits (takeHeader (FlashBridge.dataRead b.link.bridge) b.loader).state := by
    rwa [state]
  rw [turn waits h.quiet h.bridge h.flash.aligned hands waits' rfl rfl]
  have served := h.flash.served
  refine ⟨state.trans h.state, ?_, quiet_settled _, header, bytes.trans h.bytes, ?_,
    open_after _ _, fun _ => served, ?_⟩
  · change (takeHeader _ b.loader).byteIndex + 1 = _
    rw [index, h.index]
    apply BitVec.eq_of_toNat_eq
    simp
  · change Crc32.clock (takeHeader _ b.loader).crcRestart (takeHeader _ b.loader).crcValid
      (takeHeader _ b.loader).crcData (takeHeader _ b.loader).crc = _
    rw [restart, register, h.quiet.crcRestart]
    exact crc
  · have next := h.flash.next 0xFF
    rw [BitVec.add_assoc] at next
    have same : BitVec.ofNat 24 k + 1 = BitVec.ofNat 24 (k + 1) := by
      rw [BitVec.ofNat_add]
      rfl
    rwa [same] at next

/-- The bridge with the flash let go. -/
structure Resting (r : FlashBridge.Registers) : Prop where
  unlocked : r.unlocked = true
  deselected : r.chipSelectAsserted = false
  idle : r.busy = false
  low : r.flashClockLevel = false

/-- The flash is let go by a write to the control register. -/
theorem link_deselects {l : Link} (h : Open l.bridge) :
    ∃ r, Link.clock content ⟨true, bridgeControl, 0x00⟩ l = ⟨r, l.flash⟩ ∧ Resting r := by
  obtain ⟨⟨progress, u, cs, phase, level, bits, out, taken, received, busy⟩, f⟩ := l
  obtain ⟨unlocked, selected, idle, low⟩ := h
  dsimp only at unlocked selected idle low
  subst unlocked selected idle low
  refine ⟨⟨progress, true, false, phase, false, bits, out, taken, received, false⟩, ?_,
    rfl, rfl, rfl, rfl⟩
  simp [Link.clock, FlashBridge.clock, FlashBridge.shift, FlashBridge.startShift,
    Window.writeUnlock, Window.writeControl, Window.writeDataRegister, bridgeControl,
    FlashBridge.addressData, FlashBridge.addressUnlock, FlashBridge.addressControl, observe,
    FlashBridge.pins]

/-! ## From reset to the header check -/

def settling (count : BitVec 8) : Boot :=
  ⟨{ BootLoader.reset with settleCount := count }, Boot.reset.link⟩

theorem still_settling {count : BitVec 8} (early : count ≠ settleClocks) :
    still content (settling count) = settling (count + 1) := by
  have link : Link.clock content BootLoader.reset.window Boot.reset.link = Boot.reset.link :=
    link_idle (show BootLoader.reset.window.write = false from rfl) rfl
  have loader : BootLoader.clock 0 false false { BootLoader.reset with settleCount := count } =
      { BootLoader.reset with settleCount := count + 1 } := if_neg early
  rw [still, Boot.clock]
  change (⟨BootLoader.clock 0 false false { BootLoader.reset with settleCount := count },
    Link.clock content BootLoader.reset.window Boot.reset.link⟩ : Boot) = _
  rw [link, loader]
  rfl

theorem settles (n : Nat) (few : n ≤ 200) :
    (still content)^[n] Boot.reset = settling (BitVec.ofNat 8 n) := by
  induction n with
  | zero => rfl
  | succ n ih =>
    have early : BitVec.ofNat 8 n ≠ settleClocks := by
      rw [settleClocks, Ne, ← BitVec.toNat_inj, BitVec.toNat_ofNat]
      have : n % 2 ^ 8 = n := Nat.mod_eq_of_lt (by omega)
      rw [this]
      change n ≠ 200
      omega
    rw [Function.iterate_succ_apply', ih (by omega), still_settling early, BitVec.ofNat_add]
    rfl

theorem selecting_header : Selecting .header bootBlockAddress BootLoader.reset.header
    ((still content)^[206] Boot.reset) := by
  rw [show 206 = 6 + 200 from rfl, Function.iterate_add_apply, settles 200 (Nat.le_refl 200)]
  constructor <;> rfl

theorem Commanding.header_begins (h : Commanding content .header bootBlockAddress
    BootLoader.reset.header 4 b) : HeaderAt content 0 b where
  state := h.state
  index := h.index
  quiet := h.quiet
  header := h.header
  bytes := h.bytes
  crc := h.crc
  bridge := h.bridge
  received := fun none => absurd rfl none
  flash := by
    obtain ⟨f, selected, flash⟩ := h.flash
    rw [flash, BitVec.add_zero]
    exact reading_of_command content bootBlockAddress selected

/-- The block is in, and its checksum is there to be compared. -/
structure Checking (content : Content) (b : Boot) : Prop where
  state : b.loader.state = .headerCheck
  quiet : Quiet b.loader
  header : b.loader.header = captured (block content) 24
  crc : b.loader.crc = Crc32.folded ((List.range 20).map (block content))
  bridge : Resting b.link.bridge

theorem HeaderAt.ends (h : HeaderAt content 24 b) : Checking content ((still content)^[2] b) := by
  have hands := clock_headerData h.state h.quiet.shiftStarted (FlashBridge.dataRead b.link.bridge)
  obtain ⟨header, crc⟩ := h.takes (Nat.le_refl 24)
  obtain ⟨state, index, bytes, restart, register, started⟩ :=
    takeHeader_kept (FlashBridge.dataRead b.link.bridge) b.loader
  have last : (takeHeader (FlashBridge.dataRead b.link.bridge) b.loader).byteIndex =
      bootBlockBytes := index.trans h.index
  rw [settled_quiet h.quiet, headerByte_eq, if_pos last] at hands
  have waits : Waits b.loader.state := h.state ▸ Phase.header.waits.2
  have first : still content b = ⟨{ takeHeader (FlashBridge.dataRead b.link.bridge) b.loader with
      window := ⟨true, bridgeControl, 0x00⟩, state := .headerSettle }, b.link⟩ := by
    rw [still, Boot.clock, window_waits waits, h.bridge.idle,
      link_idle h.quiet.silent h.bridge.idle]
    change (⟨BootLoader.clock _ false false b.loader, _⟩ : Boot) = _
    rw [hands]
  obtain ⟨r, deselects, rests⟩ := @link_deselects content _ h.bridge
  change Checking content (still content (still content b))
  rw [first]
  refine ⟨rfl, ⟨rfl, ?_, rfl, rfl⟩, header, ?_, ?_⟩
  · change ((takeHeader _ b.loader).shiftStarted && _) = false
    rw [started, h.quiet.shiftStarted]
    rfl
  · change Crc32.clock (takeHeader _ b.loader).crcRestart (takeHeader _ b.loader).crcValid
      (takeHeader _ b.loader).crcData (takeHeader _ b.loader).crc = _
    rw [restart, register, h.quiet.crcRestart]
    exact crc
  · change Resting (Link.clock content ⟨true, bridgeControl, 0x00⟩ b.link).bridge
    rw [deselects]
    exact rests

theorem reaches_check : LeadsTo (still content) (· = Boot.reset) (Checking content) := by
  have selected : LeadsTo (still content) (· = Boot.reset)
      (Selecting .header bootBlockAddress BootLoader.reset.header) :=
    .of_iterate 206 fun _ h => h ▸ selecting_header
  have begun := (selected.trans (Selecting.reads _ _)).trans
    (.of_imp fun _ h => h.header_begins)
  have read : LeadsTo (still content) (HeaderAt content 0) (HeaderAt content 24) :=
    LeadsTo.count 0 (Nat.zero_le 24) fun k _ few => .of_iterate 66 fun _ h => h.next few
  exact (begun.trans read).trans (.of_iterate 2 fun _ h => h.ends)

/-! ## The image -/

def imageByteAt (content : Content) (fields : Header) : Nat → Byte :=
  bytesAt content (fields.applicationAddress.setWidth 24)

def imageBytes (content : Content) (fields : Header) : List Byte :=
  (List.range fields.applicationLength.toNat).map (imageByteAt content fields)

/-- Whether the block is one that describes an image this one can enter. -/
def accepts (content : Content) : Bool :=
  headerValid (captured (block content) 24) (Crc32.crcOf ((List.range 20).map (block content)))

theorem Checking.still (h : Checking content b) : still content b = ⟨{ b.loader with
    state := if accepts content then .selectImage else .recovery }, b.link⟩ := by
  have active : bootActive b.loader = true := by
    rw [bootActive, h.state]
    rfl
  have window : b.window quietInputs.registers = b.loader.window := if_pos active
  have decides : BootLoader.clock (FlashBridge.dataRead b.link.bridge) false false b.loader =
      { settled false b.loader with
        state := if headerValid b.loader.header (Crc32.crc b.loader.crc) then .selectImage
          else .recovery } := by
    unfold BootLoader.clock
    rw [h.state]
  rw [BootTurn.still, Boot.clock, window, h.bridge.idle,
    link_idle h.quiet.silent h.bridge.idle]
  change (⟨BootLoader.clock _ false false b.loader, _⟩ : Boot) = _
  rw [decides, settled_quiet h.quiet, h.header, h.crc]
  rfl

theorem Checking.selects (h : Checking content b) (valid : accepts content = true) :
    Selecting .image ((captured (block content) 24).applicationAddress.setWidth 24)
      (captured (block content) 24) ((BootTurn.still content)^[2] b) := by
  change Selecting _ _ _ (BootTurn.still content (BootTurn.still content b))
  rw [h.still, if_pos valid]
  have link : Link.clock content b.loader.window b.link = b.link :=
    link_idle h.quiet.silent h.bridge.idle
  have second : BootTurn.still content ⟨{ b.loader with state := .selectImage }, b.link⟩ =
      ⟨{ b.loader with
        window := ⟨true, bridgeControl, 0x01⟩, crcRestart := true, byteIndex := 0, byteCount := 0
        readAddress := b.loader.header.applicationAddress.setWidth 24
        state := .imageCommand }, b.link⟩ := by
    have window : (⟨{ b.loader with state := .selectImage }, b.link⟩ : Boot).window
        quietInputs.registers = b.loader.window := rfl
    have quiet : Quiet { b.loader with state := .selectImage } :=
      ⟨h.quiet.silent, h.quiet.shiftStarted, h.quiet.crcRestart, h.quiet.crcValid⟩
    have settles := settled_quiet quiet b.link.bridge.busy
    rw [BootTurn.still, Boot.clock, window]
    dsimp only
    rw [link, BootLoader.clock]
    dsimp only
    rw [settles]
  rw [second]
  exact ⟨rfl, rfl, rfl, h.quiet.shiftStarted, rfl, h.quiet.crcValid, h.header,
    congrArg (fun fields : Header => fields.applicationAddress.setWidth 24) h.header, rfl,
    h.bridge.unlocked, h.bridge.deselected, h.bridge.idle, h.bridge.low⟩

/-- So many bytes of the image have been asked for, and all but the last of them folded. -/
structure ImageAt (content : Content) (fields : Header) (k : Nat) (b : Boot) : Prop where
  state : b.loader.state = .imageData
  bytes : b.loader.byteCount = BitVec.ofNat 32 k
  quiet : Quiet b.loader
  header : b.loader.header = fields
  crc : b.loader.crc = Crc32.folded ((List.range (k - 1)).map (imageByteAt content fields))
  bridge : Open b.link.bridge
  received : k ≠ 0 → b.link.bridge.receivedByte = imageByteAt content fields (k - 1)
  flash : Reading content (fields.applicationAddress.setWidth 24 + BitVec.ofNat 24 k) b.link.flash

theorem Commanding.image_begins
    (h : Commanding content .image (fields.applicationAddress.setWidth 24) fields 4 b) :
    ImageAt content fields 0 b where
  state := h.state
  bytes := h.bytes
  quiet := h.quiet
  header := h.header
  crc := h.crc
  bridge := h.bridge
  received := fun none => absurd rfl none
  flash := by
    obtain ⟨f, selected, flash⟩ := h.flash
    rw [flash, BitVec.add_zero]
    exact reading_of_command content _ selected

theorem clock_imageData {l : BootLoader.Registers} (state : l.state = .imageData)
    (idle : l.shiftStarted = false) (read : Byte) :
    BootLoader.clock read false false l = imageByte read (settled false l) := by
  unfold BootLoader.clock
  rw [state, idle]
  rfl

def takeImage (read : Byte) (l : BootLoader.Registers) : BootLoader.Registers :=
  if l.byteCount ≠ 0 then { l with crcValid := true, crcData := read } else l

theorem imageByte_eq (read : Byte) (l : BootLoader.Registers) : imageByte read l =
    if (takeImage read l).byteCount = (takeImage read l).header.applicationLength then
      { takeImage read l with window := ⟨true, bridgeControl, 0x00⟩, state := .imageSettle }
    else
      { takeImage read l with
        window := ⟨true, bridgeData, 0xFF⟩, shiftStarted := true
        byteCount := (takeImage read l).byteCount + 1 } :=
  rfl

theorem takeImage_kept (read : Byte) (l : BootLoader.Registers) :
    (takeImage read l).state = l.state ∧ (takeImage read l).byteCount = l.byteCount ∧
      (takeImage read l).header = l.header ∧
      (takeImage read l).crcRestart = l.crcRestart ∧ (takeImage read l).crc = l.crc ∧
      (takeImage read l).shiftStarted = l.shiftStarted := by
  rw [takeImage]
  split <;> exact ⟨rfl, rfl, rfl, rfl, rfl, rfl⟩

theorem count_eq_iff {k : Nat} {length : BitVec 32} (most : k ≤ length.toNat) :
    BitVec.ofNat 32 k = length ↔ k = length.toNat := by
  have := length.isLt
  rw [← BitVec.toNat_inj, BitVec.toNat_ofNat, Nat.mod_eq_of_lt (by omega)]

theorem ImageAt.takes {k : Nat} (h : ImageAt content fields k b)
    (most : k ≤ fields.applicationLength.toNat) :
    Crc32.clock false (takeImage (FlashBridge.dataRead b.link.bridge) b.loader).crcValid
        (takeImage (FlashBridge.dataRead b.link.bridge) b.loader).crcData b.loader.crc =
      Crc32.folded ((List.range k).map (imageByteAt content fields)) := by
  rw [takeImage]
  by_cases none : k = 0
  · subst none
    have count : ¬ b.loader.byteCount ≠ 0 := not_not.mpr h.bytes
    rw [if_neg count, h.quiet.crcValid]
    exact h.crc
  · have some : b.loader.byteCount ≠ 0 := by
      intro zero
      have count := congrArg BitVec.toNat (h.bytes.symm.trans zero)
      have bound := fields.applicationLength.isLt
      rw [BitVec.toNat_ofNat, Nat.mod_eq_of_lt (by omega)] at count
      exact none count
    have read : FlashBridge.dataRead b.link.bridge = imageByteAt content fields (k - 1) :=
      h.received none
    obtain ⟨j, rfl⟩ : ∃ j, k = j + 1 := ⟨k - 1, by omega⟩
    rw [if_pos some, read, h.crc, List.range_succ, List.map_append, List.map_cons, List.map_nil,
      Crc32.folded_append_singleton]
    rfl

theorem ImageAt.next {k : Nat} (h : ImageAt content fields k b)
    (few : k < fields.applicationLength.toNat) :
    ImageAt content fields (k + 1) ((still content)^[66] b) := by
  have hands := clock_imageData h.state h.quiet.shiftStarted (FlashBridge.dataRead b.link.bridge)
  have crc := h.takes (Nat.le_of_lt few)
  obtain ⟨state, bytes, header, restart, register, -⟩ :=
    takeImage_kept (FlashBridge.dataRead b.link.bridge) b.loader
  have notLast : (takeImage (FlashBridge.dataRead b.link.bridge) b.loader).byteCount ≠
      (takeImage (FlashBridge.dataRead b.link.bridge) b.loader).header.applicationLength := by
    rw [bytes, header, h.bytes, h.header]
    exact mt (count_eq_iff (Nat.le_of_lt few)).mp (Nat.ne_of_lt few)
  rw [settled_quiet h.quiet, imageByte_eq, if_neg notLast] at hands
  have waits : Waits b.loader.state := h.state ▸ Phase.image.waits.2
  have waits' : Waits (takeImage (FlashBridge.dataRead b.link.bridge) b.loader).state := by
    rwa [state]
  rw [turn waits h.quiet h.bridge h.flash.aligned hands waits' rfl rfl]
  have served := h.flash.served
  refine ⟨state.trans h.state, ?_, quiet_settled _, header.trans h.header, ?_, open_after _ _,
    fun _ => served, ?_⟩
  · change (takeImage _ b.loader).byteCount + 1 = _
    rw [bytes, h.bytes, BitVec.ofNat_add]
    rfl
  · change Crc32.clock (takeImage _ b.loader).crcRestart (takeImage _ b.loader).crcValid
      (takeImage _ b.loader).crcData (takeImage _ b.loader).crc = _
    rw [restart, register, h.quiet.crcRestart]
    exact crc
  · have next := h.flash.next 0xFF
    rw [BitVec.add_assoc] at next
    have same : BitVec.ofNat 24 k + 1 = BitVec.ofNat 24 (k + 1) := by
      rw [BitVec.ofNat_add]
      rfl
    rwa [same] at next

/-- The bridge is about to be locked, whatever the image came to. -/
structure Relocking (content : Content) (fields : Header) (b : Boot) : Prop where
  state : b.loader.state = .relock
  quiet : Quiet b.loader
  header : b.loader.header = fields
  valid : b.loader.imageValid =
    (fields.applicationCrc == Crc32.crcOf (imageBytes content fields))
  bridge : Resting b.link.bridge

theorem ImageAt.ends (h : ImageAt content fields fields.applicationLength.toNat b) :
    Relocking content fields ((still content)^[3] b) := by
  have hands := clock_imageData h.state h.quiet.shiftStarted (FlashBridge.dataRead b.link.bridge)
  have crc := h.takes (Nat.le_refl _)
  obtain ⟨state, bytes, header, restart, register, started⟩ :=
    takeImage_kept (FlashBridge.dataRead b.link.bridge) b.loader
  have last : (takeImage (FlashBridge.dataRead b.link.bridge) b.loader).byteCount =
      (takeImage (FlashBridge.dataRead b.link.bridge) b.loader).header.applicationLength := by
    rw [bytes, header, h.bytes, h.header]
    exact (count_eq_iff (Nat.le_refl _)).mpr rfl
  rw [settled_quiet h.quiet, imageByte_eq, if_pos last] at hands
  have waits : Waits b.loader.state := h.state ▸ Phase.image.waits.2
  have first : still content b = ⟨{ takeImage (FlashBridge.dataRead b.link.bridge) b.loader with
      window := ⟨true, bridgeControl, 0x00⟩, state := .imageSettle }, b.link⟩ := by
    rw [still, Boot.clock, window_waits waits, h.bridge.idle,
      link_idle h.quiet.silent h.bridge.idle]
    change (⟨BootLoader.clock _ false false b.loader, _⟩ : Boot) = _
    rw [hands]
  obtain ⟨r, deselects, rests⟩ := @link_deselects content _ h.bridge
  generalize takeImage (FlashBridge.dataRead b.link.bridge) b.loader = l at *
  have second : still content ⟨{ l with
        window := ⟨true, bridgeControl, 0x00⟩, state := .imageSettle }, b.link⟩ =
      ⟨{ settled false l with
        window := ⟨false, bridgeControl, 0x00⟩, state := .imageCheck }, ⟨r, b.link.flash⟩⟩ := by
    rw [still, Boot.clock]
    change (⟨_, Link.clock content ⟨true, bridgeControl, 0x00⟩ b.link⟩ : Boot) = _
    rw [deselects, h.bridge.idle]
    rfl
  have quiet : Quiet { settled false l with
      window := ⟨false, bridgeControl, 0x00⟩, state := .imageCheck } := by
    refine ⟨rfl, ?_, rfl, rfl⟩
    change (l.shiftStarted && true) = false
    rw [started, h.quiet.shiftStarted]
    rfl
  have third : still content ⟨{ settled false l with
        window := ⟨false, bridgeControl, 0x00⟩, state := .imageCheck }, ⟨r, b.link.flash⟩⟩ =
      ⟨{ settled false l with
        window := ⟨false, bridgeControl, 0x00⟩, state := .relock,
        imageValid := l.header.applicationCrc == Crc32.crc (settled false l).crc },
        ⟨r, b.link.flash⟩⟩ := by
    have link : Link.clock content ⟨false, bridgeControl, 0x00⟩ ⟨r, b.link.flash⟩ =
        ⟨r, b.link.flash⟩ := link_idle
          (show Window.Silent ⟨false, bridgeControl, 0x00⟩ from rfl) rests.idle
    have same := settled_quiet quiet r.busy
    rw [still, Boot.clock]
    change (⟨{ settled r.busy { settled false l with
        window := ⟨false, bridgeControl, 0x00⟩, state := .imageCheck } with
          imageValid := l.header.applicationCrc == Crc32.crc (settled false l).crc,
          state := .relock }, Link.clock content ⟨false, bridgeControl, 0x00⟩
            ⟨r, b.link.flash⟩⟩ : Boot) = _
    rw [link, same]
  change Relocking content fields (still content (still content (still content b)))
  rw [first, second, third]
  refine ⟨rfl, ⟨rfl, quiet.shiftStarted, rfl, rfl⟩, header.trans h.header, ?_, rests⟩
  change (l.header.applicationCrc ==
    Crc32.crc (Crc32.clock l.crcRestart l.crcValid l.crcData l.crc)) = _
  rw [restart, register, h.quiet.crcRestart, header, h.header, crc]
  rfl

theorem Relocking.still (h : Relocking content fields b) : still content b = ⟨{ b.loader with
    window := ⟨true, bridgeUnlock, 0x00⟩,
    state := if b.loader.imageValid then .arm else .recovery }, b.link⟩ := by
  have active : bootActive b.loader = true := by
    rw [bootActive, h.state]
    rfl
  have window : b.window quietInputs.registers = b.loader.window := if_pos active
  have decides : BootLoader.clock (FlashBridge.dataRead b.link.bridge) false false b.loader =
      { settled false b.loader with
        window := ⟨true, bridgeUnlock, 0x00⟩,
        state := if b.loader.imageValid then .arm else .recovery } := by
    unfold BootLoader.clock
    rw [h.state]
  rw [BootTurn.still, Boot.clock, window, h.bridge.idle, link_idle h.quiet.silent h.bridge.idle]
  change (⟨BootLoader.clock _ false false b.loader, _⟩ : Boot) = _
  rw [decides, settled_quiet h.quiet]

theorem reaches_relock (valid : accepts content = true) : LeadsTo (still content)
    (Checking content) (Relocking content (captured (block content) 24)) := by
  have selected : LeadsTo (still content) (Checking content) (Selecting .image
      ((captured (block content) 24).applicationAddress.setWidth 24)
      (captured (block content) 24)) := .of_iterate 2 fun _ h => h.selects valid
  have begun := (selected.trans (Selecting.reads _ _)).trans
    (.of_imp fun _ h => h.image_begins)
  have read : LeadsTo (still content) (ImageAt content (captured (block content) 24) 0)
      (ImageAt content (captured (block content) 24)
        (captured (block content) 24).applicationLength.toNat) :=
    LeadsTo.count 0 (Nat.zero_le _) fun k _ few => .of_iterate 66 fun _ h => h.next few
  exact (begun.trans read).trans (.of_iterate 3 fun _ h => h.ends)

end BootReading
