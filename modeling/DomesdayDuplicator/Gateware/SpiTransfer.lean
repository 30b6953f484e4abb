import DomesdayDuplicator.Gateware.RegisterBank

/-!
# A transfer, one edge after another

What the registers hold in the middle of a transaction is said in terms of the bits that have
come in, the byte on its way out and the level of the SPI clock.
-/

namespace SpiTransfer

open SpiRegisters SerialBits
open RegisterBank (addressOf isRead latches pointer store transact transactBytes windowWritten)

inductive Event where
  | released
  | rise (bit : Bool)
  | fall
  | quiet
  deriving DecidableEq

def eventOf (r : Registers) : Event :=
  if r.spiChipSelectN.level then .released
  else if spiClockRising r then .rise r.spiMosiSync1
  else if spiClockFalling r then .fall
  else .quiet

def take (p : Parameters) (around : Surroundings) (t : Transfer) : Event → Transfer
  | .released => t.release
  | .rise bit => takeBit p around bit t.lower
  | .fall => putBit t.lower
  | .quiet => t.lower

theorem clockTransfer_eq (p : Parameters) (around : Surroundings) (r : Registers) :
    clockTransfer p around r = take p around r.transfer (eventOf r) := by
  unfold clockTransfer eventOf
  split_ifs <;> rfl

/-- The bytes of the transaction, if this edge completes one. -/
def completes (bits : List Bool) : Event → List Byte
  | .rise bit => if (bits.length + 1) % 8 = 0 then bytes (bits ++ [bit]) else []
  | _ => []

/-- The byte that goes out next. -/
def respond (p : Parameters) (around : Surroundings) (bank : Bank) : List Byte → Byte
  | [] => 0
  | command :: data =>
    if isRead command then
      readRegister p around bank (pointer (addressOf command) data.length)
    else 0

def windowOf (t : Transfer) : Option (BitVec 2 × Byte) :=
  if t.windowWritePulse then some (t.windowWriteAddress, t.windowWriteByte) else none

/-- What leaves the module beside the bits of its answer. -/
structure Strobes (p : Parameters) (sent : List Byte) (t : Transfer) : Prop where
  window : windowOf t = windowWritten sent
  decoded : t.dataByteComplete = decide (2 ≤ sent.length)
  latch : t.telemetryLatchPulse = latches p sent

structure Carries (p : Parameters) (first : Bank) (bits : List Bool) (loaded : Byte)
    (high : Bool) (t : Transfer) : Prop where
  shiftIn : t.shiftIn = (shifted bits).setWidth 7
  bitCount : t.bitCount = BitVec.ofNat 3 bits.length
  commandReceived : t.commandReceived = decide (8 ≤ bits.length)
  underWay : ∀ command data, bytes bits = command :: data →
    t.readTransfer = isRead command ∧ t.address = pointer (addressOf command) data.length
  shiftOut : t.shiftOut = loaded <<< (bits.length % 8 + if high then 0 else 1)
  miso : high = false → t.misoOut = loaded.getMsbD (bits.length % 8)
  bank : t.bank = transact p first bits

variable {p : Parameters} {around : Surroundings} {first : Bank} {bits : List Bool}
  {loaded : Byte} {high b : Bool} {t : Transfer}

theorem bytes_few (few : bits.length < 8) : bytes bits = [] := by
  rw [bytes, Nat.div_eq_of_lt few]
  rfl

theorem strobes_lower (t : Transfer) : Strobes p [] t.lower :=
  ⟨rfl, rfl, by simp [latches, Transfer.lower]⟩

/-! ## Between the bytes -/

theorem carries_release (t : Transfer) (high : Bool) : Carries p t.bank [] 0 high t.release where
  shiftIn := rfl
  bitCount := rfl
  commandReceived := rfl
  underWay := fun _ _ none => nomatch none
  shiftOut := by simp [Transfer.release]
  miso := fun _ => rfl
  bank := rfl

theorem strobes_release (t : Transfer) : Strobes p [] t.release :=
  ⟨rfl, rfl, by simp [latches, Transfer.release]⟩

theorem Carries.lower (h : Carries p first bits loaded high t) :
    Carries p first bits loaded high t.lower :=
  ⟨h.shiftIn, h.bitCount, h.commandReceived, h.underWay, h.shiftOut, h.miso, h.bank⟩

theorem shiftLeft_shiftConcat (x : Byte) (n : Nat) :
    (x <<< n).shiftConcat false = x <<< (n + 1) := by
  rw [BitVec.shiftLeft_add]
  apply BitVec.eq_of_getLsbD_eq
  intro i within
  rw [BitVec.getLsbD_shiftConcat, BitVec.getLsbD_shiftLeft]
  rcases i with _ | i
  · simp
  · have inner : i < 8 := by omega
    simp only [within, inner, decide_true, Bool.true_and, BitVec.getLsbD_shiftLeft,
      Nat.add_sub_cancel, Nat.add_eq_zero_iff, one_ne_zero, and_false]
    simp

theorem msb_shiftLeft (x : Byte) (n : Nat) : (x <<< n).msb = x.getMsbD n := by
  rw [BitVec.msb_eq_getMsbD_zero, BitVec.getMsbD_shiftLeft, Nat.zero_add]

theorem Carries.fall (h : Carries p first bits loaded true t) :
    Carries p first bits loaded false (putBit t) where
  shiftIn := h.shiftIn
  bitCount := h.bitCount
  commandReceived := h.commandReceived
  underWay := h.underWay
  shiftOut := by
    have out : t.shiftOut = loaded <<< (bits.length % 8) := h.shiftOut
    change t.shiftOut.shiftConcat false = loaded <<< (bits.length % 8 + 1)
    rw [out, shiftLeft_shiftConcat]
  miso := by
    have out : t.shiftOut = loaded <<< (bits.length % 8) := h.shiftOut
    intro _
    change t.shiftOut.msb = _
    rw [out, msb_shiftLeft]
  bank := h.bank

/-! ## The bits of a byte -/

theorem append_bit (x : Byte) (b : Bool) :
    ((x.setWidth 7 : BitVec 7) ++ BitVec.ofBool b : BitVec 8) = x.shiftConcat b := by
  apply BitVec.eq_of_getLsbD_eq
  intro i within
  rw [BitVec.getLsbD_shiftConcat, BitVec.getLsbD_append, BitVec.getLsbD_setWidth]
  rcases i with _ | i
  · simp
  · simp [within]
    omega

theorem Carries.next (h : Carries p first bits loaded high t) (b : Bool) :
    shiftInNext b t = shifted (bits ++ [b]) := by
  rw [shiftInNext, h.shiftIn, shifted_snoc]
  exact append_bit _ _

theorem Carries.last_iff (h : Carries p first bits loaded high t) :
    t.bitCount = 7 ↔ (bits.length + 1) % 8 = 0 := by
  rw [h.bitCount, ← BitVec.toNat_inj, BitVec.toNat_ofNat]
  change bits.length % 8 = 7 ↔ _
  omega

theorem Carries.counts (h : Carries p first bits loaded high t) (b : Bool) :
    t.bitCount + 1 = BitVec.ofNat 3 (bits ++ [b]).length := by
  rw [h.bitCount, List.length_append, List.length_singleton, BitVec.ofNat_add]
  rfl

theorem Carries.rise_within (h : Carries p first bits loaded false t)
    (within : (bits.length + 1) % 8 ≠ 0) :
    Carries p first (bits ++ [b]) loaded true (takeBit p around b t) := by
  have early : t.bitCount ≠ 7 := fun last => within (h.last_iff.1 last)
  have length : (bits ++ [b]).length = bits.length + 1 := by
    rw [List.length_append, List.length_singleton]
  have same : bytes (bits ++ [b]) = bytes bits := bytes_snoc_within within
  rw [takeBit, if_neg early, h.next]
  refine ⟨rfl, h.counts b, ?_, ?_, ?_, nofun, ?_⟩
  · change t.commandReceived = _
    rw [h.commandReceived, length]
    exact decide_eq_decide.2 (by omega)
  · intro command data sent
    exact h.underWay command data (same ▸ sent)
  · change t.shiftOut = _
    rw [h.shiftOut, length]
    congr 1
    change bits.length % 8 + 1 = (bits.length + 1) % 8 + 0
    omega
  · change t.bank = transact p first (bits ++ [b])
    rw [h.bank, transact, transact, same]

/-- The command: nothing has been written, and a read has its first register on the way. -/
theorem Carries.rise_command (h : Carries p first bits loaded false t) (seven : bits.length = 7) :
    Carries p first (bits ++ [b]) (respond p around t.bank (bytes (bits ++ [b]))) true
      (takeBit p around b t.lower) ∧
    Strobes p (bytes (bits ++ [b])) (takeBit p around b t.lower) := by
  have last : t.lower.bitCount = 7 := h.last_iff.2 (by omega)
  have waiting : t.lower.commandReceived = false := by
    change t.commandReceived = false
    rw [h.commandReceived, seven]
    rfl
  have length : (bits ++ [b]).length = 8 := by
    rw [List.length_append, seven]
    rfl
  have sent : bytes (bits ++ [b]) = [shifted (bits ++ [b])] := by
    rw [bytes_snoc_full (by omega), bytes_few (by omega)]
    rfl
  rw [takeBit, if_pos last, h.lower.next, waiting, sent]
  generalize byte_is : shifted (bits ++ [b]) = byte
  refine ⟨⟨?_, h.lower.counts b, ?_, ?_, ?_, nofun, ?_⟩, ?_, rfl, ?_⟩
  · rw [byte_is]
    rfl
  · rw [length]
    rfl
  · intro command data same
    rw [sent, byte_is, List.cons.injEq] at same
    obtain ⟨rfl, rfl⟩ := same
    exact ⟨rfl, rfl⟩
  · rw [length]
    exact (BitVec.shiftLeft_zero _).symm
  · change t.bank = transact p first (bits ++ [b])
    rw [h.bank, transact, transact, sent, bytes_few (by omega)]
    simp only [transactBytes, RegisterBank.storeFrom, ite_self]
  · rfl
  · have read : ∀ c : Byte, (c.msb && c.setWidth 7 == telemetryIdAddress) = ([c] == [0xC0#8]) := by
      decide +kernel
    change (p.telemetryPresent && byte.msb && byte.setWidth 7 == telemetryIdAddress) = _
    rw [Bool.and_assoc, read, latches]
    rfl

theorem writeRegister_bank (byte : Byte) (t : Transfer) :
    (writeRegister p byte t).bank = store p t.address byte t.bank := by
  unfold writeRegister store
  split_ifs <;> simp_all

theorem writeRegister_kept (byte : Byte) (t : Transfer) : writeRegister p byte t =
    { t with bank := (writeRegister p byte t).bank
             windowWritePulse := (writeRegister p byte t).windowWritePulse
             windowWriteAddress := (writeRegister p byte t).windowWriteAddress
             windowWriteByte := (writeRegister p byte t).windowWriteByte } := by
  unfold writeRegister
  split_ifs <;> rfl

/-- The registers of the bank are met before the window, and none of them is in it. -/
theorem writeRegister_window (byte : Byte) {t : Transfer} (low : t.windowWritePulse = false) :
    windowOf (writeRegister p byte t) =
      if addressInWindow t.address then some (t.address.setWidth 2, byte) else none := by
  have outside : ∀ a : Address, a = 0x10 ∨ a = 0x11 ∨ a = 0x12 → addressInWindow a = false := by
    rintro a (rfl | rfl | rfl) <;> rfl
  have kept : ∀ bank : Bank, windowOf { t with bank := bank } = none := by
    intro bank
    exact if_neg (by simp [low])
  by_cases named : t.address = 0x10 ∨ t.address = 0x11 ∨ t.address = 0x12
  · rw [outside _ named, if_neg Bool.false_ne_true, writeRegister]
    rcases named with testMode | led | decimation
    · rw [if_pos testMode]
      exact kept _
    · rw [if_neg (by rw [led]; decide), if_pos led]
      exact kept _
    · rw [if_neg (by rw [decimation]; decide), if_neg (by rw [decimation]; decide),
        if_pos decimation]
      by_cases present : p.decimationPresent = true
      · rw [if_pos present]
        exact kept _
      · rw [if_neg present]
        exact kept t.bank
  · obtain ⟨not_mode, rest⟩ := not_or.1 named
    obtain ⟨not_led, not_decimation⟩ := not_or.1 rest
    rw [writeRegister, if_neg not_mode, if_neg not_led, if_neg not_decimation]
    split_ifs
    · rfl
    · exact kept t.bank

/-- What a byte of data does: the address moves on, and it is written here and nowhere else. -/
structure TakesData (p : Parameters) (around : Surroundings) (byte : Byte) (t u : Transfer) :
    Prop where
  shiftIn : u.shiftIn = t.shiftIn
  bitCount : u.bitCount = t.bitCount
  commandReceived : u.commandReceived = t.commandReceived
  readTransfer : u.readTransfer = t.readTransfer
  latch : u.telemetryLatchPulse = t.telemetryLatchPulse
  bank : u.bank = if t.readTransfer then t.bank else store p t.address byte t.bank
  window : t.windowWritePulse = false → windowOf u =
    if !t.readTransfer && addressInWindow t.address then some (t.address.setWidth 2, byte) else none
  address : u.address = addressNext t.address
  decoded : u.dataByteComplete = true
  shiftOut : u.shiftOut =
    if t.readTransfer then readRegister p around t.bank (addressNext t.address) else 0

theorem takeData_takes (byte : Byte) (t : Transfer) :
    TakesData p around byte t (takeData p around byte t) := by
  cases read : t.readTransfer with
  | true =>
    have same : (if t.readTransfer then t else writeRegister p byte t) = t := if_pos read
    rw [takeData, same]
    refine ⟨rfl, rfl, rfl, rfl, rfl, ?_, ?_, rfl, rfl, rfl⟩
    · exact (if_pos read).symm
    · intro low
      have nothing : (!t.readTransfer && addressInWindow t.address) = false := by rw [read]; rfl
      rw [nothing]
      exact if_neg (by simp [low])
  | false =>
    have wrote : (if t.readTransfer then t else writeRegister p byte t) =
        writeRegister p byte t := if_neg (by simp [read])
    have kept := writeRegister_kept (p := p) byte t
    rw [takeData, wrote]
    refine ⟨?_, ?_, ?_, ?_, ?_, ?_, ?_, rfl, rfl, rfl⟩
    · exact (congrArg Transfer.shiftIn kept :)
    · exact (congrArg Transfer.bitCount kept :)
    · exact (congrArg Transfer.commandReceived kept :)
    · exact (congrArg Transfer.readTransfer kept :)
    · exact (congrArg Transfer.telemetryLatchPulse kept :)
    · exact (writeRegister_bank byte t).trans (if_neg (by simp [read])).symm
    · intro low
      have writing : (!t.readTransfer && addressInWindow t.address) = addressInWindow t.address := by
        rw [read]
        rfl
      rw [writing]
      exact writeRegister_window byte low

/-- The output pin changes on falling edges alone. -/
theorem takeBit_miso (b : Bool) (t : Transfer) :
    (takeBit p around b t).misoOut = t.misoOut := by
  have data : ∀ (byte : Byte) (u : Transfer), (takeData p around byte u).misoOut = u.misoOut := by
    intro byte u
    change (if u.readTransfer then u else writeRegister p byte u).misoOut = _
    split_ifs
    · rfl
    · exact (congrArg Transfer.misoOut (writeRegister_kept (p := p) byte u) :)
  unfold takeBit
  dsimp only
  split_ifs
  · exact data _ _
  · rfl
  · rfl

theorem Carries.rise_data (h : Carries p first bits loaded false t)
    (full : (bits.length + 1) % 8 = 0) (some : 8 ≤ bits.length) :
    Carries p first (bits ++ [b]) (respond p around t.bank (bytes (bits ++ [b]))) true
      (takeBit p around b t.lower) ∧
    Strobes p (bytes (bits ++ [b])) (takeBit p around b t.lower) := by
  have last : t.lower.bitCount = 7 := h.last_iff.2 full
  have commanded : t.lower.commandReceived = true := by
    change t.commandReceived = true
    rw [h.commandReceived]
    exact decide_eq_true some
  have length : (bits ++ [b]).length = bits.length + 1 := by
    rw [List.length_append, List.length_singleton]
  obtain ⟨command, data, earlier⟩ : ∃ command data, bytes bits = command :: data := by
    apply List.exists_cons_of_ne_nil
    rw [← List.length_pos_iff, bytes, List.length_map, List.length_range]
    omega
  obtain ⟨read, place⟩ := h.underWay command data earlier
  have sent : bytes (bits ++ [b]) = command :: data ++ [shifted (bits ++ [b])] := by
    rw [bytes_snoc_full full, earlier]
  have grown : (data ++ [shifted (bits ++ [b])]).length = data.length + 1 := by
    rw [List.length_append, List.length_singleton]
  rw [takeBit, if_pos last, h.lower.next, if_pos commanded]
  have took := @takeData_takes p around (shifted (bits ++ [b]))
    { t.lower with shiftIn := (shifted (bits ++ [b])).setWidth 7
                   bitCount := t.lower.bitCount + 1 }
  refine ⟨⟨took.shiftIn, took.bitCount.trans (h.counts b), ?_, ?_, ?_, by rintro ⟨⟩, ?_⟩,
    ?_, ?_, ?_⟩
  · rw [took.commandReceived, length]
    exact commanded.trans (decide_eq_true (by omega)).symm
  · intro other rest same
    rw [sent, List.cons_append, List.cons.injEq] at same
    obtain ⟨rfl, rfl⟩ := same
    refine ⟨took.readTransfer.trans read, ?_⟩
    rw [took.address, grown, pointer, ← place]
    rfl
  · have none : (bits ++ [b]).length % 8 + (if true then 0 else 1) = 0 := by
      rw [length, full]
      rfl
    rw [none, BitVec.shiftLeft_zero, sent, List.cons_append, respond, grown, pointer, ← place,
      ← read]
    exact took.shiftOut
  · rw [took.bank, transact, sent, RegisterBank.transactBytes_snoc, ← earlier, ← read, ← place]
    change (if t.readTransfer then t.bank else store p t.address _ t.bank) = _
    rw [h.bank, transact, earlier]
    by_cases reading : t.readTransfer = true
    · rw [if_pos reading, if_pos reading, transactBytes, ← read, if_pos reading]
    · rw [if_neg reading, if_neg reading]
  · rw [sent, RegisterBank.windowWritten_snoc, ← read, ← place]
    exact took.window rfl
  · rw [took.decoded, sent]
    simp
  · rw [took.latch, latches, sent]
    simp [Transfer.lower]

/-! ## Any edge -/

theorem completes_some (full : (bits.length + 1) % 8 = 0) :
    completes bits (.rise b) = bytes (bits ++ [b]) := if_pos full

theorem completes_none (within : (bits.length + 1) % 8 ≠ 0) :
    completes bits (.rise b) = [] := if_neg within

/-- One edge that completes a byte, whichever byte of the transaction it is. -/
theorem rise_full (h : Carries p first bits loaded false t)
    (full : (bits.length + 1) % 8 = 0) :
    Carries p first (bits ++ [b]) (respond p around t.bank (bytes (bits ++ [b]))) true
      (takeBit p around b t.lower) ∧
    Strobes p (bytes (bits ++ [b])) (takeBit p around b t.lower) := by
  rcases Nat.lt_or_ge bits.length 8 with few | many
  · exact h.rise_command (by omega)
  · exact h.rise_data full many

theorem strobes_takeBit (h : Carries p first bits loaded high t)
    (within : (bits.length + 1) % 8 ≠ 0) : Strobes p [] (takeBit p around b t.lower) := by
  have early : t.lower.bitCount ≠ 7 := fun last => within (h.last_iff.1 last)
  rw [takeBit, if_neg early]
  exact ⟨rfl, rfl, (strobes_lower t).latch⟩

/-- The byte on its way out after this edge. -/
def loadedNext (p : Parameters) (around : Surroundings) (bank : Bank) (loaded : Byte)
    (sent : List Byte) : Event → Byte
  | .released => 0
  | _ => if sent = [] then loaded else respond p around bank sent

theorem Carries.rise (h : Carries p first bits loaded false t) (around : Surroundings) (b : Bool) :
    Strobes p (completes bits (.rise b)) (take p around t (.rise b)) ∧
    Carries p first (bits ++ [b])
      (loadedNext p around t.bank loaded (completes bits (.rise b)) (.rise b)) true
      (take p around t (.rise b)) := by
  by_cases full : (bits.length + 1) % 8 = 0
  · have some : bytes (bits ++ [b]) ≠ [] := by
      rw [bytes_snoc_full full]
      simp
    have loads : loadedNext p around t.bank loaded (bytes (bits ++ [b])) (.rise b) =
        respond p around t.bank (bytes (bits ++ [b])) := if_neg some
    rw [completes_some full, loads]
    exact (rise_full h full).symm
  · rw [completes_none full]
    exact ⟨strobes_takeBit h full, h.lower.rise_within full⟩

end SpiTransfer
