import DomesdayDuplicator.Firmware.RegisterLink

/-!
# Requests to the register bank

Every transaction of the firmware is one of the bank, and the link is idle again after it, so a
run of requests is served as the bank would serve them. Where the link was before does not
matter: five clocks of idle lines bring it back from anywhere.
-/

namespace RegisterRequests

open InputFilter SpiRegisters SpiTransfer SerialBits FpgaRegisters RegisterLink
open RegisterBank (addressOf isRead latches leaving pointer storeFrom transactBytes windowWritten)

variable {p : Parameters} {w : Around} {q : Pace} {first : Bank}
  {sent data : List Byte} {loaded command address : Byte} {b c : Board}

/-- What left the port, each at its time; between two of them there is at least a byte. -/
def Stamped {α : Type} : Nat → List (Nat × α) → Nat → Prop
  | earliest, [], latest => earliest ≤ latest
  | earliest, (stamp, _) :: rest, latest => earliest + 94 < stamp ∧ Stamped stamp rest latest

theorem Stamped.sooner {α : Type} {log : List (Nat × α)} {less earliest latest : Nat}
    (h : Stamped earliest log latest) (le : less ≤ earliest) : Stamped less log latest := by
  cases log with
  | nil => exact Nat.le_trans le h
  | cons entry rest => exact ⟨by have := h.1; omega, h.2⟩

theorem Stamped.later {α : Type} {log : List (Nat × α)} {earliest latest more : Nat}
    (h : Stamped earliest log latest) (le : latest ≤ more) : Stamped earliest log more := by
  induction log generalizing earliest with
  | nil => exact Nat.le_trans h le
  | cons entry rest ih => exact ⟨h.1, ih h.2⟩

theorem Stamped.append {α : Type} {first second : List (Nat × α)} {earliest middle latest : Nat}
    (h : Stamped earliest first middle) (more : Stamped middle second latest) :
    Stamped earliest (first ++ second) latest := by
  induction first generalizing earliest with
  | nil => exact more.sooner h
  | cons entry rest ih => exact ⟨h.1, ih h.2⟩

/-- From one board to a later one, with what left by the window in between. -/
structure Emits (values : List (BitVec 2 × Byte)) (b c : Board) : Prop where
  log : ∃ log : List (Nat × BitVec 2 × Byte), c.window = b.window ++ log ∧
    log.map Prod.snd = values ∧ Stamped b.time log c.time

theorem Emits.trans {first second : List (BitVec 2 × Byte)} {d : Board} (h : Emits first b c)
    (more : Emits second c d) : Emits (first ++ second) b d := by
  obtain ⟨log, window, values, stamped⟩ := h.log
  obtain ⟨log', window', values', stamped'⟩ := more.log
  refine ⟨log ++ log', ?_, ?_, stamped.append stamped'⟩
  · rw [window', window, List.append_assoc]
  · rw [List.map_append, values, values']

theorem Emits.quiet (h : Quiet p b c) : Emits [] b c :=
  ⟨[], h.window, rfl, h.time⟩

/-! ## Writing -/

theorem latches_data (byte : Byte) : latches p (command :: data ++ [byte]) = false := by
  rw [latches]
  simp

theorem passes_data {byte : Byte} {time : Nat}
    (h : Passes p (command :: data ++ [byte]) (time + 1) b c) (after : b.time + 94 ≤ time)
    (before : time < c.time) :
    Emits (if !isRead command &&
        SpiRegisters.addressInWindow (pointer (addressOf command) data.length) then
      [((pointer (addressOf command) data.length).setWidth 2, byte)] else []) b c ∧
    c.latches = b.latches := by
  refine ⟨⟨(windowWritten (command :: data ++ [byte])).toList.map fun w => (time + 1, w),
    h.window, ?_, ?_⟩, ?_⟩
  · rw [RegisterBank.windowWritten_snoc]
    split_ifs <;> rfl
  · rw [RegisterBank.windowWritten_snoc]
    split_ifs
    · exact ⟨by omega, before⟩
    · exact h.time
  · rw [h.latches, latches_data]
    exact List.append_nil _

structure Wrote (p : Parameters) (first : Bank) (command : Byte) (done data : List Byte)
    (b c : Board) : Prop where
  between : ∃ loaded, Between p first (command :: done ++ data) loaded c
  window : Emits (leaving (addressOf command) done.length data) b c
  latches : c.latches = b.latches

theorem writeBytes_wrote (writing : isRead command = false) (data : List Byte) {e : List Byte}
    (between : Between p first (command :: e) loaded b) :
    Wrote p first command e data b (writeBytes p w q data b) := by
  induction data generalizing e loaded b with
  | nil =>
    refine ⟨⟨loaded, ?_⟩, .quiet (p := p) (.refl b), rfl⟩
    rw [List.append_nil]
    exact between
  | cons byte data ih =>
    obtain ⟨-, time, after, before, next, passes⟩ :=
      transferByte_sends (w := w) (q := q) between byte
    obtain ⟨window, same⟩ := passes_data passes after before
    rw [writing, Bool.not_false, Bool.true_and] at window
    obtain ⟨⟨last, there⟩, more, still⟩ := ih (e := e ++ [byte]) next
    refine ⟨⟨last, ?_⟩, ?_, still.trans same⟩
    · rw [List.cons_append, List.append_assoc] at there
      exact there
    · rw [List.length_append, List.length_singleton] at more
      exact window.trans more

theorem isRead_write (small : address ≤ registerAddressMax) : isRead address = false := by
  have every : ∀ a : Byte, a ≤ registerAddressMax → isRead a = false := by decide +kernel
  exact every address small

theorem command_read (small : address ≤ registerAddressMax) :
    isRead (0x80 ||| address) = true ∧ addressOf (0x80 ||| address) = addressOf address ∧
      ((0x80 ||| address) = 0xC0 ↔ address = 0x40) := by
  have every : ∀ a : Byte, a ≤ registerAddressMax → isRead (0x80 ||| a) = true ∧
      addressOf (0x80 ||| a) = addressOf a ∧ ((0x80 ||| a) = 0xC0 ↔ a = 0x40) := by
    decide +kernel
  exact every address small

/-- A transaction that writes. -/
structure Written (p : Parameters) (address : Byte) (data : List Byte) (b c : Board) : Prop where
  idle : Idle c
  bank : c.port.transfer.bank = storeFrom p (addressOf address) 0 data b.port.transfer.bank
  window : Emits (leaving (addressOf address) 0 data) b c
  latches : c.latches = b.latches

theorem fpgaRegistersWriteBurst_writes (idle : Idle b) (small : address ≤ registerAddressMax)
    (some : data ≠ []) :
    (fpgaRegistersWriteBurst p w q true address data b).1 = true ∧
      Written p address data b (fpgaRegistersWriteBurst p w q true address data b).2 := by
  have accepted : ¬(data = [] ∨ registerAddressMax < address ∨ true = false) := by
    rintro (none | large | unready)
    · exact some none
    · exact absurd small (BitVec.not_le.2 large)
    · exact absurd unready (by decide)
  have writing := isRead_write small
  rw [fpgaRegistersWriteBurst, if_neg accepted]
  refine ⟨rfl, ?_⟩
  dsimp only
  obtain ⟨begun, first_passes⟩ := selectFpga_begins (p := p) (w := w) (q := q) idle
  generalize selectFpga p w q b = selected at *
  obtain ⟨-, time, -, -, commanded, second_passes⟩ :=
    transferByte_sends (w := w) (q := q) begun address
  generalize (transferByte p w q address selected).2 = ready at *
  obtain ⟨⟨loaded, last⟩, window, latches⟩ :=
    writeBytes_wrote (w := w) (q := q) writing data commanded
  generalize writeBytes p w q data ready = wrote at *
  obtain ⟨done, bank, third_passes⟩ := deselectFpga_ends (w := w) (q := q) last
  have not_latch : RegisterBank.latches p [address] = false := by
    have other : ∀ a : Byte, isRead a = false → ([a] == [0xC0#8]) = false := by decide +kernel
    rw [RegisterBank.latches]
    exact (congrArg _ (other address writing)).trans (Bool.and_false _)
  have began : Quiet p b ready := by
    refine Quiet.trans first_passes (Quiet.of_eq (second_passes.window.trans (List.append_nil _)) ?_
      second_passes.time)
    rw [second_passes.latches, List.nil_append, not_latch]
    exact List.append_nil _
  refine ⟨done, ?_, ?_, ?_⟩
  · rw [bank]
    exact if_neg (by rw [writing]; decide)
  · have all := ((Emits.quiet began).trans window).trans (.quiet third_passes)
    rwa [List.nil_append, List.append_nil] at all
  · rw [Quiet.latches_eq third_passes, latches, began.latches_eq]

/-! ## Reading -/

/-- Bytes read one after another, the first of them settled at `time`: the registers may change
between two of them, the addresses follow the bank's. -/
def Reads (p : Parameters) (around : Nat → Surroundings) (bank : Bank) (start : Address) :
    Nat → Nat → List Byte → Nat → Prop
  | _, time, [], latest => time < latest
  | k, time, byte :: rest, latest =>
    byte = readRegister p (around time) bank (pointer start k) ∧
      ∃ next, time + 94 ≤ next ∧ Reads p around bank start (k + 1) next rest latest

theorem Reads.later {around : Nat → Surroundings} {bank : Bank} {start : Address}
    {k time latest more : Nat} {received : List Byte}
    (h : Reads p around bank start k time received latest) (le : latest ≤ more) :
    Reads p around bank start k time received more := by
  induction received generalizing k time with
  | nil => exact Nat.lt_of_lt_of_le h le
  | cons byte rest ih =>
    obtain ⟨is, next, after, reads⟩ := h
    exact ⟨is, next, after, ih reads⟩

theorem passes_read {stamp : Nat} {byte : Byte} (reading : isRead command = true)
    (h : Passes p (command :: data ++ [byte]) stamp b c) :
    Quiet p b c ∧ (data ++ [byte]).length = data.length + 1 := by
  refine ⟨.of_eq ?_ ?_ h.time, by rw [List.length_append, List.length_singleton]⟩
  · rw [h.window, RegisterBank.windowWritten_snoc, reading]
    exact List.append_nil _
  · rw [h.latches, latches_data]
    exact List.append_nil _

/-- What the port answers with at a time, as long as nothing leaves it. -/
abbrev meanwhile (w : Around) (b : Board) (time : Nat) : Surroundings := w time b.window b.latches

/-- The first byte was settled before, the others follow it. -/
structure ReadBytes (p : Parameters) (w : Around) (first : Bank) (command loaded : Byte)
    (k n : Nat) (b : Board) (received : List Byte) (c : Board) : Prop where
  length : received.length = n + 1
  reads : ∃ rest next, received = loaded :: rest ∧ b.time + 94 ≤ next ∧
    Reads p (meanwhile w b) first (addressOf command) (k + 1) next rest c.time
  between : ∃ sent loaded, Between p first (command :: sent) loaded c
  quiet : Quiet p b c

theorem transactBytes_read (reading : isRead command = true) (done : List Byte) :
    transactBytes p first (command :: done) = first := if_pos reading

theorem meanwhile_quiet (h : Quiet p b c) : meanwhile w c = meanwhile w b := by
  funext time
  rw [meanwhile, meanwhile, h.window_eq, h.latches_eq]

theorem readBytes_reads (reading : isRead command = true) {e : List Byte}
    (between : Between p first (command :: e) loaded b) (n : Nat) :
    ReadBytes p w first command loaded e.length n b
      (readBytes p w q (n + 1) b).1 (readBytes p w q (n + 1) b).2 := by
  induction n generalizing e loaded b with
  | zero =>
    obtain ⟨answer, next, after, earlier, there, passes⟩ :=
      transferByte_sends (w := w) (q := q) between 0x00
    obtain ⟨quiet, -⟩ := passes_read reading passes
    exact ⟨rfl, ⟨[], next, congrArg (· :: []) answer, after, earlier⟩, ⟨_, _, there⟩, quiet⟩
  | succ n ih =>
    obtain ⟨answer, next, after, earlier, there, passes⟩ :=
      transferByte_sends (w := w) (q := q) between 0x00
    obtain ⟨quiet, grown⟩ := passes_read reading passes
    have loads : respond p (meanwhile w b next)
        (transactBytes p first (command :: e ++ [0x00]).dropLast) (command :: e ++ [0x00]) =
        readRegister p (meanwhile w b next) first
          (pointer (addressOf command) (e ++ [(0x00 : Byte)]).length) := by
      rw [List.dropLast_concat, transactBytes_read reading]
      exact if_pos reading
    rw [loads] at there
    obtain ⟨length, ⟨rest, later, received, late, reads⟩, last, more⟩ :=
      ih (e := e ++ [0x00]) (by exact there)
    rw [meanwhile_quiet quiet, grown] at reads
    rw [grown] at received
    refine ⟨congrArg Nat.succ length, ⟨_, next, congrArg₂ (· :: ·) answer received, after, rfl,
      later, by omega, reads⟩, last, quiet.trans more⟩

structure Answered (p : Parameters) (w : Around) (address length : Byte) (b : Board)
    (received : List Byte) (c : Board) : Prop where
  idle : Idle c
  length : received.length = length.toNat
  window : c.window = b.window
  later : b.time ≤ c.time
  bank : c.port.transfer.bank = b.port.transfer.bank
  /-- The first byte is settled before the instrument is sampled, the others after it. -/
  reads : ∃ time rest next, b.time + 94 ≤ time ∧ time + 94 ≤ next ∧
    received = readRegister p (meanwhile w b time) b.port.transfer.bank (addressOf address) ::
      rest ∧
    Reads p (meanwhile w c) b.port.transfer.bank (addressOf address) 1 next rest c.time ∧
    c.latches = b.latches ++ if p.telemetryPresent ∧ address = 0x40 then [time + 1] else []

theorem fpgaRegistersRead_reads {length : Byte} (idle : Idle b)
    (small : address ≤ registerAddressMax) (some : length ≠ 0) : ∃ received,
    (fpgaRegistersRead p w q true address length b).1 = Option.some received ∧
      Answered p w address length b received
        (fpgaRegistersRead p w q true address length b).2 := by
  have accepted : ¬(length = 0 ∨ registerAddressMax < address ∨ true = false) := by
    rintro (none | large | unready)
    · exact some none
    · exact absurd small (BitVec.not_le.2 large)
    · exact absurd unready (by decide)
  obtain ⟨n, count⟩ : ∃ n, length.toNat = n + 1 := by
    refine Nat.exists_eq_succ_of_ne_zero fun zero => some ?_
    rw [← BitVec.toNat_inj, zero]
    rfl
  obtain ⟨reading, place, first_byte⟩ := command_read small
  rw [fpgaRegistersRead, if_neg accepted]
  dsimp only
  obtain ⟨begun, first_passes⟩ := selectFpga_begins (p := p) (w := w) (q := q) idle
  generalize selectFpga p w q b = selected at *
  obtain ⟨-, time, after, before, commanded, second_passes⟩ :=
    transferByte_sends (w := w) (q := q) begun (0x80 ||| address)
  generalize (transferByte p w q (0x80 ||| address) selected).2 = ready at *
  have loads : respond p (meanwhile w selected time) (transactBytes p b.port.transfer.bank
      ([] ++ [0x80 ||| address]).dropLast) ([] ++ [0x80 ||| address]) =
      readRegister p (meanwhile w selected time) b.port.transfer.bank
        (addressOf (0x80 ||| address)) := if_pos reading
  rw [loads, place, meanwhile_quiet first_passes] at commanded
  have passes := Quiet.trans first_passes second_passes
  rw [count]
  obtain ⟨all, ⟨rest, next, received, late, reads⟩, ⟨sent, loaded, last⟩, still⟩ :=
    readBytes_reads (w := w) (q := q) reading (e := []) commanded n
  generalize readBytes p w q (n + 1) ready = got at *
  obtain ⟨done, bank, third_passes⟩ := deselectFpga_ends (w := w) (q := q) last
  rw [place] at reads
  have latch : RegisterBank.latches p [0x80 ||| address] =
      decide (p.telemetryPresent ∧ address = 0x40) := by
    have same : ([0x80 ||| address] == [0xC0]) = decide (address = 0x40) := by
      rw [List.cons_beq_cons]
      exact (Bool.and_true _).trans (decide_eq_decide.2 first_byte)
    rw [RegisterBank.latches, Bool.decide_and, Bool.decide_eq_true, same]
  have ended : Quiet p ready (deselectFpga p w q got.2) := still.trans third_passes
  have early := first_passes.time
  refine ⟨got.1, rfl, done, all.trans count.symm, ?_, passes.time.trans ended.time,
    bank.trans (transactBytes_read reading sent),
    ⟨time, rest, next, by omega, by omega, received, ?_, ?_⟩⟩
  · rw [ended.window_eq]
    exact passes.window.trans (List.append_nil _)
  · rw [meanwhile_quiet ended]
    exact reads.later third_passes.time
  · rw [ended.latches_eq, passes.latches, List.nil_append, latch]
    simp

/-! ## Requests -/

/-- The requests that the firmware refuses before it touches a pin. -/
def refused : Request → Bool
  | .read address length => length == 0 || decide (registerAddressMax < address)
  | .write address _ => decide (registerAddressMax < address)
  | .writeBurst address data => data.isEmpty || decide (registerAddressMax < address)

def dataOf : Request → List Byte
  | .read _ _ => []
  | .write _ value => [value]
  | .writeBurst _ data => data

def placeOf : Request → Byte
  | .read address _ => address
  | .write address _ => address
  | .writeBurst address _ => address

def bankAfter (p : Parameters) (bank : Bank) (request : Request) : Bank :=
  if refused request then bank
  else storeFrom p (addressOf (placeOf request)) 0 (dataOf request) bank

def leaves (request : Request) : List (BitVec 2 × Byte) :=
  if refused request then [] else leaving (addressOf (placeOf request)) 0 (dataOf request)

/-- The instrument is sampled by a read that begins at its first register, and by nothing else. -/
def samples (p : Parameters) : Request → Nat
  | .read address length =>
    if p.telemetryPresent ∧ address = 0x40 ∧ length ≠ 0 then 1 else 0
  | _ => 0

def Answers (p : Parameters) (w : Around) (b : Board) (request : Request) (c : Board) :
    Reply → Prop
  | .done ok => ok = !refused request ∧ ∀ address length, request ≠ .read address length
  | .bytes received => ∃ address length, request = .read address length ∧
    if refused request then received = none
    else ∃ bytes, received = some bytes ∧ Answered p w address length b bytes c

/-- How often the telemetry has been sampled in between. -/
def Sampled (n : Nat) (b c : Board) : Prop :=
  ∃ times : List Nat, c.latches = b.latches ++ times ∧ times.length = n

structure Performed (p : Parameters) (w : Around) (request : Request)
    (b : Board) (reply : Reply) (c : Board) : Prop where
  idle : Idle c
  answers : Answers p w b request c reply
  bank : c.port.transfer.bank = bankAfter p b.port.transfer.bank request
  window : Emits (leaves request) b c
  latches : Sampled (samples p request) b c

/-- One at a time or in a burst of one, it is the same transaction. -/
theorem fpgaRegistersWrite_eq (ready : Bool) (value : Byte) (b : Board) :
    fpgaRegistersWrite p w q ready address value b =
      fpgaRegistersWriteBurst p w q ready address [value] b := by
  rw [fpgaRegistersWrite, fpgaRegistersWriteBurst]
  exact if_congr (by simp) rfl rfl

theorem writeBurst_performed (idle : Idle b) (data : List Byte) {request : Request}
    (refusing : refused request = (data.isEmpty || decide (registerAddressMax < address)))
    (writes : dataOf request = data) (place : placeOf request = address)
    (other : ∀ address length, request ≠ .read address length)
    (none : samples p request = 0) :
    Performed p w request b
      (.done (fpgaRegistersWriteBurst p w q true address data b).1)
      (fpgaRegistersWriteBurst p w q true address data b).2 := by
  cases refuse : refused request with
  | true =>
    have same : fpgaRegistersWriteBurst p w q true address data b = (false, b) := by
      refine if_pos ?_
      rw [refusing, Bool.or_eq_true, List.isEmpty_iff, decide_eq_true_eq] at refuse
      exact refuse.imp_right Or.inl
    rw [same]
    refine ⟨idle, ⟨by rw [refuse]; rfl, other⟩, ?_, ?_, ?_⟩
    · rw [bankAfter, if_pos refuse]
    · rw [leaves, if_pos refuse]
      exact .quiet (p := p) (.refl b)
    · exact ⟨[], (List.append_nil _).symm, none.symm⟩
  | false =>
    have taken := refuse
    rw [refusing, Bool.or_eq_false_iff, List.isEmpty_eq_false_iff, decide_eq_false_iff_not,
      BitVec.not_lt] at taken
    obtain ⟨ok, h⟩ := fpgaRegistersWriteBurst_writes (p := p) (w := w) (q := q)
      idle taken.2 taken.1
    refine ⟨h.idle, ⟨by rw [ok, refuse]; rfl, other⟩, ?_, ?_, ?_⟩
    · rw [h.bank, bankAfter, if_neg (by rw [refuse]; decide), place, writes]
    · rw [leaves, if_neg (by rw [refuse]; decide), place, writes]
      exact h.window
    · exact ⟨[], h.latches.trans (List.append_nil _).symm, none.symm⟩

theorem read_performed (idle : Idle b) (address length : Byte) :
    Performed p w (.read address length) b
      (.bytes (fpgaRegistersRead p w q true address length b).1)
      (fpgaRegistersRead p w q true address length b).2 := by
  cases refuse : refused (.read address length) with
  | true =>
    have same : fpgaRegistersRead p w q true address length b = (none, b) := by
      refine if_pos ?_
      rw [refused, Bool.or_eq_true, beq_iff_eq, decide_eq_true_eq] at refuse
      exact refuse.imp_right Or.inl
    have no_sample : samples p (.read address length) = 0 := by
      refine if_neg ?_
      rintro ⟨-, rfl, some⟩
      rw [refused, Bool.or_eq_true, beq_iff_eq] at refuse
      rcases refuse with none | large
      · exact some none
      · exact absurd large (by decide)
    rw [same]
    refine ⟨idle, ⟨address, length, rfl, by rw [refuse]; rfl⟩, ?_, ?_, ?_⟩
    · rw [bankAfter, if_pos refuse]
    · rw [leaves, if_pos refuse]
      exact .quiet (p := p) (.refl b)
    · exact ⟨[], (List.append_nil _).symm, no_sample.symm⟩
  | false =>
    have taken := refuse
    rw [refused, Bool.or_eq_false_iff, beq_eq_false_iff_ne, decide_eq_false_iff_not,
      BitVec.not_lt] at taken
    obtain ⟨received, is, h⟩ := fpgaRegistersRead_reads (p := p) (w := w) (q := q)
      idle taken.2 taken.1
    obtain ⟨time, -, -, -, -, -, -, latches⟩ := h.reads
    refine ⟨h.idle, ⟨address, length, rfl, ?_⟩, ?_, ?_, ?_⟩
    · rw [refuse]
      exact ⟨received, is, h⟩
    · rw [h.bank, bankAfter, if_neg (by rw [refuse]; decide)]
      rfl
    · rw [leaves, if_neg (by rw [refuse]; decide)]
      exact ⟨[], h.window.trans (List.append_nil _).symm, rfl, h.later⟩
    · refine ⟨_, latches, ?_⟩
      simp only [samples, ne_eq, taken.1, not_false_eq_true, and_true]
      split_ifs <;> rfl

theorem perform_performed (idle : Idle b) (request : Request) :
    Performed p w request b (perform p w q true request b).1
      (perform p w q true request b).2 := by
  cases request with
  | read address length => exact read_performed idle address length
  | write address value =>
    rw [perform, fpgaRegistersWrite_eq]
    exact writeBurst_performed idle [value] rfl rfl rfl (fun _ _ => nofun) rfl
  | writeBurst address data =>
    exact writeBurst_performed idle data rfl rfl rfl (fun _ _ => nofun) rfl

/-- A run of requests, each from where the one before left the board. -/
def Served (p : Parameters) (w : Around) : Board → List Request → List Reply → Board → Prop
  | b, [], [], c => c = b
  | b, request :: rest, reply :: replies, c => ∃ d,
    Performed p w request b reply d ∧ Served p w d rest replies c
  | _, _, _, _ => False

structure AllPerformed (p : Parameters) (w : Around) (requests : List Request) (b : Board)
    (replies : List Reply) (c : Board) : Prop where
  idle : Idle c
  served : Served p w b requests replies c
  bank : c.port.transfer.bank = requests.foldl (bankAfter p) b.port.transfer.bank
  window : Emits (requests.flatMap leaves) b c
  latches : Sampled (requests.map (samples p)).sum b c

theorem performAll_performed (idle : Idle b) (requests : List Request) :
    AllPerformed p w requests b (performAll p w q true requests b).1
      (performAll p w q true requests b).2 := by
  induction requests generalizing b with
  | nil =>
    exact ⟨idle, rfl, rfl, .quiet (p := p) (.refl b),
      [], (List.append_nil _).symm, rfl⟩
  | cons request rest ih =>
    have first := perform_performed (p := p) (w := w) (q := q) idle request
    have others := ih first.idle
    refine ⟨others.idle, ⟨_, first, others.served⟩, ?_, ?_, ?_⟩
    · rw [List.foldl_cons, ← first.bank]
      exact others.bank
    · rw [List.flatMap_cons]
      exact first.window.trans others.window
    · obtain ⟨times, latches, count⟩ := first.latches
      obtain ⟨more, later, rest_count⟩ := others.latches
      refine ⟨times ++ more, ?_, ?_⟩
      · exact later.trans (by rw [latches, List.append_assoc])
      · rw [List.length_append, count, rest_count, List.map_cons, List.sum_cons]

/-! ## From anywhere -/

theorem rest_idle (b : Board) (select : b.pins.spiChipSelectN = true)
    (clock : b.pins.spiClock = false) (n : Nat) : Idle (clocks p w (n + 5) b) := by
  have five : Deselected (clocks p w 5 b).port.transfer.bank true 5 (clocks p w 5 b) := by
    have select_clock : (clocks p w 5 b).port.spiChipSelectN =
        Channel.clock b.pins.spiChipSelectN
          (((((b.port.spiChipSelectN.clock b.pins.spiChipSelectN).clock
            b.pins.spiChipSelectN).clock b.pins.spiChipSelectN).clock b.pins.spiChipSelectN)) := rfl
    have clock_clock : (clocks p w 5 b).port.spiClock = Channel.clock b.pins.spiClock
        (((((b.port.spiClock.clock b.pins.spiClock).clock b.pins.spiClock).clock
          b.pins.spiClock).clock b.pins.spiClock)) := rfl
    have previous : (clocks p w 5 b).port.spiClockLevelPrevious =
        (((((b.port.spiClock.clock b.pins.spiClock).clock b.pins.spiClock).clock
          b.pins.spiClock).clock b.pins.spiClock)).level := rfl
    rw [Channel.clock_four] at select_clock clock_clock previous
    rw [select] at select_clock
    rw [clock] at clock_clock previous
    exact ⟨select, clock, ⟨select_clock, clock_clock, previous⟩, rfl⟩
  obtain ⟨last, -⟩ := five.holds (w := w) n
  rw [Nat.add_comm n 5, clocks_add]
  refine ⟨5 + n, Nat.le_add_right 5 n, ?_⟩
  rw [last.bank]
  exact last

theorem initialise_pins (b : Board) :
    (fpgaRegistersInitialise p w q b).pins = ⟨false, false, true⟩ := by
  unfold fpgaRegistersInitialise setValue
  dsimp only
  rw [clocks_pins, clocks_pins, clocks_pins]

/-- Whatever the port was in the middle of when the firmware started, five clocks later every run
of requests does what the bank does: each byte is written once, each read answered from the
registers it names, and the telemetry sampled by the reads that ask for it. -/
theorem requests_served (p : Parameters) (w : Around) (q : Pace) (b : Board)
    (n : Nat) (requests : List Request) :
    AllPerformed p w requests
      (clocks p w (n + 5) (fpgaRegistersInitialise p w q b))
      (performAll p w q true requests
        (clocks p w (n + 5) (fpgaRegistersInitialise p w q b))).1
      (performAll p w q true requests
        (clocks p w (n + 5) (fpgaRegistersInitialise p w q b))).2 := by
  have pins := initialise_pins (p := p) (w := w) (q := q) b
  exact performAll_performed
    (rest_idle _ (congrArg Pins.spiChipSelectN pins) (congrArg Pins.spiClock pins) n) requests

end RegisterRequests
