import DomesdayDuplicator.Gateware.Buffer

/-!
# Packets to the FX3

`fx3StateMachine.v` beside the capture buffer, as the application image wires
them: one clock and one reset, the state machine's reading flag driving the read
side. Each packet honoured is read whole, because the flag that offered it is
lowered by the same count that ends it.
-/

namespace PacketPath

open Buffer (Sample packetWords)

inductive State where
  | waitForRequest | sendPacket
  deriving DecidableEq, Repr

/-- The registers of `fx3StateMachine`. -/
structure Fx3StateMachine where
  currentState : State
  readDataFlag : Bool
  wordCounter : BitVec 16
  deriving DecidableEq, Repr

def Fx3StateMachine.cleared : Fx3StateMachine := ⟨.waitForRequest, false, 0⟩

def Fx3StateMachine.isReading (f : Fx3StateMachine) : Bool := f.currentState == .sendPacket

def Fx3StateMachine.nextState (f : Fx3StateMachine) : State :=
  match f.currentState with
  | .waitForRequest =>
    if f.readDataFlag = true ∧ f.wordCounter = 0 then .sendPacket else .waitForRequest
  | .sendPacket => if f.wordCounter = 8191 then .waitForRequest else .sendPacket

/-- The edge ahead begins a packet read. -/
def Fx3StateMachine.honours (f : Fx3StateMachine) : Bool :=
  f.currentState == .waitForRequest && f.nextState == .sendPacket

theorem Fx3StateMachine.honours_iff (f : Fx3StateMachine) : f.honours = true ↔
    f.currentState = .waitForRequest ∧ f.readDataFlag = true ∧ f.wordCounter = 0 := by
  obtain ⟨state, flag, counter⟩ := f
  cases state with
  | waitForRequest => simp [honours, nextState]
  | sendPacket => simp [honours]

/-- One edge of the clock with the reset released. -/
def Fx3StateMachine.clock (readData : Bool) (f : Fx3StateMachine) : Fx3StateMachine where
  currentState := f.nextState
  readDataFlag := readData
  wordCounter := if f.currentState = .sendPacket then f.wordCounter + 1 else 0

structure Path where
  buffer : Buffer.Registers
  fx3 : Fx3StateMachine

structure Inputs where
  resetN : Bool
  writeEnable : Bool
  dataIn : Sample
  readData : Bool

def Path.cleared (p : Path) : Path := ⟨Buffer.cleared p.buffer, .cleared⟩

def Path.present (resetN : Bool) (p : Path) : Path := if resetN then p else p.cleared

def Path.isReading (p : Path) : Bool := p.fx3.isReading

def bufferInputs (i : Inputs) (p : Path) : Buffer.Inputs :=
  ⟨i.resetN, i.writeEnable, i.dataIn, p.isReading⟩

def Path.overflow (i : Inputs) (p : Path) : Bool := Buffer.overflow (bufferInputs i p) p.buffer

/-- One edge of the clock. -/
def clock (i : Inputs) (p : Path) : Path :=
  let p := p.present i.resetN
  { buffer := Buffer.clock (bufferInputs i p) p.buffer
    fx3 := if i.resetN then p.fx3.clock i.readData else .cleared }

section Run

variable (start : Path) (inputs : Nat → Inputs)

/-- The registers before edge `n`, from a reset on. -/
def registers (n : Nat) : Path := ClockedCircuit.run clock start.cleared inputs n

/-- What is to be seen before edge `n`. -/
def seen (n : Nat) : Path := (registers start inputs n).present (inputs n).resetN

/-- The words taken off the databus at the edges from `m` to `n`. -/
def delivered (m n : Nat) : List Sample :=
  (List.range' m (n - m)).flatMap fun k =>
    if (seen start inputs k).isReading then [Buffer.dataOut (seen start inputs k).buffer] else []

/-- The words that came in at those edges, without those refused on overflow. -/
def admitted (m n : Nat) : List Sample :=
  (List.range' m (n - m)).flatMap fun k =>
    if (inputs k).writeEnable && !(seen start inputs k).overflow (inputs k) then
      [(inputs k).dataIn] else []

/-- The requests the FIFO sees at edge `n`. -/
def fifoRound (n : Nat) : BoundedQueue.Round Sample :=
  Fifo.round (Buffer.fifoInputs (bufferInputs (inputs n) (seen start inputs n)))

/-- The words in the buffer before edge `n`. -/
def contents (n : Nat) : List Sample :=
  BoundedQueue.contents Buffer.fifoDepth (fifoRound start inputs) n

/-- The FX3 starts a packet read only while one is offered. -/
def Polite : Prop :=
  ∀ n, (seen start inputs n).fx3.honours = true →
    (seen start inputs n).buffer.dataAvailable = true

/-- No reset at the edges from `m` to `n`. -/
def Released (m n : Nat) : Prop := ∀ k, m ≤ k → k < n → (inputs k).resetN = true

end Run

/-! ## One packet, counted on both sides -/

/-- The buffer's countdown and the state machine's count of one packet, over a
buffer that holds `q`. -/
structure Paired (q : List Sample) (p : Path) : Prop where
  holds : Fifo.Holds q p.buffer.fifo
  offered : p.buffer.dataAvailable = true → p.buffer.packetRemaining.toNat ≤ q.length
  whole : p.fx3.currentState = .waitForRequest → p.buffer.dataAvailable = true →
    p.buffer.packetRemaining.toNat = packetWords
  sending : p.fx3.currentState = .sendPacket → p.buffer.dataAvailable = true ∧
    p.buffer.packetRemaining.toNat + p.fx3.wordCounter.toNat = packetWords ∧
      p.fx3.wordCounter.toNat < packetWords

theorem paired_cleared (r : Buffer.Registers) : Paired [] ⟨Buffer.cleared r, .cleared⟩ := by
  constructor
  · exact Fifo.holds_cleared (by decide) r.fifo
  · intro up
    cases up
  · intro _ up
    cases up
  · intro send
    cases send

theorem Paired.fifo_next {q : List Sample} {p : Path} (h : Paired q p) {i : Inputs}
    (released : i.resetN = true) :
    Fifo.Holds (BoundedQueue.advance Buffer.fifoDepth q
      (if i.writeEnable then some i.dataIn else none) p.isReading)
      (clock i p).buffer.fifo := by
  have edge := h.holds.advance (Buffer.fifoInputs (bufferInputs i p))
  simpa [clock, Path.present, released, Buffer.clock, bufferInputs, Fifo.clock,
    Buffer.fifoInputs, Fifo.round] using edge

/-- Nothing is read while the state machine waits, so what is offered stays offered. -/
theorem Paired.next_waiting {q : List Sample} {p : Path} (h : Paired q p) {i : Inputs}
    (released : i.resetN = true) (waits : p.fx3.currentState = .waitForRequest)
    (polite : p.fx3.honours = true → p.buffer.dataAvailable = true) :
    Paired (BoundedQueue.advance Buffer.fifoDepth q
      (if i.writeEnable then some i.dataIn else none) p.isReading) (clock i p) := by
  have idle : p.isReading = false := by simp [Path.isReading, Fx3StateMachine.isReading, waits]
  have grows : q.length ≤ (BoundedQueue.advance Buffer.fifoDepth q
      (if i.writeEnable then some i.dataIn else none) p.isReading).length := by
    simp [BoundedQueue.advance, idle]
  have count := h.holds.count
  have buffer : (clock i p).buffer.dataAvailable = (Buffer.availability false p.buffer).1 ∧
      (clock i p).buffer.packetRemaining = (Buffer.availability false p.buffer).2 := by
    simp [clock, Path.present, released, Buffer.clock, bufferInputs, idle]
  have whole : (Buffer.availability false p.buffer).1 = true →
      (Buffer.availability false p.buffer).2.toNat = packetWords ∧ packetWords ≤ q.length := by
    intro up
    cases already : p.buffer.dataAvailable with
    | true =>
      have full := h.whole waits already
      have held := h.offered already
      rw [full] at held
      simpa [Buffer.availability, already] using ⟨full, held⟩
    | false =>
      by_cases enough : Buffer.packetThreshold ≤ Fifo.usedWords p.buffer.fifo
      · have held := (Buffer.threshold_le_iff _).mp enough
        simp only [Fifo.usedWords, count] at held
        simpa [Buffer.availability, already, enough, Buffer.packetCount, packetWords] using held
      · simp [Buffer.availability, already, enough] at up
  have fx3 : (clock i p).fx3 = p.fx3.clock i.readData := by
    simp [clock, Path.present, released]
  constructor
  · exact h.fifo_next released
  · intro up
    rw [buffer.1] at up
    obtain ⟨full, held⟩ := whole up
    rw [buffer.2, full]
    exact Nat.le_trans held grows
  · intro _ up
    rw [buffer.1] at up
    rw [buffer.2]
    exact (whole up).1
  · intro send
    rw [fx3] at send
    have honoured : p.fx3.honours = true := by
      have := show p.fx3.nextState = .sendPacket from send
      simp [Fx3StateMachine.honours, waits, this]
    have up : (Buffer.availability false p.buffer).1 = true := by
      simp [Buffer.availability, polite honoured]
    have zero : (clock i p).fx3.wordCounter = 0 := by
      simp [fx3, Fx3StateMachine.clock, waits]
    rw [buffer.1, buffer.2, zero]
    exact ⟨up, (whole up).1, by decide⟩

/-- A word is read at every edge of a packet, and the last of them ends both counts. -/
theorem Paired.next_sending {q : List Sample} {p : Path} (h : Paired q p) {i : Inputs}
    (released : i.resetN = true) (sends : p.fx3.currentState = .sendPacket) :
    Paired (BoundedQueue.advance Buffer.fifoDepth q
      (if i.writeEnable then some i.dataIn else none) p.isReading) (clock i p) := by
  obtain ⟨up, counts, inside⟩ := h.sending sends
  have held := h.offered up
  have reads : p.isReading = true := by simp [Path.isReading, Fx3StateMachine.isReading, sends]
  have shrinks : q.length - 1 ≤ (BoundedQueue.advance Buffer.fifoDepth q
      (if i.writeEnable then some i.dataIn else none) p.isReading).length := by
    simp [BoundedQueue.advance, reads]
  have fx3 : (clock i p).fx3 = p.fx3.clock i.readData := by
    simp [clock, Path.present, released]
  have buffer : (clock i p).buffer.dataAvailable = (Buffer.availability true p.buffer).1 ∧
      (clock i p).buffer.packetRemaining = (Buffer.availability true p.buffer).2 := by
    simp [clock, Path.present, released, Buffer.clock, bufferInputs, reads]
  by_cases last : p.buffer.packetRemaining = 1
  · have ends : p.fx3.wordCounter = 8191 := by
      apply BitVec.eq_of_toNat_eq
      simp [last, packetWords] at counts
      simp
      omega
    have state : (clock i p).fx3.currentState = .waitForRequest := by
      simp [fx3, Fx3StateMachine.clock, Fx3StateMachine.nextState, sends, ends]
    have down : (clock i p).buffer.dataAvailable = false := by
      simp [buffer, Buffer.availability, up, last]
    constructor
    · exact h.fifo_next released
    · intro again
      rw [down] at again
      cases again
    · intro _ again
      rw [down] at again
      cases again
    · intro again
      rw [state] at again
      cases again
  · have more : p.fx3.wordCounter.toNat + 1 < packetWords := by
      have : p.buffer.packetRemaining.toNat ≠ 1 := by
        intro one
        exact last (BitVec.eq_of_toNat_eq (by simpa using one))
      omega
    have state : (clock i p).fx3.currentState = .sendPacket := by
      have : p.fx3.wordCounter ≠ 8191 := by
        intro ends
        simp [ends, packetWords] at more
      simp only [fx3, Fx3StateMachine.clock, Fx3StateMachine.nextState, sends, if_neg this]
    have counting : Buffer.availability true p.buffer = (true, p.buffer.packetRemaining - 1) := by
      simp only [Buffer.availability, up, Bool.not_true, Bool.false_eq_true, if_false, if_true,
        if_neg last]
    have left : (clock i p).buffer.packetRemaining.toNat =
        p.buffer.packetRemaining.toNat - 1 := by
      simp only [buffer.2, counting]
      exact BitVec.toNat_sub_of_le (by rw [BitVec.le_def]; simp; omega)
    have counted : (clock i p).fx3.wordCounter.toNat = p.fx3.wordCounter.toNat + 1 := by
      have : (clock i p).fx3.wordCounter = p.fx3.wordCounter + 1 := by
        simp [fx3, Fx3StateMachine.clock, sends]
      rw [this, BitVec.toNat_add]
      exact Nat.mod_eq_of_lt (by simp [packetWords] at *; omega)
    have still : (clock i p).buffer.dataAvailable = true := by
      simp only [buffer.1, counting]
    constructor
    · exact h.fifo_next released
    · intro _
      omega
    · intro waits
      rw [state] at waits
      cases waits
    · intro _
      exact ⟨still, by omega, by omega⟩

/-! ## Runs -/

section Guarantee

variable {start : Path} {inputs : Nat → Inputs}

theorem seen_of_released {n : Nat} (released : (inputs n).resetN = true) :
    seen start inputs n = registers start inputs n := by
  simp [seen, Path.present, released]

theorem seen_of_reset {n : Nat} (reset : (inputs n).resetN = false) :
    seen start inputs n = (registers start inputs n).cleared := by
  simp [seen, Path.present, reset]

theorem seen_succ {n : Nat} (released : (inputs (n + 1)).resetN = true) :
    seen start inputs (n + 1) = clock (inputs n) (registers start inputs n) :=
  seen_of_released released

theorem contents_of_reset {n : Nat} (reset : (inputs n).resetN = false) :
    contents start inputs (n + 1) = [] := by
  simp [contents, BoundedQueue.contents, BoundedQueue.next, fifoRound, Fifo.round,
    Buffer.fifoInputs, bufferInputs, reset]

theorem contents_succ {n : Nat} (released : (inputs n).resetN = true) :
    contents start inputs (n + 1) = BoundedQueue.advance Buffer.fifoDepth
      (contents start inputs n) (if (inputs n).writeEnable then some (inputs n).dataIn else none)
      (registers start inputs n).isReading := by
  simp [contents, BoundedQueue.contents, BoundedQueue.next, fifoRound, Fifo.round,
    Buffer.fifoInputs, bufferInputs, seen_of_released released, released]

theorem paired_run (polite : Polite start inputs) (n : Nat) :
    Paired (contents start inputs n) (registers start inputs n) := by
  induction n with
  | zero => exact paired_cleared start.buffer
  | succ n ih =>
    cases released : (inputs n).resetN with
    | false =>
      have emptied : registers start inputs (n + 1) =
          ⟨Buffer.cleared (clock (inputs n) (registers start inputs n)).buffer, .cleared⟩ := by
        simp [registers, ClockedCircuit.run, clock, released, Buffer.clock, bufferInputs,
          Buffer.cleared, Fifo.cleared]
      rw [contents_of_reset released, emptied]
      exact paired_cleared _
    | true =>
      rw [contents_succ released]
      have offered := polite n
      rw [seen_of_released released] at offered
      cases state : (registers start inputs n).fx3.currentState with
      | waitForRequest => exact ih.next_waiting released state offered
      | sendPacket => exact ih.next_sending released state

theorem paired_seen (polite : Polite start inputs) {n : Nat}
    (released : (inputs n).resetN = true) :
    Paired (contents start inputs n) (seen start inputs n) := by
  rw [seen_of_released released]
  exact paired_run polite n

theorem enough_held (polite : Polite start inputs) (n : Nat)
    (offered : (seen start inputs n).buffer.dataAvailable = true) :
    (seen start inputs n).buffer.packetRemaining.toNat ≤
      (Fifo.usedWords (seen start inputs n).buffer.fifo).toNat := by
  cases released : (inputs n).resetN with
  | false =>
    rw [seen_of_reset released] at offered
    cases offered
  | true =>
    have paired := paired_seen polite released
    have count : (Fifo.usedWords (seen start inputs n).buffer.fifo).toNat =
        (contents start inputs n).length := paired.holds.count
    rw [count]
    exact paired.offered offered

/-- No read finds the buffer empty. -/
theorem reading_nonempty (polite : Polite start inputs) {n : Nat}
    (reads : (seen start inputs n).isReading = true) :
    (inputs n).resetN = true ∧ contents start inputs n ≠ [] := by
  cases released : (inputs n).resetN with
  | false =>
    rw [seen_of_reset released] at reads
    cases reads
  | true =>
    have paired := paired_seen polite released
    have sends : (seen start inputs n).fx3.currentState = .sendPacket := by
      simpa [Path.isReading, Fx3StateMachine.isReading] using reads
    obtain ⟨up, counts, inside⟩ := paired.sending sends
    have held := paired.offered up
    refine ⟨rfl, ?_⟩
    rintro none
    rw [none, List.length_nil] at held
    omega

/-! ## A packet -/

theorem sending_after (n k : Nat) (begins : (seen start inputs n).fx3.honours = true)
    (released : Released inputs n (n + 1 + k + 1)) (within : k < packetWords) :
    (seen start inputs (n + 1 + k)).fx3.currentState = .sendPacket ∧
      (seen start inputs (n + 1 + k)).fx3.wordCounter.toNat = k := by
  induction k with
  | zero =>
    have now := released n (Nat.le_refl n) (by omega)
    rw [seen_of_released now] at begins
    rw [seen_succ (released (n + 1) (by omega) (by omega))]
    have waits : (registers start inputs n).fx3.currentState = .waitForRequest ∧
        (registers start inputs n).fx3.nextState = .sendPacket := by
      simpa [Fx3StateMachine.honours] using begins
    simp [clock, Path.present, now, Fx3StateMachine.clock, waits]
  | succ k ih =>
    obtain ⟨sends, counted⟩ := ih (fun j lo hi => released j lo (by omega)) (by omega)
    have now := released (n + 1 + k) (by omega) (by omega)
    rw [seen_of_released now] at sends counted
    rw [← Nat.add_assoc, seen_succ (released (n + 1 + k + 1) (by omega) (by omega))]
    have inner : (registers start inputs (n + 1 + k)).fx3.wordCounter ≠ 8191 := by
      intro ends
      rw [ends] at counted
      simp [packetWords] at counted within
      omega
    have one : ((registers start inputs (n + 1 + k)).fx3.wordCounter + 1).toNat = k + 1 := by
      rw [BitVec.toNat_add, counted]
      exact Nat.mod_eq_of_lt (by simp [packetWords] at *; omega)
    simp only [clock, Path.present, now, if_true, Fx3StateMachine.clock,
      Fx3StateMachine.nextState, sends, if_neg inner, one, and_self]

theorem not_reading_after {n : Nat} (released : (inputs n).resetN = true)
    (sends : (registers start inputs n).fx3.currentState = .sendPacket)
    (last : (registers start inputs n).fx3.wordCounter = 8191) :
    (seen start inputs (n + 1)).isReading = false := by
  cases after : (inputs (n + 1)).resetN with
  | false =>
    rw [seen_of_reset after]
    rfl
  | true =>
    rw [seen_succ after]
    simp [Path.isReading, Fx3StateMachine.isReading, clock, Path.present, released,
      Fx3StateMachine.clock, Fx3StateMachine.nextState, sends, last]

theorem ends_after (n : Nat) (begins : (seen start inputs n).fx3.honours = true)
    (released : Released inputs n (n + 1 + packetWords)) :
    (seen start inputs (n + 1 + packetWords)).isReading = false := by
  obtain ⟨k, last⟩ : ∃ k, packetWords = k + 1 := ⟨8191, rfl⟩
  rw [last, ← Nat.add_assoc] at released ⊢
  obtain ⟨sends, counted⟩ := sending_after n k begins released (by omega)
  have now := released (n + 1 + k) (by omega) (by omega)
  rw [seen_of_released now] at sends counted
  refine not_reading_after now sends (BitVec.eq_of_toNat_eq ?_)
  have : k = 8191 := by simpa [packetWords] using last
  simpa [this] using counted

/-! ## The stream -/

theorem entering_eq (polite : Polite start inputs) {n : Nat}
    (released : (inputs n).resetN = true) :
    BoundedQueue.entering Buffer.fifoDepth (contents start inputs n)
        (if (inputs n).writeEnable then some (inputs n).dataIn else none) =
      if (inputs n).writeEnable && !(seen start inputs n).overflow (inputs n) then
        [(inputs n).dataIn] else [] := by
  have paired := (paired_seen polite released).holds
  have writes := paired.writes (inputs n).writeEnable
  cases request : (inputs n).writeEnable with
  | false => simp [BoundedQueue.entering]
  | true =>
    have full : (seen start inputs n).overflow (inputs n) =
        Fifo.full (seen start inputs n).buffer.fifo := by
      simp [Path.overflow, Buffer.overflow, bufferInputs, request]
    rw [full]
    simp only [request, Bool.true_and, true_and] at writes ⊢
    by_cases room : (contents start inputs n).length < Buffer.fifoDepth
    · simp [BoundedQueue.entering, room, writes.mpr room]
    · have : Fifo.full (seen start inputs n).buffer.fifo = true := by
        simpa using mt writes.mp room
      simp [BoundedQueue.entering, room, this]

theorem leaving_eq (polite : Polite start inputs) (n : Nat) :
    BoundedQueue.leaving (contents start inputs n) (seen start inputs n).isReading =
      if (seen start inputs n).isReading then [Buffer.dataOut (seen start inputs n).buffer]
      else [] := by
  cases reads : (seen start inputs n).isReading with
  | false => simp [BoundedQueue.leaving]
  | true =>
    obtain ⟨released, held⟩ := reading_nonempty polite reads
    obtain ⟨w, rest, split⟩ := List.exists_cons_of_ne_nil held
    have front : Buffer.dataOut (seen start inputs n).buffer = w :=
      (paired_seen polite released).holds.front w (by rw [split]; rfl)
    simp [BoundedQueue.leaving, split, front]

theorem stream_kept (polite : Polite start inputs) (m d : Nat)
    (released : Released inputs m (m + d)) :
    contents start inputs m ++ admitted start inputs m (m + d) =
      delivered start inputs m (m + d) ++ contents start inputs (m + d) := by
  induction d with
  | zero => simp [admitted, delivered]
  | succ d ih =>
    have now := released (m + d) (by omega) (by omega)
    have before := ih fun k lo hi => released k lo (by omega)
    have moved := BoundedQueue.leaving_append_advance Buffer.fifoDepth
      (contents start inputs (m + d))
      (if (inputs (m + d)).writeEnable then some (inputs (m + d)).dataIn else none)
      (seen start inputs (m + d)).isReading
    rw [leaving_eq polite, entering_eq polite now] at moved
    have after := @contents_succ start _ _ now
    rw [← seen_of_released now] at after
    rw [← after] at moved
    have width : m + (d + 1) - m = (m + d - m) + 1 := by omega
    have index : m + (m + d - m) = m + d := by omega
    simp only [admitted, delivered, width, List.range'_1_concat, List.flatMap_append,
      List.flatMap_cons, List.flatMap_nil, List.append_nil, index] at before ⊢
    rw [← List.append_assoc, before, List.append_assoc, List.append_assoc]
    congr 1
    exact moved.symm

/-! ## The overflow flag -/

theorem flag_held (n k : Nat) (lost : (seen start inputs n).overflow (inputs n) = true)
    (released : Released inputs n (n + 1 + k + 1)) (within : k ≤ 2000) :
    Buffer.Raised k (seen start inputs (n + 1 + k)).buffer := by
  induction k with
  | zero =>
    have now := released n (Nat.le_refl n) (by omega)
    rw [seen_of_released now] at lost
    have up := Buffer.raised_of_overflow (i := bufferInputs (inputs n)
      (registers start inputs n)) (by simpa [bufferInputs] using now) lost
    rw [Nat.add_zero, seen_succ (released (n + 1) (by omega) (by omega))]
    simpa [clock, Path.present, now] using up
  | succ k ih =>
    have before := ih (fun j lo hi => released j lo (by omega)) (by omega)
    have now := released (n + 1 + k) (by omega) (by omega)
    rw [seen_of_released now] at before
    have up := before.next (i := bufferInputs (inputs (n + 1 + k))
      (registers start inputs (n + 1 + k))) (by simpa [bufferInputs] using now) (by omega)
    rw [← Nat.add_assoc, seen_succ (released (n + 1 + k + 1) (by omega) (by omega))]
    simpa [clock, Path.present, now] using up

end Guarantee

/-! ## The guarantee -/

/-- What an FX3 that starts packets only while one is offered can rely on: a packet
is there when the flag says so, a request brings exactly one packet, the words come
out as they went in, less those an overflow refused, and the error flag is up for
the whole hold after each of these. -/
theorem packet_guarantee (start : Path) (inputs : Nat → Inputs) (polite : Polite start inputs) :
    (∀ n, (seen start inputs n).buffer.dataAvailable = true →
      (seen start inputs n).buffer.packetRemaining.toNat ≤
        (Fifo.usedWords (seen start inputs n).buffer.fifo).toNat) ∧
    (∀ n, (seen start inputs n).fx3.honours = true → Released inputs n (n + 1 + packetWords) →
      (∀ k, k < packetWords → (seen start inputs (n + 1 + k)).isReading = true ∧
        0 < (Fifo.usedWords (seen start inputs (n + 1 + k)).buffer.fifo).toNat) ∧
      (seen start inputs (n + 1 + packetWords)).isReading = false) ∧
    (∀ m n, m ≤ n → Released inputs m n →
      contents start inputs m ++ admitted start inputs m n =
        delivered start inputs m n ++ contents start inputs n) ∧
    (∀ n k, (seen start inputs n).overflow (inputs n) = true →
      k ≤ Buffer.errorHoldCycles.toNat → Released inputs n (n + 1 + k + 1) →
      (seen start inputs (n + 1 + k)).buffer.bufferError = true) := by
  refine ⟨enough_held polite, ?_, ?_, ?_⟩
  · intro n begins released
    constructor
    · intro k within
      obtain ⟨sends, -⟩ := sending_after n k begins
        (fun j lo hi => released j lo (by omega)) within
      have reads : (seen start inputs (n + 1 + k)).isReading = true := by
        simp [Path.isReading, Fx3StateMachine.isReading, sends]
      obtain ⟨now, held⟩ := reading_nonempty polite reads
      have count : (Fifo.usedWords (seen start inputs (n + 1 + k)).buffer.fifo).toNat =
          (contents start inputs (n + 1 + k)).length := (paired_seen polite now).holds.count
      rw [count]
      exact ⟨reads, List.length_pos_iff.mpr held⟩
    · exact ends_after n begins released
  · intro m n le released
    obtain ⟨d, rfl⟩ := Nat.exists_eq_add_of_le le
    exact stream_kept polite m d released
  · intro n k lost within released
    exact (flag_held n k lost released within).1

/-- An FX3 that asks, while nothing is being read, only when a packet is offered. -/
theorem polite_of_asks {start : Path} {inputs : Nat → Inputs}
    (asks : ∀ n, (seen start inputs n).fx3.currentState = .waitForRequest →
      (inputs n).resetN = true → (inputs n).readData = true →
        (seen start inputs n).buffer.dataAvailable = true) : Polite start inputs := by
  intro n begins
  cases released : (inputs n).resetN with
  | false =>
    rw [seen_of_reset released] at begins
    cases begins
  | true =>
    cases n with
    | zero =>
      rw [seen_of_released released] at begins
      cases begins
    | succ n =>
      rw [seen_succ released] at begins ⊢
      obtain ⟨waits, flag, zero⟩ := (Fx3StateMachine.honours_iff _).mp begins
      have asked := asks n
      cases before : (inputs n).resetN with
      | false => simp [clock, before, Fx3StateMachine.cleared] at flag
      | true =>
        rw [seen_of_released before] at asked
        simp only [clock, Path.present, before, if_true, Fx3StateMachine.clock] at waits flag zero
        cases state : (registers start inputs n).fx3.currentState with
        | waitForRequest =>
          have up := asked state before flag
          simp [clock, Path.present, before, Buffer.clock, bufferInputs, Path.isReading,
            Fx3StateMachine.isReading, state, Buffer.availability, up]
        | sendPacket =>
          -- a packet leaves the counter at 8192, which no request gets past
          simp only [Fx3StateMachine.nextState, state, if_true] at waits zero
          by_cases last : (registers start inputs n).fx3.wordCounter = 8191
          · rw [last] at zero
            exact absurd zero (by decide)
          · rw [if_neg last] at waits
            cases waits

/-! ### A reader in step with the flag -/

/-- A word at every edge, and a request whenever a packet is offered. -/
def eagerInputs (n : Nat) (p : Path) : Inputs :=
  ⟨true, true, BitVec.ofNat 16 n, p.buffer.dataAvailable⟩

def idle : Path where
  buffer := ⟨⟨0, 0, 0, fun _ => 0, 0, false, 0⟩, false, 0, false, 0⟩
  fx3 := .cleared

def eagerRun : Nat → Path
  | 0 => idle.cleared
  | n + 1 => clock (eagerInputs n (eagerRun n)) (eagerRun n)

def eager (n : Nat) : Inputs := eagerInputs n (eagerRun n)

theorem registers_eager (n : Nat) : registers idle eager n = eagerRun n := by
  induction n with
  | zero => rfl
  | succ n ih =>
    have step : registers idle eager (n + 1) = clock (eager n) (registers idle eager n) := rfl
    rw [step, ih]
    rfl

theorem eager_polite : Polite idle eager := by
  apply polite_of_asks
  intro n _ released asked
  rw [seen_of_released released, registers_eager]
  exact asked

/-- The first packet's worth of words is only queued. -/
theorem eager_fills (n : Nat) (within : n ≤ packetWords) :
    (eagerRun n).fx3 = .cleared ∧ (eagerRun n).buffer.dataAvailable = false ∧
      (contents idle eager n).length = n := by
  induction n with
  | zero => exact ⟨rfl, rfl, rfl⟩
  | succ n ih =>
    obtain ⟨waits, low, filled⟩ := ih (by omega)
    have paired := paired_run eager_polite n
    rw [registers_eager] at paired
    have few : ¬ Buffer.packetThreshold ≤ Fifo.usedWords (eagerRun n).buffer.fifo := by
      intro enough
      have := (Buffer.threshold_le_iff _).mp enough
      have count : (Fifo.usedWords (eagerRun n).buffer.fifo).toNat = n :=
        paired.holds.count.trans filled
      omega
    refine ⟨?_, ?_, ?_⟩
    · simp [eagerRun, clock, Path.present, eagerInputs, waits, low, Fx3StateMachine.clock,
        Fx3StateMachine.cleared, Fx3StateMachine.nextState]
    · simp [eagerRun, clock, Path.present, eagerInputs, Buffer.clock, bufferInputs,
        Buffer.availability, low, few]
    · have room : n < Buffer.fifoDepth := Nat.lt_of_lt_of_le within (by decide)
      have quiet : (eagerRun n).isReading = false := by
        simp [Path.isReading, Fx3StateMachine.isReading, waits, Fx3StateMachine.cleared]
      rw [contents_succ rfl, registers_eager]
      simp [BoundedQueue.advance, BoundedQueue.entering, filled, room, quiet, eager, eagerInputs]

theorem eager_asks {n : Nat} (enough : packetWords ≤ (contents idle eager n).length)
    (waits : (eagerRun n).fx3 = .cleared) (low : (eagerRun n).buffer.dataAvailable = false) :
    (eagerRun (n + 2)).fx3.honours = true := by
  have paired := paired_run eager_polite n
  rw [registers_eager] at paired
  have held : Buffer.packetThreshold ≤ Fifo.usedWords (eagerRun n).buffer.fifo := by
    rw [Buffer.threshold_le_iff]
    exact enough.trans (Nat.le_of_eq paired.holds.count.symm)
  have raised : (eagerRun (n + 1)).buffer.dataAvailable = true := by
    simp [eagerRun, clock, Path.present, eagerInputs, Buffer.clock, bufferInputs,
      Buffer.availability, low, held]
  have still : (eagerRun (n + 1)).fx3 = .cleared := by
    simp [eagerRun, clock, Path.present, eagerInputs, waits, low, Fx3StateMachine.clock,
      Fx3StateMachine.cleared, Fx3StateMachine.nextState]
  rw [Fx3StateMachine.honours_iff, eagerRun]
  simp [clock, Path.present, eagerInputs, raised, still, Fx3StateMachine.clock,
    Fx3StateMachine.cleared, Fx3StateMachine.nextState]

theorem eager_guarantee :
    (∀ k, k < packetWords → (seen idle eager (packetWords + 2 + 1 + k)).isReading = true) ∧
      (seen idle eager (packetWords + 2 + 1 + packetWords)).isReading = false := by
  have packet := (packet_guarantee idle eager eager_polite).2.1 (packetWords + 2)
  rw [seen_of_released rfl, registers_eager] at packet
  obtain ⟨waits, low, filled⟩ := eager_fills packetWords (Nat.le_refl _)
  have read := packet (eager_asks (Nat.le_of_eq filled.symm) waits low) fun _ _ _ => rfl
  exact ⟨fun k within => (read.1 k within).1, read.2⟩

end PacketPath
