import DomesdayDuplicator.Foundations.BoundedQueue
import DomesdayDuplicator.Foundations.ClockedCircuit
import Mathlib.Data.Nat.Log
import Mathlib.Data.Nat.ModEq

/-!
# The sample FIFO

`fifo.v` for a width and a depth: a show-ahead memory read one address ahead, with
a bypass for the word that is written and read ahead to on one edge. It is a
bounded queue of the depth's capacity: `Holds` places the queue in the memory, one
edge of the clock keeps it there, and the outputs are the queue's.
-/

namespace Fifo

open BoundedQueue (Round)

variable {dataWidth depth : Nat}

abbrev Word (dataWidth : Nat) := BitVec dataWidth

def addressBits (depth : Nat) : Nat := Nat.clog 2 depth
def countBits (depth : Nat) : Nat := Nat.clog 2 (depth + 1)

def lastAddress (depth : Nat) : BitVec (addressBits depth) := BitVec.ofNat _ (depth - 1)
def depthWords (depth : Nat) : BitVec (countBits depth) := BitVec.ofNat _ depth

structure Registers (dataWidth depth : Nat) where
  writePointer : BitVec (addressBits depth)
  readPointer : BitVec (addressBits depth)
  used : BitVec (countBits depth)
  memory : Nat → Word dataWidth
  memoryDataOut : Word dataWidth
  bypassValid : Bool
  bypassData : Word dataWidth

structure Inputs (dataWidth : Nat) where
  resetN : Bool
  writeRequest : Bool
  dataIn : Word dataWidth
  readRequest : Bool

/-- The asynchronous reset. The memory and its output register have none. -/
def cleared (r : Registers dataWidth depth) : Registers dataWidth depth :=
  { r with writePointer := 0, readPointer := 0, used := 0, bypassValid := false, bypassData := 0 }

/-- The registers an edge meets: a reset is in force before it. -/
def present (resetN : Bool) (r : Registers dataWidth depth) : Registers dataWidth depth :=
  if resetN then r else cleared r

def empty (r : Registers dataWidth depth) : Bool := r.used == 0
def full (r : Registers dataWidth depth) : Bool := r.used == depthWords depth
def usedWords (r : Registers dataWidth depth) : BitVec (countBits depth) := r.used
def dataOut (r : Registers dataWidth depth) : Word dataWidth :=
  if r.bypassValid then r.bypassData else r.memoryDataOut

/-- An address counter, wrapped on a compare. -/
def increment (pointer : BitVec (addressBits depth)) : BitVec (addressBits depth) :=
  if pointer = lastAddress depth then 0 else pointer + 1

def readPointerNext (readEnable : Bool) (r : Registers dataWidth depth) :
    BitVec (addressBits depth) :=
  if readEnable then increment r.readPointer else r.readPointer

/-- One edge of the clock with the reset released. -/
def advance (i : Inputs dataWidth) (r : Registers dataWidth depth) :
    Registers dataWidth depth :=
  let writeEnable := i.writeRequest && !full r
  let readEnable := i.readRequest && !empty r
  let pointer := readPointerNext readEnable r
  { writePointer := if writeEnable then increment r.writePointer else r.writePointer
    readPointer := pointer
    used :=
      if writeEnable && !readEnable then r.used + 1
      else if readEnable && !writeEnable then r.used - 1
      else r.used
    memory :=
      if writeEnable then Function.update r.memory r.writePointer.toNat i.dataIn else r.memory
    memoryDataOut := r.memory pointer.toNat
    bypassValid := writeEnable && r.writePointer == pointer
    bypassData := i.dataIn }

/-- One edge of the clock. In reset the memory still takes the edge. -/
def clock (i : Inputs dataWidth) (r : Registers dataWidth depth) : Registers dataWidth depth :=
  if i.resetN then advance i r else cleared (advance i (cleared r))

/-- The requests of an edge as a round of the queue. -/
def round (i : Inputs dataWidth) : Round (Word dataWidth) where
  reset := !i.resetN
  write := if i.writeRequest then some i.dataIn else none
  read := i.readRequest

/-! ## The queue in the memory -/

/-- The cell `k` places behind the head. -/
def cell (depth : Nat) (r : Registers dataWidth depth) (k : Nat) : Nat :=
  (r.readPointer.toNat + k) % depth

/-- The registers hold a queue: its words in order from the read pointer, the
next free cell at the write pointer, the first word on the output. -/
structure Holds (q : List (Word dataWidth)) (r : Registers dataWidth depth) : Prop where
  within : q.length ≤ depth
  reader : r.readPointer.toNat < depth
  writer : r.writePointer.toNat = cell depth r q.length
  count : r.used.toNat = q.length
  words : ∀ k, ∀ h : k < q.length, r.memory (cell depth r k) = q.get ⟨k, h⟩
  front : ∀ w, q.head? = some w → dataOut r = w

theorem depth_le_addresses (depth : Nat) : depth ≤ 2 ^ addressBits depth :=
  Nat.le_pow_clog (by decide) depth

theorem depth_lt_counts (depth : Nat) : depth < 2 ^ countBits depth :=
  Nat.le_pow_clog (by decide) (depth + 1)

theorem toNat_lastAddress {depth : Nat} (positive : 0 < depth) :
    (lastAddress depth).toNat = depth - 1 := by
  have := depth_le_addresses depth
  simp only [lastAddress, BitVec.toNat_ofNat]
  exact Nat.mod_eq_of_lt (by omega)

theorem toNat_depthWords (depth : Nat) : (depthWords depth).toNat = depth := by
  simp only [depthWords, BitVec.toNat_ofNat]
  exact Nat.mod_eq_of_lt (depth_lt_counts depth)

theorem toNat_increment {pointer : BitVec (addressBits depth)} (h : pointer.toNat < depth) :
    (increment pointer).toNat = (pointer.toNat + 1) % depth := by
  have last := toNat_lastAddress (show 0 < depth by omega)
  by_cases atEnd : pointer = lastAddress depth
  · have : pointer.toNat + 1 = depth := by
      rw [atEnd, last]
      omega
    simp [increment, atEnd, ← this]
  · have room := depth_le_addresses depth
    have inside : pointer.toNat ≠ depth - 1 := by
      intro same
      exact atEnd (BitVec.eq_of_toNat_eq (by rw [same, last]))
    have one : (1 : BitVec (addressBits depth)).toNat = 1 := by
      have wide : 1 < 2 ^ addressBits depth := by omega
      simpa [Nat.pos_iff_ne_zero] using wide
    have stays : (pointer.toNat + 1) % 2 ^ addressBits depth = pointer.toNat + 1 :=
      Nat.mod_eq_of_lt (by omega)
    simp only [increment, if_neg atEnd, BitVec.toNat_add, one, stays]
    exact (Nat.mod_eq_of_lt (by omega)).symm

/-! ## One edge -/

variable {q : List (Word dataWidth)} {r : Registers dataWidth depth}

theorem Holds.empty_iff (h : Holds q r) : empty r = true ↔ q = [] := by
  have count := h.count
  constructor
  · intro none
    have : r.used = 0 := by simpa [empty] using none
    rw [this] at count
    exact List.length_eq_zero_iff.mp count.symm
  · rintro rfl
    have : r.used = 0 := BitVec.eq_of_toNat_eq (by simpa using count)
    simp [empty, this]

theorem Holds.full_iff (h : Holds q r) : full r = true ↔ q.length = depth := by
  rw [← h.count]
  constructor
  · intro all
    have : r.used = depthWords depth := by simpa [full] using all
    rw [this, toNat_depthWords]
  · intro all
    have : r.used = depthWords depth :=
      BitVec.eq_of_toNat_eq (by rw [all, toNat_depthWords])
    simp [full, this]

/-- A read is enabled when there is a word to take. -/
theorem Holds.reads (h : Holds q r) (read : Bool) :
    (read && !empty r) = true ↔ read = true ∧ 0 < q.length := by
  have some : empty r = false ↔ 0 < q.length := by
    rw [← Bool.not_eq_true, h.empty_iff]
    exact List.length_pos_iff.symm
  simp [some]

theorem Holds.writes (h : Holds q r) (request : Bool) :
    (request && !full r) = true ↔ request = true ∧ q.length < depth := by
  have room : full r = false ↔ q.length < depth := by
    rw [← Bool.not_eq_true, h.full_iff]
    have := h.within
    omega
  simp [room]

theorem Holds.reader_next (h : Holds q r) (enable : Bool) :
    (readPointerNext enable r).toNat = cell depth r enable.toNat := by
  cases enable with
  | false => simpa [readPointerNext, cell] using (Nat.mod_eq_of_lt h.reader).symm
  | true => simpa [readPointerNext, cell] using toNat_increment h.reader

theorem Holds.writer_next (h : Holds q r) (enable : Bool) :
    (if enable then increment r.writePointer else r.writePointer).toNat =
      if enable then cell depth r (q.length + 1) else cell depth r q.length := by
  have inside : r.writePointer.toNat < depth := by
    rw [h.writer]
    exact Nat.mod_lt _ (Nat.zero_lt_of_lt h.reader)
  cases enable with
  | false => exact h.writer
  | true =>
    simp only [if_true, toNat_increment inside, h.writer]
    simp only [cell, Nat.mod_add_mod, Nat.add_assoc]

theorem Holds.used_next (h : Holds q r) {write read : Bool}
    (held : read = true → 0 < q.length) (room : write = true → q.length < depth) :
    (if write && !read then r.used + 1 else if read && !write then r.used - 1
      else r.used).toNat = q.length - read.toNat + if write then 1 else 0 := by
  have count := h.count
  have wide := depth_lt_counts depth
  have within := h.within
  have one : 0 < depth → (1 : BitVec (countBits depth)).toNat = 1 := by
    intro positive
    have : 1 < 2 ^ countBits depth := by omega
    simpa [Nat.pos_iff_ne_zero] using this
  cases write with
  | false =>
    cases read with
    | false => simpa using count
    | true =>
      have some := held rfl
      have less : (r.used - 1).toNat = r.used.toNat - (1 : BitVec (countBits depth)).toNat :=
        BitVec.toNat_sub_of_le (by rw [BitVec.le_def, one (by omega)]; omega)
      rw [one (by omega), count] at less
      simpa using less
  | true =>
    have free := room rfl
    cases read with
    | true =>
      have some := held rfl
      simp [count]
      omega
    | false =>
      have more : (r.used + 1).toNat = q.length + 1 := by
        rw [BitVec.toNat_add, one (by omega), count]
        exact Nat.mod_eq_of_lt (by omega)
      simpa using more

/-- The round in terms of the enables. -/
theorem Holds.queue_next (h : Holds q r) (i : Inputs dataWidth) :
    BoundedQueue.advance depth q (round i).write i.readRequest =
      q.drop (i.readRequest && !empty r).toNat ++
        if i.writeRequest && !full r then [i.dataIn] else [] := by
  have front : (if i.readRequest = true then q.drop 1 else q) =
      q.drop (i.readRequest && !empty r).toNat := by
    cases i.readRequest with
    | false => simp
    | true =>
      cases none : empty r with
      | false => simp
      | true => simp [h.empty_iff.mp none]
  have back : BoundedQueue.entering depth q (round i).write =
      if i.writeRequest && !full r then [i.dataIn] else [] := by
    simp only [BoundedQueue.entering, round, h.writes]
    cases i.writeRequest with
    | false => simp
    | true => simp
  rw [BoundedQueue.advance, front, back]

/-- Two words of the queue, or one and the place behind it, have their own cells. -/
theorem cell_apart {j k : Nat} (hj : j < depth) (hk : k < depth)
    (same : cell depth r j = cell depth r k) : j = k :=
  (Nat.ModEq.add_left_cancel' _ same).eq_of_lt_of_lt hj hk

theorem Holds.foremost {d : Nat} {w : Word dataWidth} (h : Holds q r)
    (first : (q.drop d).head? = some w) : r.memory (cell depth r d) = w := by
  rw [List.head?_drop] at first
  obtain ⟨inside, rfl⟩ := List.getElem?_eq_some_iff.mp first
  exact h.words d inside

/-- What an edge leaves: the queue with its front moved on and a word behind it. -/
theorem Holds.edge {d : Nat} {write : Bool} {dataIn : Word dataWidth}
    {s : Registers dataWidth depth} (h : Holds q r) (held : d ≤ q.length)
    (room : write = true → q.length < depth)
    (reader : s.readPointer.toNat = cell depth r d)
    (writer : s.writePointer.toNat = if write then cell depth r (q.length + 1)
      else cell depth r q.length)
    (count : s.used.toNat = q.length - d + if write then 1 else 0)
    (memory : s.memory = if write then
      Function.update r.memory (cell depth r q.length) dataIn else r.memory)
    (output : s.memoryDataOut = r.memory (cell depth r d))
    (bypass : s.bypassValid = (write && cell depth r q.length == cell depth r d))
    (bypassed : s.bypassData = dataIn) :
    Holds (q.drop d ++ if write then [dataIn] else []) s := by
  have within := h.within
  have positive : 0 < depth := by
    have := h.reader
    omega
  have shift : ∀ k, cell depth s k = cell depth r (d + k) := by
    intro k
    simp only [cell, reader, Nat.mod_add_mod, Nat.add_assoc]
  cases write with
  | false =>
    simp only [Bool.false_eq_true, if_false, List.append_nil, Bool.false_and, Nat.add_zero] at *
    constructor
    · simp
      omega
    · rw [reader]
      exact Nat.mod_lt _ positive
    · rw [writer, shift, List.length_drop]
      congr 1
      omega
    · rw [count, List.length_drop]
    · intro k hk
      rw [List.length_drop] at hk
      rw [memory, shift, h.words (d + k) (by omega)]
      simp
    · intro w hw
      simp only [dataOut, bypass, Bool.false_eq_true, if_false, output]
      exact h.foremost hw
  | true =>
    have free : q.length < depth := room rfl
    simp only [if_true, Bool.true_and] at *
    have long : (q.drop d ++ [dataIn]).length = q.length - d + 1 := by simp
    constructor
    · rw [long]
      omega
    · rw [reader]
      exact Nat.mod_lt _ positive
    · rw [writer, shift, long]
      congr 1
      omega
    · rw [count, long]
    · intro k hk
      rw [memory, shift, List.get_eq_getElem, List.getElem_append]
      split
      next old =>
        have old : k < q.length - d := by simpa using old
        have other : cell depth r (d + k) ≠ cell depth r q.length := by
          intro same
          have := cell_apart (by omega) free same
          omega
        rw [Function.update_of_ne other, h.words (d + k) (by omega)]
        simp
      next new =>
        have new : ¬ k < q.length - d := by simpa using new
        have : d + k = q.length := by omega
        rw [this, Function.update_self]
        simp
    · intro w hw
      by_cases meets : cell depth r q.length = cell depth r d
      · have all : q.length = d := cell_apart free (by omega) meets
        have none : q.drop d = [] := List.drop_eq_nil_of_le (by omega)
        have : dataIn = w := by simpa [none] using hw
        simp [dataOut, bypass, meets, bypassed, this]
      · have inside : d < q.length := by
          rcases Nat.lt_or_ge d q.length with lt | ge
          · exact lt
          · exact absurd (by congr 1; omega) meets
        have kept : (q.drop d).head? = some w := by
          rw [List.head?_append] at hw
          cases front : (q.drop d).head? with
          | none =>
            rw [List.head?_drop, List.getElem?_eq_none_iff] at front
            omega
          | some v => simpa [front] using hw
        simp only [dataOut, bypass, beq_false_of_ne meets, Bool.false_eq_true, if_false, output]
        exact h.foremost kept

theorem Holds.advance (h : Holds q r) (i : Inputs dataWidth) :
    Holds (BoundedQueue.advance depth q (round i).write i.readRequest) (advance i r) := by
  have reads := h.reads i.readRequest
  have writes := h.writes i.writeRequest
  have held : (i.readRequest && !empty r).toNat ≤ q.length := by
    cases takes : i.readRequest && !empty r with
    | false => simp
    | true => exact (reads.mp takes).2
  rw [h.queue_next i]
  refine h.edge held (fun write => (writes.mp write).2) ?_ ?_ ?_ ?_ ?_ ?_ rfl
  · exact h.reader_next _
  · exact h.writer_next _
  · exact h.used_next (fun read => (reads.mp read).2) fun write => (writes.mp write).2
  · simp only [Fifo.advance, h.writer]
  · simp only [Fifo.advance, h.reader_next]
  · have same : ∀ a b : BitVec (addressBits depth), (a == b) = (a.toNat == b.toNat) := by
      intro a b
      rw [Bool.eq_iff_iff, beq_iff_eq, beq_iff_eq, BitVec.toNat_inj]
    simp only [Fifo.advance, same, h.writer, h.reader_next]

theorem holds_cleared (positive : 0 < depth) (r : Registers dataWidth depth) :
    Holds [] (cleared r) := by
  constructor
  · simp
  · simpa [cleared] using positive
  · simp [cleared, cell]
  · simp [cleared]
  · intro k hk
    simp at hk
  · intro w hw
    simp at hw

/-! ## The refinement -/

/-- The FIFO after `n` edges, from registers a reset has cleared. -/
def run (start : Registers dataWidth depth) (inputs : Nat → Inputs dataWidth) (n : Nat) :
    Registers dataWidth depth :=
  ClockedCircuit.run clock (cleared start) inputs n

theorem holds_run (positive : 0 < depth) (start : Registers dataWidth depth)
    (inputs : Nat → Inputs dataWidth) (n : Nat) :
    Holds (BoundedQueue.contents depth (fun k => round (inputs k)) n) (run start inputs n) := by
  induction n with
  | zero => exact holds_cleared positive start
  | succ n ih =>
    unfold run at ih ⊢
    simp only [BoundedQueue.contents, BoundedQueue.next, ClockedCircuit.run, clock]
    cases released : (inputs n).resetN with
    | false => simpa [round, released] using holds_cleared positive _
    | true =>
      have edge := ih.advance (inputs n)
      simpa [round, released] using edge

theorem holds_presented (positive : 0 < depth) (start : Registers dataWidth depth)
    (inputs : Nat → Inputs dataWidth) (n : Nat) :
    Holds (BoundedQueue.presented depth (fun k => round (inputs k)) n)
      (present (inputs n).resetN (run start inputs n)) := by
  have ih := holds_run positive start inputs n
  cases released : (inputs n).resetN with
  | false => simpa [BoundedQueue.presented, round, present, released] using holds_cleared positive _
  | true => simpa [BoundedQueue.presented, round, present, released] using ih

/-- At every edge of every run the outputs are those of a queue of the depth's
capacity driven by the same requests. -/
theorem fifo_refines (two : 2 ≤ depth) (start : Registers dataWidth depth)
    (inputs : Nat → Inputs dataWidth) (n : Nat) :
    let r := present (inputs n).resetN (run start inputs n)
    let q := BoundedQueue.presented depth (fun k => round (inputs k)) n
    (empty r = true ↔ q = []) ∧ (full r = true ↔ q.length = depth) ∧
      (usedWords r).toNat = q.length ∧ ∀ w, q.head? = some w → dataOut r = w := by
  have h := holds_presented (by omega) start inputs n
  exact ⟨h.empty_iff, h.full_iff, h.count, h.front⟩

/-- Four writes and three reads, the first of them at the third edge. -/
def burst (n : Nat) : Inputs 8 :=
  ⟨true, decide (n < 4), BitVec.ofNat 8 (10 + n), decide (2 ≤ n)⟩

theorem fifo_three_deep :
    (usedWords (run (⟨0, 0, 0, fun _ => 0, 0, false, 0⟩ : Registers 8 3) burst 5)).toNat = 1 ∧
      dataOut (run (⟨0, 0, 0, fun _ => 0, 0, false, 0⟩ : Registers 8 3) burst 5) = 13 := by
  have h := fifo_refines (by decide) (⟨0, 0, 0, fun _ => 0, 0, false, 0⟩ : Registers 8 3) burst 5
  exact ⟨h.2.2.1, h.2.2.2 13 rfl⟩

end Fifo
