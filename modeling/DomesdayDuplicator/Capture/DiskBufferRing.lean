import DomesdayDuplicator.Foundations.Execution
import Mathlib.Logic.Function.Basic
import Mathlib.Algebra.Ring.Nat

/-!
# The capture ring and the threads that share it

`DiskBufferRing` as its atomic operations: one load, store, compare-and-swap or
fetch-and-add at a time. Three parties take steps in any order: the transfer
thread fills and hands over, the processing thread takes and gives back, and
controllers abort the ring or, once the transfer has finished, mark its empty
slots dumped. Memory is sequentially consistent; a notification has no effect
of its own, since a waiter returns only when the value it waits on has changed.
-/

namespace DiskBufferRing

universe u

inductive SlotState
  | empty | full | dumped | aborted
  deriving DecidableEq, Repr

structure Slot (α : Type u) where
  data : α
  state : SlotState

structure RingState (α : Type u) where
  slots : Nat → Slot α
  slotsFilled : Nat
  slotsFreed : Nat
  peakSlotsInUse : Nat
  abortRequested : Bool

variable {α : Type u}

namespace RingState

def store (r : RingState α) (index : Nat) (state : SlotState) : RingState α :=
  { r with slots := Function.update r.slots index { r.slots index with state } }

def write (r : RingState α) (index : Nat) (data : α) : RingState α :=
  { r with slots := Function.update r.slots index { r.slots index with data } }

/-- `compare_exchange_strong`: the ring afterwards and whether it was exchanged. -/
def compareExchange (r : RingState α) (index : Nat) (expected desired : SlotState) :
    RingState α × Bool :=
  if (r.slots index).state = expected then (r.store index desired, true) else (r, false)

end RingState

/-- The difference of two 64-bit counters. -/
def difference (filled freed : Nat) : Nat := (filled + 2 ^ 64 - freed) % 2 ^ 64

/-- Where the transfer thread is. -/
inductive Producer
  | ready
  /-- In `WaitForSlotFree`, waiting for the value it saw to change. -/
  | sleeping (observed : SlotState)
  | reloading
  /-- In `MarkSlotFull`, the slot already full. -/
  | counting
  | measuring (filled : Nat)
  | peaking (inUse : Nat)
  | raising (inUse peak : Nat)
  | finished
  deriving DecidableEq, Repr

/-- Where the processing thread is. `more` tells a pass that ends the loop from
one that does not. -/
inductive Consumer
  | looping
  /-- In `WaitForSlotFull`, waiting for the slot to stop being empty. -/
  | sleeping
  | reloading
  | processing
  /-- In `MarkSlotFree`, after the exchange that worked. -/
  | counting (more : Bool)
  /-- In `MarkSlotFree`, after the exchange that did not. -/
  | retrying (more : Bool)
  | exited
  deriving DecidableEq, Repr

structure Handoff (α : Type u) where
  ring : RingState α
  producer : Producer
  /-- Slots the transfer thread has secured, and of these the ones handed over. -/
  claimed : Nat
  handed : Nat
  consumer : Consumer
  slotIndex : Nat
  buffersProcessed : Nat
  pipelineAbortRequested : Bool
  /-- The next slot of every `Abort` that has begun. -/
  aborts : List Nat
  /-- The next slot of the `MarkEmptySlotsDumped` in progress. -/
  dump : Option Nat

inductive Event (α : Type u)
  | quiet
  | slotFree (index : Nat)
  | handedOver (index : Nat) (data : α)
  | overflow (index : Nat)
  | refused (index : Nat)
  | taken (index : Nat) (data : α)
  | givenBack (index : Nat)

inductive Action (α : Type u)
  -- the transfer thread
  | waitForSlotFree
  | fill (visit : Nat) (data : α)
  | markSlotFull
  | producerStep (weakFails : Bool)
  | finish
  -- the processing thread
  | waitForSlotFull
  | rewrite (data : α)
  | markSlotFree (more : Bool)
  | consumerStep
  | leave
  -- whoever controls the capture
  | requestAbort
  | abort
  | abortNext (sweep : Nat)
  | markEmptySlotsDumped
  | dumpNext

/-- A fresh ring. A source may aim transfers at the first `primed` slots without
waiting for them. -/
def start (primed : Nat) (contents : Nat → α) : Handoff α where
  ring :=
    { slots := fun i => ⟨contents i, .empty⟩
      slotsFilled := 0
      slotsFreed := 0
      peakSlotsInUse := 0
      abortRequested := false }
  producer := .ready
  claimed := primed
  handed := 0
  consumer := .looping
  slotIndex := 0
  buffersProcessed := 0
  pipelineAbortRequested := false
  aborts := []
  dump := none

section Operations

variable (slotCount : Nat)

/-- One load of `WaitForSlotFree`. -/
def waitForSlotFree (s : Handoff α) : Handoff α × Event α :=
  let index := s.claimed % slotCount
  match (s.ring.slots index).state with
  | .empty => ({ s with claimed := s.claimed + 1, producer := .ready }, .slotFree index)
  | .aborted => ({ s with producer := .ready }, .quiet)
  | observed => ({ s with producer := .sleeping observed }, .quiet)

/-- The exchange of `MarkSlotFull`. -/
def markSlotFull (s : Handoff α) : Handoff α × Event α :=
  let index := s.handed % slotCount
  match s.ring.compareExchange index .empty .full with
  | (ring, true) =>
    ({ s with ring, handed := s.handed + 1, producer := .counting },
      .handedOver index (s.ring.slots index).data)
  | (ring, false) =>
    ({ s with ring },
      if (s.ring.slots index).state = .aborted then .refused index else .overflow index)

/-- What is left of `WaitForSlotFree` and `MarkSlotFull` after their first access. -/
def producerStep (weakFails : Bool) (s : Handoff α) : Handoff α × Event α :=
  match s.producer with
  | .sleeping observed =>
    if (s.ring.slots (s.claimed % slotCount)).state = observed then (s, .quiet)
    else ({ s with producer := .reloading }, .quiet)
  | .reloading => waitForSlotFree slotCount s
  | .counting =>
    ({ s with ring := { s.ring with slotsFilled := s.ring.slotsFilled + 1 }
              producer := .measuring (s.ring.slotsFilled + 1) }, .quiet)
  | .measuring filled =>
    ({ s with producer := .peaking (difference filled s.ring.slotsFreed) }, .quiet)
  | .peaking inUse => ({ s with producer := .raising inUse s.ring.peakSlotsInUse }, .quiet)
  | .raising inUse peak =>
    if inUse ≤ peak then ({ s with producer := .ready }, .quiet)
    else if weakFails ∨ s.ring.peakSlotsInUse ≠ peak then
      ({ s with producer := .raising inUse s.ring.peakSlotsInUse }, .quiet)
    else
      ({ s with ring := { s.ring with peakSlotsInUse := inUse }, producer := .ready }, .quiet)
  | .ready | .finished => (s, .quiet)

/-- One load of `WaitForSlotFull`. -/
def waitForSlotFull (s : Handoff α) : Handoff α × Event α :=
  match (s.ring.slots s.slotIndex).state with
  | .empty => ({ s with consumer := .sleeping }, .quiet)
  | .full =>
    ({ s with consumer := .processing }, .taken s.slotIndex (s.ring.slots s.slotIndex).data)
  | .dumped | .aborted => ({ s with consumer := .exited }, .quiet)

/-- The first exchange of `MarkSlotFree`. -/
def markSlotFree (more : Bool) (s : Handoff α) : Handoff α × Event α :=
  match s.ring.compareExchange s.slotIndex .full .empty with
  | (ring, true) => ({ s with ring, consumer := .counting more }, .givenBack s.slotIndex)
  | (ring, false) => ({ s with ring, consumer := .retrying more }, .givenBack s.slotIndex)

/-- The end of a pass of the processing loop. -/
def nextPass (more : Bool) (s : Handoff α) : Handoff α :=
  if more then
    { s with buffersProcessed := s.buffersProcessed + 1
             slotIndex := (s.slotIndex + 1) % slotCount
             consumer := .looping }
  else { s with consumer := .exited }

/-- What is left of `WaitForSlotFull` and `MarkSlotFree` after their first access. -/
def consumerStep (s : Handoff α) : Handoff α × Event α :=
  match s.consumer with
  | .sleeping =>
    if (s.ring.slots s.slotIndex).state = .empty then (s, .quiet)
    else ({ s with consumer := .reloading }, .quiet)
  | .reloading => waitForSlotFull s
  | .counting more =>
    (nextPass slotCount more
      { s with ring := { s.ring with slotsFreed := s.ring.slotsFreed + 1 } }, .quiet)
  | .retrying more =>
    (nextPass slotCount more
      { s with ring := (s.ring.compareExchange s.slotIndex .dumped .empty).1 }, .quiet)
  | .looping | .processing | .exited => (s, .quiet)

/-- One store of an `Abort` that has begun. -/
def abortNext (sweep : Nat) (s : Handoff α) : Handoff α :=
  match s.aborts[sweep]? with
  | some index =>
    if index < slotCount then
      { s with ring := s.ring.store index .aborted, aborts := s.aborts.set sweep (index + 1) }
    else s
  | none => s

/-- One exchange of `MarkEmptySlotsDumped`. -/
def dumpNext (s : Handoff α) : Handoff α :=
  match s.dump with
  | some index =>
    if index < slotCount then
      { s with ring := (s.ring.compareExchange index .empty .dumped).1
               dump := some (index + 1) }
    else { s with dump := none }
  | none => s

/-- A step of whichever party the action belongs to; an action its party is not
ready for changes nothing. -/
def step (s : Handoff α) : Action α → Handoff α × Event α
  | .waitForSlotFree =>
    if s.producer = .ready ∧ s.claimed - s.handed < slotCount then
      waitForSlotFree slotCount s
    else (s, .quiet)
  | .fill visit data =>
    if s.handed ≤ visit ∧ visit < s.claimed then
      ({ s with ring := s.ring.write (visit % slotCount) data }, .quiet)
    else (s, .quiet)
  | .markSlotFull =>
    if s.producer = .ready ∧ s.handed < s.claimed then markSlotFull slotCount s
    else (s, .quiet)
  | .producerStep weakFails => producerStep slotCount weakFails s
  | .finish =>
    (if s.producer = .ready then { s with producer := .finished } else s, .quiet)
  | .waitForSlotFull =>
    if s.consumer = .looping then waitForSlotFull s else (s, .quiet)
  | .rewrite data =>
    (if s.consumer = .processing then
      { s with ring := s.ring.write s.slotIndex data } else s, .quiet)
  | .markSlotFree more =>
    if s.consumer = .processing then markSlotFree more s else (s, .quiet)
  | .consumerStep => consumerStep slotCount s
  | .leave =>
    (if s.consumer = .looping ∧ s.pipelineAbortRequested = true then
      { s with consumer := .exited } else s, .quiet)
  | .requestAbort => ({ s with pipelineAbortRequested := true }, .quiet)
  | .abort =>
    ({ s with ring := { s.ring with abortRequested := true }, aborts := s.aborts ++ [0] }, .quiet)
  | .abortNext sweep => (abortNext slotCount sweep s, .quiet)
  | .markEmptySlotsDumped =>
    (if s.producer = .finished ∧ s.dump = none then { s with dump := some 0 } else s, .quiet)
  | .dumpNext => (dumpNext slotCount s, .quiet)

def machine : Execution.Machine (Handoff α) (Action α) (Event α) := ⟨step slotCount⟩

end Operations

/-! ## Single slots -/

namespace RingState

variable (r : RingState α) (i j : Nat) (state : SlotState) (data : α)

theorem store_slots :
    (r.store i state).slots j =
      if j = i then { r.slots i with state } else r.slots j := by
  by_cases h : j = i
  · subst h; simp [store]
  · simp [store, h]

theorem write_slots :
    (r.write i data).slots j =
      if j = i then { r.slots i with data } else r.slots j := by
  by_cases h : j = i
  · subst h; simp [write]
  · simp [write, h]

@[simp] theorem store_data : ((r.store i state).slots j).data = (r.slots j).data := by
  rw [store_slots]; split <;> simp [*]

theorem store_state :
    ((r.store i state).slots j).state = if j = i then state else (r.slots j).state := by
  rw [store_slots]; split <;> simp

@[simp] theorem write_state : ((r.write i data).slots j).state = (r.slots j).state := by
  rw [write_slots]; split <;> simp [*]

theorem write_data :
    ((r.write i data).slots j).data = if j = i then data else (r.slots j).data := by
  rw [write_slots]; split <;> simp

@[simp] theorem store_abortRequested : (r.store i state).abortRequested = r.abortRequested := rfl

@[simp] theorem write_abortRequested : (r.write i data).abortRequested = r.abortRequested := rfl

variable (expected desired : SlotState)

@[simp] theorem compareExchange_abortRequested :
    (r.compareExchange i expected desired).1.abortRequested = r.abortRequested := by
  unfold compareExchange; split <;> rfl

@[simp] theorem compareExchange_data :
    ((r.compareExchange i expected desired).1.slots j).data = (r.slots j).data := by
  unfold compareExchange; split <;> simp

theorem compareExchange_state :
    ((r.compareExchange i expected desired).1.slots j).state =
      if j = i ∧ (r.slots i).state = expected then desired else (r.slots j).state := by
  unfold compareExchange
  by_cases h : (r.slots i).state = expected
  · simp [h, store_state]
  · simp [h]

end RingState

end DiskBufferRing
