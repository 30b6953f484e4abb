import DomesdayDuplicator.Foundations.Execution
import DomesdayDuplicator.Foundations.MarkedBlocks
import Mathlib.Data.BitVec
import Mathlib.Data.List.GetD

/-!
# The DMA buffer heap

`fx3/firmware/src/cyfxtx.c`: buffers are cut from a region of the system RAM in chunks of 32
bytes. A status word holds a bit for each of 32 chunks; the last chunk of a buffer is left
clear, so a free chunk is found one further than the request needs and the freed buffer's end
is read off the bits. The lock and the memory of the status words are the operating system's:
whether it gives them is part of each action.
-/

namespace DmaBuffers

open MarkedBlocks Execution

abbrev Word := BitVec 32

def memHeapBase : Nat := 0x40038000
def memHeapSize : Nat := 0x8000
def sysMemTop : Nat := 0x40078000
def bufferHeapBase : Nat := memHeapBase + memHeapSize
def bufferHeapSize : Nat := sysMemTop - bufferHeapBase

/-- `CyU3PDmaBufMgr_t` without its lock. -/
structure BufferManager where
  startAddr : Nat := 0
  regionSize : Nat := 0
  usedStatus : List Word := []
  statusSize : Nat := 0
  searchPos : Nat := 0
  deriving DecidableEq, Repr

def dmaBufferInit (mutex memory : Bool) (m : BufferManager) : BufferManager :=
  if m.startAddr ≠ 0 ∧ m.regionSize ≠ 0 then m
  else if !mutex then m
  else
    let size := (bufferHeapSize / 32 + 31) / 32
    if !memory then { m with usedStatus := [] }
    else
      let used := List.replicate size 0
      -- the bits past the end of the region are to be unavailable
      let used :=
        if bufferHeapSize / 32 % 32 ≠ 0 then
          used.set (size - 1) (~~~((1#32 <<< (32 - bufferHeapSize / 32 % 32)) - 1))
        else used
      { startAddr := bufferHeapBase, regionSize := bufferHeapSize, usedStatus := used
        statusSize := size, searchPos := 0 }

def dmaBufferDeInit (lock : Bool) (m : BufferManager) : BufferManager :=
  if !lock then m
  else { m with usedStatus := [], startAddr := 0, regionSize := 0, statusSize := 0 }

/-- The loop of `CyU3PDmaBufMgrSetStatus`, for so many turns; each takes off at least one bit. -/
def setStatusWords (value : Bool) : Nat → Nat → Nat → Nat → Nat → Word → List Word → List Word
  | 0, _, _, _, _, _, used => used
  | turns + 1, wordnum, startbit, endbit, numBits, mask, used =>
    if numBits = 0 then used
    else
      let word := used.getD wordnum 0
      let used := used.set wordnum (if value then word ||| mask else word &&& ~~~mask)
      let numBits := numBits - (endbit - startbit)
      if 32 ≤ numBits then setStatusWords value turns (wordnum + 1) 0 32 numBits 0xFFFFFFFF used
      else setStatusWords value turns (wordnum + 1) 0 numBits numBits ((1#32 <<< numBits) - 1) used

def setStatus (startPos numBits : Nat) (value : Bool) (used : List Word) : List Word :=
  let startbit := startPos % 32
  let endbit := min 32 (startbit + numBits)
  let mask : Word :=
    (if endbit = 32 then 0xFFFFFFFF else (1#32 <<< endbit) - 1) - ((1#32 <<< startbit) - 1)
  setStatusWords value numBits (startPos / 32) startbit endbit numBits mask used

structure Search where
  wordnum : Nat
  bitnum : Nat := 0
  count : Nat := 0
  start : Nat := 0
  tmp : Nat := 0
  deriving DecidableEq, Repr

/-- On to the next bit, and from the last word back to the first. -/
def Search.advance (statusSize : Nat) (s : Search) : Search :=
  if s.bitnum + 1 = 32 then
    if s.wordnum + 1 = statusSize then
      { s with bitnum := 0, wordnum := 0, tmp := s.tmp + 1, count := 0 }
    else { s with bitnum := 0, wordnum := s.wordnum + 1, tmp := s.tmp + 1 }
  else { s with bitnum := s.bitnum + 1 }

/-- The search of `CyU3PDmaBufferAlloc`, for so many turns; each looks at one bit. -/
def searchBits (used : List Word) (statusSize size : Nat) : Nat → Search → Search
  | 0, s => s
  | turns + 1, s =>
    if s.tmp < statusSize then
      if used.getD s.wordnum 0 &&& (1#32 <<< s.bitnum) = 0 then
        let start := if s.count = 0 then s.wordnum * 32 + s.bitnum + 1 else s.start
        let s := { s with start, count := s.count + 1 }
        if s.count = size + 1 then s
        else searchBits used statusSize size turns (s.advance statusSize)
      else searchBits used statusSize size turns ({ s with count := 0 }.advance statusSize)
    else s

/-- How many chunks a request of this many bytes takes. -/
def chunks (size : BitVec 16) : Nat :=
  if size.toNat ≤ 32 then 2 else (size.toNat + 31) / 32

def dmaBufferAlloc (lock : Bool) (size : BitVec 16) (m : BufferManager) :
    Option Nat × BufferManager :=
  if !lock then (none, m)
  else if m.startAddr = 0 ∨ m.regionSize = 0 then (none, m)
  else
    let size := chunks size
    let s := searchBits m.usedStatus m.statusSize size (32 * m.statusSize) ⟨m.searchPos, 0, 0, 0, 0⟩
    if s.count = size + 1 then
      (some (m.startAddr + s.start * 32),
        { m with
          usedStatus := setStatus s.start (size - 1) true m.usedStatus
          searchPos := s.wordnum })
    else (none, m)

/-- The bits that are set from one on, for so many turns. -/
def countUsed (used : List Word) (statusSize : Nat) : Nat → Nat → Nat → Nat → Nat
  | 0, _, _, count => count
  | turns + 1, wordnum, bitnum, count =>
    if wordnum < statusSize ∧ used.getD wordnum 0 &&& (1#32 <<< bitnum) ≠ 0 then
      if bitnum + 1 = 32 then countUsed used statusSize turns (wordnum + 1) 0 (count + 1)
      else countUsed used statusSize turns wordnum (bitnum + 1) (count + 1)
    else count

/-- Whether it is freed: 0 where the source returns it, -1 elsewhere. -/
def dmaBufferFree (lock : Bool) (buffer : Nat) (m : BufferManager) : Int × BufferManager :=
  if !lock then (-1, m)
  else if m.startAddr < buffer ∧ buffer < m.startAddr + m.regionSize then
    let start := (buffer - m.startAddr) / 32
    let count := countUsed m.usedStatus m.statusSize (32 * m.statusSize) (start / 32) (start % 32) 0
    (0, { m with usedStatus := setStatus start count false m.usedStatus, searchPos := 0 })
  else (-1, m)

/-! ## The heap and its users -/

/-- What a caller was given, and what it had asked for. -/
structure Buffer where
  address : Nat
  size : BitVec 16
  deriving DecidableEq, Repr

structure World where
  manager : BufferManager := {}
  held : List Buffer := []
  deriving DecidableEq, Repr

inductive Action where
  | init (mutex memory : Bool)
  | deInit (lock : Bool)
  | alloc (lock : Bool) (size : BitVec 16)
  | free (lock : Bool) (buffer : Nat)

inductive Event where
  | done
  | allocated (size : BitVec 16) (buffer : Option Nat)
  | freed (buffer : Nat) (result : Int)
  deriving DecidableEq

def step (w : World) : Action → World × Event
  | .init mutex memory => ({ w with manager := dmaBufferInit mutex memory w.manager }, .done)
  | .deInit lock => ({ w with manager := dmaBufferDeInit lock w.manager }, .done)
  | .alloc lock size =>
    let (buffer, manager) := dmaBufferAlloc lock size w.manager
    ({ manager, held := buffer.toList.map (⟨·, size⟩) ++ w.held }, .allocated size buffer)
  | .free lock buffer =>
    let (result, manager) := dmaBufferFree lock buffer w.manager
    let held := if result = 0 then w.held.eraseP (·.address = buffer) else w.held
    ({ manager, held }, .freed buffer result)

def machine : Machine World Action Event := ⟨step⟩

/-- The drivers free what they hold, and the heap is taken down when they hold nothing. -/
def Contract (w : World) : Action → Prop
  | .free _ buffer => ∃ b ∈ w.held, b.address = buffer
  | .deInit _ => w.held = []
  | _ => True

end DmaBuffers
