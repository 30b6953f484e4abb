import DomesdayDuplicator.Capture.DiskBufferRing
import DomesdayDuplicator.Foundations.Laps
import Mathlib.Data.List.Infix

/-!
# The ring hands every slot over exactly once

The visits of both threads are numbered from zero, the k-th visit being of slot
`k % slotCount`. Between the visits the consumer has given back and one lap
further on, a slot holds data exactly when its visit has been handed over
(`Occupied`). An abort only takes slots out of that account, so the consumer can
fall short of what was handed over but never leave its order.
-/

namespace RingHandoff

open Execution DiskBufferRing Laps

universe u

variable {α : Type u} (slotCount : Nat)

abbrev Trace := Run (machine (α := α) slotCount) Any

/-! ## What a run reports -/

def handedOver (es : List (Event α)) : List (Nat × α) :=
  es.filterMap fun
    | .handedOver index data => some (index, data)
    | _ => none

def taken (es : List (Event α)) : List (Nat × α) :=
  es.filterMap fun
    | .taken index data => some (index, data)
    | _ => none

def givenBack (es : List (Event α)) : List Nat :=
  es.filterMap fun
    | .givenBack index => some index
    | _ => none

/-- The transfer thread owns the slots it has secured and not yet handed over. -/
def ProducerOwns (s : Handoff α) (index : Nat) : Prop :=
  ∃ visit, s.handed ≤ visit ∧ visit < s.claimed ∧ index = visit % slotCount

/-- The processing thread owns the slot it has taken and not yet given back. -/
def ConsumerOwns (s : Handoff α) (index : Nat) : Prop :=
  s.consumer = .processing ∧ index = s.slotIndex

variable {slotCount}

theorem prefix_next {xs ys : List (Nat × α)} {x : Nat × α} (h : xs <+: ys)
    (next : ys[xs.length]? = some x) : xs ++ [x] <+: ys := by
  obtain ⟨rest, rfl⟩ := h
  cases rest with
  | nil => simp at next
  | cons y rest =>
    obtain rfl : y = x := by simpa using next
    exact ⟨rest, by simp⟩

/-! ## The slots of one lap -/

/-- The lap from visit `back` on: visits up to the last one handed over are full,
the later ones free for the transfer thread, and from `began` on a full slot
still holds what was handed over. -/
structure Occupied (slotCount back began : Nat) (stopped : Prop) (handed : List (Nat × α))
    (ring : RingState α) : Prop where
  full : ∀ k, back ≤ k → k < handed.length →
    (ring.slots (k % slotCount)).state = .full ∨ (ring.slots (k % slotCount)).state = .aborted
  free : ∀ k, handed.length ≤ k → k < back + slotCount →
    (ring.slots (k % slotCount)).state = .empty ∨
      (ring.slots (k % slotCount)).state = .aborted ∨
      (ring.slots (k % slotCount)).state = .dumped ∧ stopped
  contents : ∀ k, began ≤ k → k < handed.length →
    handed[k]? = some (k % slotCount, (ring.slots (k % slotCount)).data)

namespace Occupied

variable {back began : Nat} {stopped : Prop} {handed : List (Nat × α)} {ring : RingState α}

theorem initial (contents : Nat → α) (primed : Nat) :
    Occupied slotCount 0 0 False [] (start primed contents).ring :=
  ⟨by simp, by simp [start], by simp⟩

/-- Only the slots matter. -/
theorem congr {ring' : RingState α} (h : Occupied slotCount back began stopped handed ring)
    (slots : ring'.slots = ring.slots) :
    Occupied slotCount back began stopped handed ring' :=
  ⟨by simpa [slots] using h.full, by simpa [slots] using h.free,
    by simpa [slots] using h.contents⟩

theorem stop {stopped' : Prop} (h : Occupied slotCount back began stopped handed ring)
    (later : stopped → stopped') : Occupied slotCount back began stopped' handed ring where
  full := h.full
  free k lo hi := by
    rcases h.free k lo hi with e | a | ⟨d, s⟩
    · exact Or.inl e
    · exact Or.inr (Or.inl a)
    · exact Or.inr (Or.inr ⟨d, later s⟩)
  contents := h.contents

/-- The transfer thread writes a slot it has secured. -/
theorem fill (h : Occupied slotCount back began stopped handed ring) (order : back ≤ began)
    {visit : Nat} (lo : handed.length ≤ visit) (hi : visit < back + slotCount) (data : α) :
    Occupied slotCount back began stopped handed (ring.write (visit % slotCount) data) where
  full := by simpa using h.full
  free := by simpa using h.free
  contents k hb hk := by
    have other : k % slotCount ≠ visit % slotCount := by
      intro same
      have := same_visit back (order.trans hb) (by omega) (by omega) hi same
      omega
    simpa [RingState.write_data, other] using h.contents k hb hk

/-- The processing thread rewrites the slot it has taken. -/
theorem rewrite (h : Occupied slotCount back (back + 1) stopped handed ring)
    (lap : handed.length ≤ back + slotCount) (data : α) :
    Occupied slotCount back (back + 1) stopped handed
      (ring.write (back % slotCount) data) where
  full := by simpa using h.full
  free := by simpa using h.free
  contents k hb hk := by
    have other : k % slotCount ≠ back % slotCount := by
      intro same
      have := same_visit back (by omega) (by omega) le_rfl (by omega) same
      omega
    simpa [RingState.write_data, other] using h.contents k hb hk

theorem take (h : Occupied slotCount back began stopped handed ring) :
    Occupied slotCount back (began + 1) stopped handed ring :=
  ⟨h.full, h.free, fun k hb => h.contents k (by omega)⟩

/-- The exchange that hands the next slot over. -/
theorem handOver (h : Occupied slotCount back began stopped handed ring)
    (early : back ≤ handed.length) (lap : handed.length < back + slotCount) :
    Occupied slotCount back began stopped
      (handed ++ [(handed.length % slotCount, (ring.slots (handed.length % slotCount)).data)])
      (ring.store (handed.length % slotCount) .full) where
  full k lo hi := by
    rw [RingState.store_state]
    split
    · exact Or.inl rfl
    next other =>
      refine h.full k lo ?_
      have : k ≠ handed.length := by rintro rfl; exact other rfl
      simp at hi
      omega
  free k lo hi := by
    simp at lo
    have other : k % slotCount ≠ handed.length % slotCount := by
      intro same
      have := same_visit back (by omega) hi early lap same
      omega
    simpa [RingState.store_state, other] using h.free k (by omega) hi
  contents k hb hk := by
    simp at hk
    rcases Nat.lt_or_ge k handed.length with old | new
    · rw [List.getElem?_append_left old, h.contents k hb old]
      simp
    · obtain rfl : k = handed.length := by omega
      simp

/-- The exchange that gives the taken slot back, or that an abort has forestalled. -/
theorem giveBack (h : Occupied slotCount back (back + 1) stopped handed ring)
    (held : back < handed.length) (lap : handed.length ≤ back + slotCount) :
    Occupied slotCount (back + 1) (back + 1) stopped handed
      (ring.compareExchange (back % slotCount) .full .empty).1 where
  full k lo hi := by
    have other : k % slotCount ≠ back % slotCount := by
      intro same
      have := same_visit back (by omega) (by omega) le_rfl (by omega) same
      omega
    simpa [RingState.compareExchange_state, other] using h.full k (by omega) hi
  free k lo hi := by
    rw [RingState.compareExchange_state]
    split
    · exact Or.inl rfl
    next unchanged =>
      rcases Nat.lt_or_ge k (back + slotCount) with before | last
      · exact h.free k lo before
      · obtain rfl : k = back + slotCount := by omega
        rw [Nat.add_mod_right] at unchanged ⊢
        rcases h.full back le_rfl held with full | gone
        · exact absurd ⟨rfl, full⟩ unchanged
        · exact Or.inr (Or.inl gone)
  contents k hb hk := by simpa using h.contents k hb hk

/-- An exchange that finds nothing to do in a full slot and leaves a free one free. -/
theorem exchange (h : Occupied slotCount back began stopped handed ring) (index : Nat)
    {expected desired : SlotState} (notFull : expected ≠ .full) (live : expected ≠ .aborted)
    (free : desired = .empty ∨ desired = .dumped ∧ stopped) :
    Occupied slotCount back began stopped handed
      (ring.compareExchange index expected desired).1 where
  full k lo hi := by
    rw [RingState.compareExchange_state]
    split
    next hit =>
      obtain ⟨rfl, was⟩ := hit
      rcases h.full k lo hi with full | gone
      · exact absurd (was.symm.trans full) notFull
      · exact absurd (was.symm.trans gone) live
    · exact h.full k lo hi
  free k lo hi := by
    rw [RingState.compareExchange_state]
    split
    · rcases free with rfl | ⟨rfl, s⟩
      · exact Or.inl rfl
      · exact Or.inr (Or.inr ⟨rfl, s⟩)
    · exact h.free k lo hi
  contents k hb hk := by simpa using h.contents k hb hk

theorem abort (h : Occupied slotCount back began stopped handed ring) (index : Nat) :
    Occupied slotCount back began stopped handed (ring.store index .aborted) where
  full k lo hi := by
    rw [RingState.store_state]
    split
    · exact Or.inr rfl
    · exact h.full k lo hi
  free k lo hi := by
    rw [RingState.store_state]
    split
    · exact Or.inr (Or.inl rfl)
    · exact h.free k lo hi
  contents k hb hk := by simpa using h.contents k hb hk

end Occupied

/-! ## The account of a run -/

/-- Between the exchange of `MarkSlotFree` and the end of the pass. -/
def Returned : Consumer → Prop
  | .counting _ | .retrying _ => True
  | _ => False

/-- Inside `WaitForSlotFree`. -/
def Waiting : Producer → Prop
  | .sleeping _ | .reloading => True
  | _ => False

/-- What has been handed over and taken, how many slots came back, and how the
positions of both threads and the slots agree with it. -/
structure Orderly (slotCount : Nat) (offered taken : List (Nat × α)) (back : Nat)
    (s : Handoff α) : Prop where
  handed : s.handed = offered.length
  claimed : s.handed ≤ s.claimed
  lap : s.claimed ≤ back + slotCount
  room : Waiting s.producer → s.claimed - s.handed < slotCount
  slots : ∀ (k : Nat) visit, offered[k]? = some visit → visit.1 = k % slotCount
  inOrder : taken <+: offered
  holding : s.consumer = .processing → taken.length = back + 1
  settled : s.consumer ≠ .processing → taken.length = back
  index : s.consumer ≠ .exited → s.slotIndex = s.buffersProcessed % slotCount
  passes : s.consumer ≠ .exited → ¬ Returned s.consumer → s.buffersProcessed = back
  pass : Returned s.consumer → s.buffersProcessed + 1 = back
  dumping : s.dump ≠ none → s.producer = .finished
  occupied : Occupied slotCount back taken.length (s.producer = .finished) offered s.ring

namespace Orderly

variable {offered taken : List (Nat × α)} {back : Nat} {s : Handoff α}

theorem initial {primed : Nat} (fits : primed ≤ slotCount) (contents : Nat → α) :
    Orderly slotCount [] [] 0 (start primed contents) where
  handed := rfl
  claimed := Nat.zero_le _
  lap := by simpa [start] using fits
  room := by simp [start, Waiting]
  slots := by simp
  inOrder := List.prefix_rfl
  holding := by simp [start]
  settled := by simp
  index := by simp [start]
  passes := by simp [start]
  pass := by simp [start, Returned]
  dumping := by simp [start]
  occupied := (Occupied.initial contents primed).stop False.elim

theorem back_le (h : Orderly slotCount offered taken back s) :
    back ≤ taken.length ∧ taken.length ≤ offered.length := by
  refine ⟨?_, h.inOrder.length_le⟩
  by_cases holds : s.consumer = .processing
  · rw [h.holding holds]; omega
  · rw [h.settled holds]

/-- The transfer thread moves on without touching a slot. -/
theorem producing (h : Orderly slotCount offered taken back s) {p : Producer}
    (done : s.producer = .finished → p = .finished)
    (room : Waiting p → s.claimed - s.handed < slotCount) :
    Orderly slotCount offered taken back { s with producer := p } :=
  { h with
    room := room
    dumping := fun d => done (h.dumping d)
    occupied := h.occupied.stop done }

/-- The slots are as they were. -/
theorem counted (h : Orderly slotCount offered taken back s) (ring : RingState α)
    (slots : ring.slots = s.ring.slots) :
    Orderly slotCount offered taken back { s with ring } :=
  { h with occupied := h.occupied.congr slots }

/-- The processing thread moves on with no slot taken. -/
theorem consuming (h : Orderly slotCount offered taken back s) {c : Consumer}
    (before : s.consumer = .looping ∨ s.consumer = .sleeping ∨ s.consumer = .reloading)
    (after : c = .sleeping ∨ c = .reloading ∨ c = .exited) :
    Orderly slotCount offered taken back { s with consumer := c } := by
  have idle : s.consumer ≠ .processing ∧ s.consumer ≠ .exited ∧ ¬ Returned s.consumer := by
    rcases before with b | b | b <;> simp [b, Returned]
  have next : c ≠ .processing ∧ ¬ Returned c := by
    rcases after with rfl | rfl | rfl <;> simp [Returned]
  exact
    { h with
      holding := fun p => absurd p next.1
      settled := fun _ => h.settled idle.1
      index := fun _ => h.index idle.2.1
      passes := fun _ _ => h.passes idle.2.1 idle.2.2
      pass := fun r => absurd r next.2 }

/-- A slot found empty has been given back a lap ago. -/
theorem claim (h : Orderly slotCount offered taken back s)
    (room : s.claimed - s.handed < slotCount)
    (empty : (s.ring.slots (s.claimed % slotCount)).state = .empty)
    (live : s.producer ≠ .finished) :
    Orderly slotCount offered taken back
      { s with claimed := s.claimed + 1, producer := .ready } := by
  have below : s.claimed < back + slotCount := by
    by_contra full
    have lap := h.lap
    have whole : s.claimed = back + slotCount := by omega
    have behind : back < offered.length := by
      have := h.handed
      have := h.back_le
      omega
    rw [whole, Nat.add_mod_right] at empty
    rcases h.occupied.full back le_rfl behind with full | gone
    · rw [empty] at full; cases full
    · rw [empty] at gone; cases gone
  exact
    { h with
      claimed := Nat.le_succ_of_le h.claimed
      lap := below
      room := by simp [Waiting]
      dumping := fun d => absurd (h.dumping d) live
      occupied := h.occupied.stop fun f => absurd f live }

theorem filled (h : Orderly slotCount offered taken back s) {visit : Nat}
    (lo : s.handed ≤ visit) (hi : visit < s.claimed) (data : α) :
    Orderly slotCount offered taken back
      { s with ring := s.ring.write (visit % slotCount) data } :=
  { h with
    occupied := h.occupied.fill h.back_le.1 (h.handed ▸ lo) (hi.trans_le h.lap) data }

theorem handOver (h : Orderly slotCount offered taken back s) (ready : s.producer = .ready)
    (secured : s.handed < s.claimed) :
    Orderly slotCount
      (offered ++ [(s.handed % slotCount, (s.ring.slots (s.handed % slotCount)).data)])
      taken back
      { s with
        ring := s.ring.store (s.handed % slotCount) .full
        handed := s.handed + 1
        producer := .counting } := by
  have length := h.handed
  have order := h.back_le
  have lap := h.lap
  have live : s.producer ≠ .finished := ready ▸ by simp
  have next := h.occupied.handOver (by omega) (by omega)
  rw [← length] at next
  exact
    { h with
      handed := by simp [length]
      claimed := secured
      room := by simp [Waiting]
      slots := by
        intro k visit at_k
        rcases Nat.lt_or_ge k offered.length with old | new
        · exact h.slots k visit (by rwa [List.getElem?_append_left old] at at_k)
        · obtain ⟨inside, rfl⟩ := List.getElem?_eq_some_iff.mp at_k
          rw [List.length_append, List.length_singleton] at inside
          obtain rfl : k = offered.length := by omega
          simp [length]
      inOrder := h.inOrder.trans (List.prefix_append _ _)
      dumping := fun d => absurd (h.dumping d) live
      occupied := next.stop fun f => absurd f live }

theorem taking (h : Orderly slotCount offered taken back s)
    (before : s.consumer = .looping ∨ s.consumer = .reloading)
    (full : (s.ring.slots s.slotIndex).state = .full) (positive : 0 < slotCount) :
    Orderly slotCount offered (taken ++ [(s.slotIndex, (s.ring.slots s.slotIndex).data)]) back
      { s with consumer := .processing } := by
  have idle : s.consumer ≠ .processing ∧ s.consumer ≠ .exited ∧ ¬ Returned s.consumer := by
    rcases before with b | b <;> simp [b, Returned]
  have place : s.slotIndex = back % slotCount := by
    rw [h.index idle.2.1, h.passes idle.2.1 idle.2.2]
  have drained : taken.length = back := h.settled idle.1
  -- a full slot at the consumer's place is one handed over and not yet taken
  have behind : back < offered.length := by
    by_contra none
    rw [place] at full
    rcases h.occupied.free back (by omega) (by omega) with e | e | ⟨e, _⟩ <;>
      · rw [full] at e; cases e
  have entry := h.occupied.contents back (by omega) behind
  rw [← place] at entry
  refine
    { h with
      inOrder := prefix_next h.inOrder (drained ▸ entry)
      holding := fun _ => by simp [drained]
      settled := fun other => absurd rfl other
      index := fun _ => h.index idle.2.1
      passes := fun _ _ => h.passes idle.2.1 idle.2.2
      pass := False.elim
      occupied := ?_ }
  rw [List.length_append, List.length_singleton]
  exact h.occupied.take

theorem rewritten (h : Orderly slotCount offered taken back s) (holds : s.consumer = .processing)
    (data : α) :
    Orderly slotCount offered taken back { s with ring := s.ring.write s.slotIndex data } := by
  have place : s.slotIndex = back % slotCount := by
    rw [h.index (by simp [holds]), h.passes (by simp [holds]) (by simp [holds, Returned])]
  have occupied := h.occupied
  have := h.lap
  have := h.claimed
  have := h.handed
  rw [h.holding holds] at occupied
  exact
    { h with
      occupied := by
        rw [h.holding holds, place]
        exact occupied.rewrite (by omega) data }

theorem giving (h : Orderly slotCount offered taken back s) (holds : s.consumer = .processing)
    {c : Consumer} (returned : Returned c) :
    Orderly slotCount offered taken (back + 1)
      { s with ring := (s.ring.compareExchange s.slotIndex .full .empty).1, consumer := c } := by
  have place : s.slotIndex = s.buffersProcessed % slotCount := h.index (by simp [holds])
  have passes : s.buffersProcessed = back :=
    h.passes (by simp [holds]) (by simp [holds, Returned])
  have held := h.holding holds
  have order := h.back_le
  have lap := h.lap
  have claimed := h.claimed
  have handed := h.handed
  have occupied := h.occupied
  rw [held] at occupied
  have awake : c ≠ .processing := by rintro rfl; exact returned
  exact
    { h with
      lap := by simp only; omega
      holding := fun p => absurd p awake
      settled := fun _ => held
      index := fun _ => place
      passes := fun _ no => absurd returned no
      pass := fun _ => by simp only [passes]
      occupied := by
        rw [held, place, passes]
        exact occupied.giveBack (by omega) (by omega) }

/-- The exchange of `MarkSlotFree` for a slot that was only released. -/
theorem released (h : Orderly slotCount offered taken back s) :
    Orderly slotCount offered taken back
      { s with ring := (s.ring.compareExchange s.slotIndex .dumped .empty).1 } :=
  { h with
    occupied := h.occupied.exchange _ (by simp) (by simp) (Or.inl rfl) }

theorem nextPass (h : Orderly slotCount offered taken back s) (returned : Returned s.consumer)
    (more : Bool) :
    Orderly slotCount offered taken back (DiskBufferRing.nextPass slotCount more s) := by
  have idle : s.consumer ≠ .processing ∧ s.consumer ≠ .exited := by
    constructor <;> intro c <;> simp [c, Returned] at returned
  have settled := h.settled idle.1
  unfold DiskBufferRing.nextPass
  cases more with
  | true =>
    exact
      { h with
        holding := by simp
        settled := fun _ => settled
        index := fun _ => by simp [h.index idle.2]
        passes := fun _ _ => h.pass returned
        pass := False.elim }
  | false =>
    exact
      { h with
        holding := by simp
        settled := fun _ => settled
        index := by simp
        passes := by simp
        pass := False.elim }

theorem aborted (h : Orderly slotCount offered taken back s) (index : Nat) :
    Orderly slotCount offered taken back { s with ring := s.ring.store index .aborted } :=
  { h with occupied := h.occupied.abort index }

theorem dumped (h : Orderly slotCount offered taken back s) (index : Nat)
    (finished : s.producer = .finished) :
    Orderly slotCount offered taken back
      { s with ring := (s.ring.compareExchange index .empty .dumped).1 } :=
  { h with
    occupied := h.occupied.exchange index (by simp) (by simp) (Or.inr ⟨rfl, finished⟩) }

end Orderly

/-! ## Every step -/

/-- The account after a step, read off what the step reports. -/
def Accounts (slotCount : Nat) (offered taken : List (Nat × α)) (back : Nat)
    (outcome : Handoff α × Event α) : Prop :=
  match outcome.2 with
  | .quiet | .slotFree _ | .refused _ => Orderly slotCount offered taken back outcome.1
  | .handedOver index data => Orderly slotCount (offered ++ [(index, data)]) taken back outcome.1
  | .taken index data => Orderly slotCount offered (taken ++ [(index, data)]) back outcome.1
  | .givenBack _ => Orderly slotCount offered taken (back + 1) outcome.1
  | .overflow _ => False

section Steps

variable {offered taken : List (Nat × α)} {back : Nat} {s : Handoff α}

theorem waitForSlotFree_accounts (h : Orderly slotCount offered taken back s)
    (room : s.claimed - s.handed < slotCount) (live : s.producer ≠ .finished) :
    Accounts slotCount offered taken back (waitForSlotFree slotCount s) := by
  have done : ∀ p, s.producer = .finished → p = Producer.finished := fun _ f => absurd f live
  unfold waitForSlotFree
  dsimp only
  cases seen : (s.ring.slots (s.claimed % slotCount)).state with
  | empty => exact h.claim room seen live
  | full => exact h.producing (done (.sleeping .full)) fun _ => room
  | dumped => exact h.producing (done (.sleeping .dumped)) fun _ => room
  | aborted => exact h.producing (done .ready) False.elim

/-- A slot the transfer thread has secured is empty unless the ring was aborted. -/
theorem markSlotFull_accounts (h : Orderly slotCount offered taken back s)
    (ready : s.producer = .ready) (secured : s.handed < s.claimed) :
    Accounts slotCount offered taken back (markSlotFull slotCount s) := by
  have lap := h.lap
  have handed := h.handed
  unfold markSlotFull RingState.compareExchange
  rcases h.occupied.free s.handed (by omega) (by omega) with empty | gone | ⟨_, finished⟩
  · simpa only [empty, if_true, Accounts] using h.handOver ready secured
  · simpa [gone, Accounts] using h
  · rw [ready] at finished
    cases finished

theorem producerStep_accounts (h : Orderly slotCount offered taken back s) (weakFails : Bool) :
    Accounts slotCount offered taken back (producerStep slotCount weakFails s) := by
  unfold producerStep
  split
  case h_1 observed at_wait =>
    have room := h.room (by simp [at_wait, Waiting])
    split
    · exact h
    · exact h.producing (by simp [at_wait]) fun _ => room
  case h_2 at_load =>
    exact waitForSlotFree_accounts h (h.room (by simp [at_load, Waiting])) (by simp [at_load])
  case h_3 at_count =>
    exact (h.counted { s.ring with slotsFilled := s.ring.slotsFilled + 1 } rfl).producing
      (by simp [at_count]) False.elim
  case h_4 filled at_read => exact h.producing (by simp [at_read]) False.elim
  case h_5 inUse at_peak => exact h.producing (by simp [at_peak]) False.elim
  case h_6 inUse peak at_raise =>
    split
    · exact h.producing (by simp [at_raise]) False.elim
    · split
      · exact h.producing (by simp [at_raise]) False.elim
      · exact (h.counted { s.ring with peakSlotsInUse := inUse } rfl).producing
          (by simp [at_raise]) False.elim
  all_goals exact h

theorem waitForSlotFull_accounts (positive : 0 < slotCount)
    (h : Orderly slotCount offered taken back s)
    (before : s.consumer = .looping ∨ s.consumer = .reloading) :
    Accounts slotCount offered taken back (waitForSlotFull s) := by
  have idle := before.imp_right (Or.inr (a := s.consumer = .sleeping))
  unfold waitForSlotFull
  cases seen : (s.ring.slots s.slotIndex).state with
  | empty => exact h.consuming idle (by simp)
  | full => exact h.taking before seen positive
  | dumped => exact h.consuming idle (by simp)
  | aborted => exact h.consuming idle (by simp)

theorem markSlotFree_accounts (h : Orderly slotCount offered taken back s)
    (holds : s.consumer = .processing) (more : Bool) :
    Accounts slotCount offered taken back (markSlotFree more s) := by
  have counting := h.giving holds (c := .counting more) trivial
  have retrying := h.giving holds (c := .retrying more) trivial
  unfold markSlotFree
  unfold RingState.compareExchange at *
  split
  next exchanged =>
    split at exchanged
    · cases exchanged
      simpa [Accounts, *] using counting
    · cases exchanged
  next kept =>
    split at kept
    · cases kept
    · cases kept
      simpa [Accounts, *] using retrying

theorem consumerStep_accounts (positive : 0 < slotCount)
    (h : Orderly slotCount offered taken back s) :
    Accounts slotCount offered taken back (consumerStep slotCount s) := by
  unfold consumerStep
  split
  case h_1 asleep =>
    split
    · exact h
    · exact h.consuming (by simp [asleep]) (by simp)
  case h_2 at_load => exact waitForSlotFull_accounts positive h (Or.inr at_load)
  case h_3 more at_count =>
    have counted := h.counted { s.ring with slotsFreed := s.ring.slotsFreed + 1 } rfl
    exact counted.nextPass (by simp [at_count, Returned]) more
  case h_4 more at_retry => exact h.released.nextPass (by simp [at_retry, Returned]) more
  all_goals exact h

theorem abortNext_orderly (h : Orderly slotCount offered taken back s) (sweep : Nat) :
    Orderly slotCount offered taken back (abortNext slotCount sweep s) := by
  unfold abortNext
  split
  next index _ =>
    split
    · exact { h.aborted index with }
    · exact h
  · exact h

theorem dumpNext_orderly (h : Orderly slotCount offered taken back s) :
    Orderly slotCount offered taken back (dumpNext slotCount s) := by
  unfold dumpNext
  split
  next index under =>
    have finished := h.dumping (by simp [under])
    split
    · exact { h.dumped index finished with dumping := fun _ => finished }
    · exact { h with dumping := by simp }
  · exact h

theorem step_accounts (positive : 0 < slotCount) (h : Orderly slotCount offered taken back s)
    (a : Action α) : Accounts slotCount offered taken back (step slotCount s a) := by
  cases a with
  | waitForSlotFree =>
    simp only [step]
    split
    next ok => exact waitForSlotFree_accounts h ok.2 (by simp [ok.1])
    · exact h
  | fill visit data =>
    simp only [step]
    split
    next ok => exact h.filled ok.1 ok.2 data
    · exact h
  | markSlotFull =>
    simp only [step]
    split
    next ok => exact markSlotFull_accounts h ok.1 ok.2
    · exact h
  | producerStep weakFails => exact producerStep_accounts h weakFails
  | finish =>
    simp only [step, Accounts]
    split
    · exact h.producing (fun _ => rfl) False.elim
    · exact h
  | waitForSlotFull =>
    simp only [step]
    split
    next looping => exact waitForSlotFull_accounts positive h (Or.inl looping)
    · exact h
  | rewrite data =>
    simp only [step, Accounts]
    split
    next holds => exact h.rewritten holds data
    · exact h
  | markSlotFree more =>
    simp only [step]
    split
    next holds => exact markSlotFree_accounts h holds more
    · exact h
  | consumerStep => exact consumerStep_accounts positive h
  | leave =>
    simp only [step, Accounts]
    split
    next ok => exact h.consuming (Or.inl ok.1) (by simp)
    · exact h
  | requestAbort => exact { h with }
  | abort => exact { h.counted { s.ring with abortRequested := true } rfl with }
  | abortNext sweep => exact abortNext_orderly h sweep
  | markEmptySlotsDumped =>
    simp only [step, Accounts]
    split
    next ok => exact { h with dumping := fun _ => ok.1 }
    · exact h
  | dumpNext => exact dumpNext_orderly h

end Steps

/-! ## Every run -/

def Account (slotCount : Nat) (es : List (Event α)) (s : Handoff α) : Prop :=
  Orderly slotCount (handedOver es) (taken es) (givenBack es).length s ∧
    ∀ index, Event.overflow index ∉ es

theorem account_step (positive : 0 < slotCount) {es : List (Event α)} {s : Handoff α}
    (h : Account slotCount es s) (a : Action α) :
    Account slotCount (es ++ [(step slotCount s a).2]) (step slotCount s a).1 := by
  have next := step_accounts positive h.1 a
  have calm := h.2
  unfold Accounts at next
  unfold Account
  split at next <;> rename_i reported <;>
    simp_all [handedOver, taken, givenBack]

theorem account {primed : Nat} (positive : 0 < slotCount) (fits : primed ≤ slotCount)
    {contents : Nat → α} {es : List (Event α)} {s : Handoff α}
    (run : Trace slotCount (start primed contents) es s) : Account slotCount es s := by
  refine run.invariant_events (Account slotCount) ⟨?_, by simp⟩
    fun es s a h _ => account_step positive h a
  exact Orderly.initial fits contents

theorem Orderly.disjoint {offered taken : List (Nat × α)} {back : Nat} {s : Handoff α}
    (h : Orderly slotCount offered taken back s) (index : Nat) :
    ¬ (ProducerOwns slotCount s index ∧ ConsumerOwns s index) := by
  rintro ⟨⟨visit, lo, hi, rfl⟩, holds, same⟩
  have place : s.slotIndex = back % slotCount := by
    rw [h.index (by simp [holds]), h.passes (by simp [holds]) (by simp [holds, Returned])]
  have held := h.holding holds
  have order := h.back_le
  have lap := h.lap
  have handed := h.handed
  have := same_visit back (by omega) (by omega) le_rfl (by omega) (same.trans place)
  omega

/-! ## An abort is for good -/

/-- The abort flag stays set and an aborted slot stays aborted. -/
def Lasting (s s' : Handoff α) : Prop :=
  (s.ring.abortRequested = true → s'.ring.abortRequested = true) ∧
    ∀ index, (s.ring.slots index).state = .aborted → (s'.ring.slots index).state = .aborted

namespace Lasting

variable {s s' : Handoff α}

theorem same (slots : s'.ring.slots = s.ring.slots)
    (flag : s.ring.abortRequested = true → s'.ring.abortRequested = true) : Lasting s s' :=
  ⟨flag, fun index h => by rwa [slots]⟩

theorem write {index : Nat} {data : α} (ring : s'.ring = s.ring.write index data) :
    Lasting s s' := by
  rw [Lasting, ring]
  simp

theorem exchange {index : Nat} {expected desired : SlotState} (live : expected ≠ .aborted)
    (ring : s'.ring = (s.ring.compareExchange index expected desired).1) : Lasting s s' := by
  rw [Lasting, ring]
  refine ⟨by simp, fun i gone => ?_⟩
  rw [RingState.compareExchange_state]
  split
  next hit =>
    obtain ⟨rfl, was⟩ := hit
    exact absurd (was.symm.trans gone) live
  · exact gone

theorem abort {index : Nat} (ring : s'.ring = s.ring.store index .aborted) : Lasting s s' := by
  rw [Lasting, ring]
  refine ⟨by simp, fun i gone => ?_⟩
  rw [RingState.store_state]
  split
  · rfl
  · exact gone

theorem trans {t u v : Handoff α} (first : Lasting t u) (second : Lasting u v) : Lasting t v :=
  ⟨fun h => second.1 (first.1 h), fun i h => second.2 i (first.2 i h)⟩

theorem nextPass (more : Bool) {s t : Handoff α} (h : Lasting s t) :
    Lasting s (DiskBufferRing.nextPass slotCount more t) := by
  cases more <;> exact h

theorem step (s : Handoff α) (a : Action α) : Lasting s (step slotCount s a).1 := by
  have still : Lasting s s := same rfl id
  have load : Lasting s (waitForSlotFree slotCount s).1 := by
    unfold waitForSlotFree
    dsimp only
    split <;> exact same rfl id
  have take : Lasting s (waitForSlotFull s).1 := by
    unfold waitForSlotFull
    split <;> exact same rfl id
  cases a with
  | waitForSlotFree =>
    simp only [DiskBufferRing.step]
    split
    · exact load
    · exact still
  | fill visit data =>
    simp only [DiskBufferRing.step]
    split
    · exact write rfl
    · exact still
  | markSlotFull =>
    simp only [DiskBufferRing.step, markSlotFull]
    split
    · split <;> rename_i exchanged
      · exact exchange (by simp) (congrArg Prod.fst exchanged).symm
      · exact exchange (by simp) (congrArg Prod.fst exchanged).symm
    · exact still
  | producerStep weakFails =>
    simp only [DiskBufferRing.step, producerStep]
    split
    case h_2 => exact load
    all_goals
      repeat' split
      all_goals exact same rfl id
  | finish | leave | markEmptySlotsDumped =>
    simp only [DiskBufferRing.step]
    split <;> exact same rfl id
  | requestAbort => exact same rfl id
  | abort => exact same rfl fun _ => rfl
  | waitForSlotFull =>
    simp only [DiskBufferRing.step]
    split
    · exact take
    · exact still
  | rewrite data =>
    simp only [DiskBufferRing.step]
    split
    · exact write rfl
    · exact still
  | markSlotFree more =>
    simp only [DiskBufferRing.step, markSlotFree]
    split
    · split <;> rename_i exchanged
      · exact exchange (by simp) (congrArg Prod.fst exchanged).symm
      · exact exchange (by simp) (congrArg Prod.fst exchanged).symm
    · exact still
  | consumerStep =>
    simp only [DiskBufferRing.step, consumerStep]
    split
    case h_2 => exact take
    case h_3 => exact nextPass _ (same rfl id)
    case h_4 => exact nextPass _ (exchange (by simp) rfl)
    all_goals
      repeat' split
      all_goals exact same rfl id
  | abortNext sweep =>
    simp only [DiskBufferRing.step, abortNext]
    repeat' split
    · exact abort rfl
    all_goals exact still
  | dumpNext =>
    simp only [DiskBufferRing.step, dumpNext]
    repeat' split
    · exact exchange (by simp) rfl
    all_goals exact same rfl id

theorem run {es : List (Event α)} {s' : Handoff α} (run : Trace slotCount s es s') :
    Lasting s s' :=
  run.invariant (same rfl id) fun _ a h _ => h.trans (step _ a)

end Lasting

/-- Whatever the order of the three parties' steps and wherever an abort falls:
the consumer takes a prefix of what the producer handed over, slot by slot
around the ring and with the contents handed over; no slot the producer has
secured overflows; no slot has two owners; and no abort is undone. -/
theorem exactly_once {primed : Nat} (positive : 0 < slotCount) (fits : primed ≤ slotCount)
    {contents : Nat → α} {es : List (Event α)} {s : Handoff α}
    (run : Trace slotCount (start primed contents) es s) :
    (taken es <+: handedOver es ∧ ∀ (k : Nat) visit,
      (handedOver es)[k]? = some visit → visit.1 = k % slotCount) ∧
    (∀ index, Event.overflow index ∉ es) ∧
    (∀ index, ¬ (ProducerOwns slotCount s index ∧ ConsumerOwns s index)) ∧
    ∀ later s', Trace slotCount s later s' → Lasting s s' := by
  obtain ⟨orderly, noOverflow⟩ := account positive fits run
  exact ⟨⟨orderly.inOrder, orderly.slots⟩, noOverflow, orderly.disjoint,
    fun _ _ later => Lasting.run later⟩

/-- One slot handed over and taken, with an abort in between. -/
def briefCapture : List (Action Nat) :=
  [.waitForSlotFree, .fill 0 7, .markSlotFull, .waitForSlotFull, .abort, .abortNext 0]

theorem exactly_once_brief :
    let out := (machine 3).trace (start 0 fun _ => 0) briefCapture
    taken out.1 = [(0, 7)] ∧ taken out.1 <+: handedOver out.1 ∧
      (out.2.ring.slots 0).state = .aborted := by
  have run := Run.of_trace (machine 3) (fun _ _ => true) (start 0 fun _ => 0) briefCapture rfl
    fun s a _ => (trivial : Any s a)
  exact ⟨rfl, (exactly_once (by decide) (by decide) run).1.1, rfl⟩

end RingHandoff
