import DomesdayDuplicator.Capture.RingHandoff

/-!
# The ring's two counters

A slot's state and the counter that goes with it change in separate steps, so the counters lag
the slots. The filled counter is behind by the slot whose handover is not counted yet; the freed
one by the slot given back and not counted yet, and by every slot whose giving back an abort
forestalled: but such a slot is never filled again.
-/

namespace RingOccupancy

open Execution DiskBufferRing RingHandoff

universe u

variable {α : Type u} {slotCount : Nat}

/-- `SlotsInUse`, its two loads at two moments. -/
def slotsInUse (atFirst atSecond : RingState α) : Nat :=
  let freed := atFirst.slotsFreed
  let filled := atSecond.slotsFilled
  difference filled (min filled freed)

/-! ## The lag -/

def uncountedFill : Producer → Nat
  | .counting => 1
  | _ => 0

def uncountedFree : Consumer → Nat
  | .counting _ => 1
  | _ => 0

/-- Outside `MarkSlotFull`. -/
def Calm : Producer → Prop
  | .ready | .sleeping _ | .reloading | .finished => True
  | _ => False

structure Tallied (slotCount back : Nat) (s : Handoff α) : Prop where
  filled : s.ring.slotsFilled + uncountedFill s.producer = s.handed
  measured : ∀ filled, s.producer = .measuring filled → filled = s.handed
  inUse : ∀ inUse, s.producer = .peaking inUse ∨ (∃ peak, s.producer = .raising inUse peak) →
    inUse ≤ slotCount + 1
  peak : s.ring.peakSlotsInUse ≤ slotCount + 1
  freed : s.ring.slotsFreed + uncountedFree s.consumer ≤ back
  /-- Up to visit `k` every slot given back is counted; where it is not, the slot of visit `k`
  holds the transfer thread up for good. -/
  lap : ∃ k, k ≤ s.ring.slotsFreed + uncountedFree s.consumer ∧ s.claimed ≤ k + slotCount ∧
    (k = back ∨ (s.ring.slots (k % slotCount)).state = .aborted)

namespace Tallied

variable {back : Nat} {s t : Handoff α}

theorem initial {primed : Nat} (fits : primed ≤ slotCount) (contents : Nat → α) :
    Tallied slotCount 0 (start primed contents) where
  filled := rfl
  measured := by simp [start]
  inUse := by simp [start]
  peak := Nat.zero_le _
  freed := Nat.le_refl _
  lap := ⟨0, Nat.zero_le _, by simpa [start] using fits, Or.inl rfl⟩

/-- What is neither a handover, a giving back nor a count. -/
theorem still (h : Tallied slotCount back s) (lasting : Lasting s t)
    (filled : t.ring.slotsFilled = s.ring.slotsFilled)
    (freed : t.ring.slotsFreed = s.ring.slotsFreed)
    (peak : t.ring.peakSlotsInUse = s.ring.peakSlotsInUse)
    (handed : t.handed = s.handed) (claimed : t.claimed = s.claimed)
    (producer : t.producer = s.producer ∨ Calm s.producer ∧ Calm t.producer)
    (consumer : uncountedFree t.consumer = uncountedFree s.consumer) :
    Tallied slotCount back t := by
  have outside {p : Producer} (calm : Calm p) : uncountedFill p = 0 ∧
      (∀ filled, p ≠ .measuring filled) ∧ (∀ inUse, p ≠ .peaking inUse) ∧
      ∀ inUse peak, p ≠ .raising inUse peak := by
    cases p <;> simp_all [Calm, uncountedFill]
  constructor
  case filled =>
    rcases producer with same | ⟨before, after⟩
    · rw [filled, same, handed, h.filled]
    · rw [filled, handed, (outside after).1, ← h.filled, (outside before).1]
  case measured =>
    intro n here
    rcases producer with same | ⟨-, after⟩
    · rw [handed]
      exact h.measured n (same ▸ here)
    · exact absurd here ((outside after).2.1 n)
  case inUse =>
    intro n here
    rcases producer with same | ⟨-, after⟩
    · exact h.inUse n (same ▸ here)
    · rcases here with here | ⟨p, here⟩
      · exact absurd here ((outside after).2.2.1 n)
      · exact absurd here ((outside after).2.2.2 n p)
  case peak => rw [peak]; exact h.peak
  case freed => rw [freed, consumer]; exact h.freed
  case lap =>
    obtain ⟨k, counted, lap, last⟩ := h.lap
    exact ⟨k, by omega, by omega, last.imp_right (lasting.2 _)⟩

/-- The transfer thread is never more than a lap, and the slot not counted yet, ahead of the
freed counter. -/
theorem ahead (h : Tallied slotCount back s) :
    s.claimed ≤ s.ring.slotsFreed + uncountedFree s.consumer + slotCount := by
  obtain ⟨k, counted, lap, -⟩ := h.lap
  omega

theorem ahead_le (h : Tallied slotCount back s) :
    s.claimed ≤ s.ring.slotsFreed + slotCount + 1 := by
  have := h.ahead
  have : uncountedFree s.consumer ≤ 1 := by
    unfold uncountedFree
    split <;> omega
  omega

end Tallied

/-! ## Every step -/

/-- The tally after a step, with what the step reported. -/
def Tallies (slotCount back : Nat) (outcome : Handoff α × Event α) : Prop :=
  Tallied slotCount (back + (givenBack [outcome.2]).length) outcome.1

theorem difference_le {filled freed : Nat} (order : freed ≤ filled) :
    difference filled freed ≤ filled - freed := by
  have : filled + 2 ^ 64 - freed = filled - freed + 2 ^ 64 := by omega
  rw [difference, this, Nat.add_mod_right]
  exact Nat.mod_le _ _

theorem compareExchange_counters (r : RingState α) (index : Nat) (expected desired : SlotState) :
    (r.compareExchange index expected desired).1.slotsFilled = r.slotsFilled ∧
      (r.compareExchange index expected desired).1.slotsFreed = r.slotsFreed ∧
      (r.compareExchange index expected desired).1.peakSlotsInUse = r.peakSlotsInUse := by
  unfold RingState.compareExchange
  split <;> exact ⟨rfl, rfl, rfl⟩

section Steps

variable {offered taken : List (Nat × α)} {back : Nat} {s : Handoff α}

/-- A slot found empty is one the tally lets the transfer thread have. -/
theorem waitForSlotFree_tallies (orderly : Orderly slotCount offered taken back s)
    (h : Tallied slotCount back s) (room : s.claimed - s.handed < slotCount)
    (calm : Calm s.producer) (live : s.producer ≠ .finished) :
    Tallies slotCount back (waitForSlotFree slotCount s) := by
  have within := waitForSlotFree_accounts orderly room live
  unfold waitForSlotFree at within ⊢
  dsimp only at within ⊢
  cases seen : (s.ring.slots (s.claimed % slotCount)).state <;> rw [seen] at within <;>
    dsimp only at within ⊢
  case empty =>
    obtain ⟨k, counted, lap, last⟩ := h.lap
    have moved : Tallied slotCount back { s with producer := .ready } :=
      h.still (.same rfl id) rfl rfl rfl rfl rfl (Or.inr ⟨calm, trivial⟩) rfl
    refine { moved with lap := ⟨k, counted, ?_, last⟩ }
    rcases last with rfl | gone
    · exact within.lap
    · by_contra beyond
      obtain whole : s.claimed = k + slotCount := by
        dsimp only at beyond
        omega
      rw [whole, Nat.add_mod_right, gone] at seen
      cases seen
  all_goals exact h.still (.same rfl id) rfl rfl rfl rfl rfl (Or.inr ⟨calm, trivial⟩) rfl

theorem markSlotFull_tallies (h : Tallied slotCount back s) (ready : s.producer = .ready)
    (lasting : Lasting s (markSlotFull slotCount s).1) :
    Tallies slotCount back (markSlotFull slotCount s) := by
  have filled := h.filled
  have counters := compareExchange_counters s.ring (s.handed % slotCount) .empty .full
  rw [ready] at filled
  unfold markSlotFull at lasting ⊢
  dsimp only at lasting ⊢
  split <;> rename_i ring exchanged <;> rw [exchanged] at lasting counters <;>
    obtain ⟨sameFilled, sameFreed, samePeak⟩ := counters <;> dsimp only at lasting sameFilled
  · constructor
    case filled => simpa [uncountedFill, sameFilled] using filled
    case measured => simp
    case inUse => simp
    case peak => exact samePeak ▸ h.peak
    case freed => exact sameFreed ▸ h.freed
    case lap =>
      obtain ⟨k, counted, lap, last⟩ := h.lap
      exact ⟨k, by rwa [sameFreed], lap, last.imp_right (lasting.2 _)⟩
  · have unmoved := h.still lasting sameFilled sameFreed samePeak rfl rfl (Or.inl rfl) rfl
    split <;> exact unmoved

theorem producerStep_tallies (orderly : Orderly slotCount offered taken back s)
    (h : Tallied slotCount back s) (weakFails : Bool) :
    Tallies slotCount back (producerStep slotCount weakFails s) := by
  have filled := h.filled
  have order := orderly.back_le
  have handed := orderly.handed
  have claimed := orderly.claimed
  have ahead := h.ahead_le
  unfold producerStep
  split <;> rename_i here <;> simp only [here] at filled
  case h_1 observed =>
    split
    · exact h
    · exact h.still (.same rfl id) rfl rfl rfl rfl rfl (Or.inr ⟨by simp [here, Calm], trivial⟩) rfl
  case h_2 =>
    exact waitForSlotFree_tallies orderly h (orderly.room (by simp [here, Waiting]))
      (by simp [here, Calm]) (by simp [here])
  case h_3 =>
    refine ⟨filled, ?_, by simp, h.peak, h.freed, h.lap⟩
    rintro counted ⟨⟩
    exact filled
  case h_4 counted =>
    have all := h.measured counted here
    have freed := h.freed
    refine ⟨filled, by simp, ?_, h.peak, h.freed, h.lap⟩
    rintro inUse (⟨⟨⟩⟩ | ⟨peak, ⟨⟩⟩)
    have := @difference_le counted s.ring.slotsFreed (by omega)
    omega
  case h_5 inUse =>
    refine ⟨filled, by simp, ?_, h.peak, h.freed, h.lap⟩
    rintro n (⟨⟨⟩⟩ | ⟨peak, ⟨⟩⟩)
    exact h.inUse inUse (Or.inl here)
  case h_6 inUse peak =>
    have bound := h.inUse inUse (Or.inr ⟨peak, here⟩)
    split
    · exact ⟨filled, by simp, by simp, h.peak, h.freed, h.lap⟩
    split
    · refine ⟨filled, by simp, ?_, h.peak, h.freed, h.lap⟩
      rintro n (⟨⟨⟩⟩ | ⟨other, ⟨⟩⟩)
      exact bound
    · exact ⟨filled, by simp, by simp, bound, h.freed, h.lap⟩
  all_goals exact h

theorem markSlotFree_tallies (orderly : Orderly slotCount offered taken back s)
    (h : Tallied slotCount back s) (holds : s.consumer = .processing) (more : Bool)
    (lasting : Lasting s (markSlotFree more s).1) :
    Tallies slotCount back (markSlotFree more s) := by
  have freed := h.freed
  obtain ⟨k, counted, lap, last⟩ := h.lap
  have counters := compareExchange_counters s.ring s.slotIndex .full .empty
  have place : s.slotIndex = back % slotCount := by
    rw [orderly.index (by simp [holds]), orderly.passes (by simp [holds])
      (by simp [holds, Returned])]
  have held : back < offered.length := by
    have := orderly.holding holds
    have := orderly.back_le
    omega
  rw [holds] at counted freed
  unfold markSlotFree at lasting ⊢
  unfold RingState.compareExchange at *
  by_cases full : (s.ring.slots s.slotIndex).state = .full
  · simp only [full, if_true] at lasting counters ⊢
    obtain ⟨sameFilled, sameFreed, samePeak⟩ := counters
    refine ⟨h.filled, h.measured, h.inUse, h.peak, Nat.succ_le_succ freed, ?_⟩
    rcases last with rfl | gone
    · exact ⟨k + 1, Nat.succ_le_succ counted, by dsimp only; omega, Or.inl rfl⟩
    · exact ⟨k, Nat.le_succ_of_le counted, lap, Or.inr (lasting.2 _ gone)⟩
  · simp only [full, if_false] at lasting ⊢
    have gone : (s.ring.slots (back % slotCount)).state = .aborted := by
      rcases orderly.occupied.full back (Nat.le_refl _) held with whole | gone
      · exact absurd (place ▸ whole) full
      · exact gone
    refine ⟨h.filled, h.measured, h.inUse, h.peak, Nat.le_succ_of_le freed,
      k, counted, lap, Or.inr ?_⟩
    rcases last with rfl | other
    · exact gone
    · exact other

theorem nextPass_tallied (h : Tallied slotCount back s) (more : Bool)
    (done : uncountedFree s.consumer = 0) :
    Tallied slotCount back (nextPass slotCount more s) := by
  unfold nextPass
  cases more with
  | true => exact h.still (.same rfl id) rfl rfl rfl rfl rfl (Or.inl rfl) done.symm
  | false => exact h.still (.same rfl id) rfl rfl rfl rfl rfl (Or.inl rfl) done.symm

/-- A load of the processing thread. -/
theorem waitForSlotFull_tallies (h : Tallied slotCount back s)
    (idle : uncountedFree s.consumer = 0) : Tallies slotCount back (waitForSlotFull s) := by
  unfold waitForSlotFull
  split <;> exact h.still (.same rfl id) rfl rfl rfl rfl rfl (Or.inl rfl) idle.symm

theorem consumerStep_tallies (h : Tallied slotCount back s) :
    Tallies slotCount back (consumerStep slotCount s) := by
  unfold consumerStep
  split <;> rename_i here
  case h_1 =>
    split
    · exact h
    · exact h.still (.same rfl id) rfl rfl rfl rfl rfl (Or.inl rfl) (by simp [here, uncountedFree])
  case h_2 => exact waitForSlotFull_tallies h (by simp [here, uncountedFree])
  case h_3 more =>
    have freed := h.freed
    have lap := h.lap
    simp only [here, uncountedFree] at freed lap
    have counted : Tallied slotCount back
        { s with
          ring := { s.ring with slotsFreed := s.ring.slotsFreed + 1 }
          consumer := .looping } :=
      ⟨h.filled, h.measured, h.inUse, h.peak, freed, lap⟩
    cases more with
    | true => exact nextPass_tallied counted true rfl
    | false => exact nextPass_tallied counted false rfl
  case h_4 more =>
    obtain ⟨sameFilled, sameFreed, samePeak⟩ :=
      compareExchange_counters s.ring s.slotIndex .dumped .empty
    have released : Tallied slotCount back
        { s with ring := (s.ring.compareExchange s.slotIndex .dumped .empty).1 } :=
      h.still (.exchange (by simp) rfl) sameFilled sameFreed samePeak rfl rfl (Or.inl rfl) rfl
    exact nextPass_tallied released more (by simp [here, uncountedFree])
  all_goals exact h

theorem step_tallies (orderly : Orderly slotCount offered taken back s)
    (h : Tallied slotCount back s) (a : Action α) : Tallies slotCount back (step slotCount s a) := by
  have lasting : Lasting s (step slotCount s a).1 := Lasting.step s a
  cases a with
  | waitForSlotFree =>
    simp only [step]
    split
    next ok => exact waitForSlotFree_tallies orderly h ok.2 (by simp [ok.1, Calm]) (by simp [ok.1])
    · exact h
  | markSlotFull =>
    simp only [step] at lasting ⊢
    split at lasting <;> rename_i ok
    · rw [if_pos ok]
      exact markSlotFull_tallies h ok.1 lasting
    · rw [if_neg ok]
      exact h
  | producerStep weakFails => exact producerStep_tallies orderly h weakFails
  | finish =>
    simp only [step]
    split
    next ready =>
      exact h.still (.same rfl id) rfl rfl rfl rfl rfl (Or.inr ⟨by simp [ready, Calm], trivial⟩) rfl
    · exact h
  | waitForSlotFull =>
    simp only [step]
    split
    next looping => exact waitForSlotFull_tallies h (by simp [looping, uncountedFree])
    · exact h
  | markSlotFree more =>
    simp only [step] at lasting ⊢
    split at lasting <;> rename_i ok
    · rw [if_pos ok]
      exact markSlotFree_tallies orderly h ok more lasting
    · rw [if_neg ok]
      exact h
  | consumerStep => exact consumerStep_tallies h
  | leave =>
    simp only [step]
    split
    next ok =>
      exact h.still (.same rfl id) rfl rfl rfl rfl rfl (Or.inl rfl) (by simp [ok.1, uncountedFree])
    · exact h
  | fill visit data | rewrite data | markEmptySlotsDumped =>
    simp only [step] at lasting ⊢
    split <;> rename_i ok
    · rw [if_pos ok] at lasting
      exact h.still lasting rfl rfl rfl rfl rfl (Or.inl rfl) rfl
    · exact h
  | requestAbort | abort => exact h.still lasting rfl rfl rfl rfl rfl (Or.inl rfl) rfl
  | abortNext sweep =>
    refine h.still lasting ?_ ?_ ?_ ?_ ?_ (Or.inl ?_) ?_ <;> simp only [step, abortNext] <;>
      repeat' split
    all_goals rfl
  | dumpNext =>
    have counters := fun index => compareExchange_counters s.ring index .empty .dumped
    refine h.still lasting ?_ ?_ ?_ ?_ ?_ (Or.inl ?_) ?_ <;> simp only [step, dumpNext] <;>
      repeat' split
    all_goals first | rfl | simp only [counters]

end Steps

/-! ## Every run -/

theorem tallied_of_run {primed : Nat} (positive : 0 < slotCount) (fits : primed ≤ slotCount)
    {contents : Nat → α} {es : List (Event α)} {s : Handoff α}
    (run : Trace slotCount (start primed contents) es s) :
    Account slotCount es s ∧ Tallied slotCount (givenBack es).length s := by
  refine run.invariant_events
    (fun es s => Account slotCount es s ∧ Tallied slotCount (givenBack es).length s)
    ⟨⟨Orderly.initial fits contents, by simp⟩, Tallied.initial fits contents⟩ ?_
  rintro es s a ⟨account, tallied⟩ -
  refine ⟨account_step positive account a, ?_⟩
  have next := step_tallies account.1 tallied a
  rwa [Tallies, ← List.length_append, givenBack, givenBack, ← List.filterMap_append] at next

/-- In use by the counters of one moment: a slot more than there are only where one has been
given back and not counted. -/
theorem Tallied.inUse_le {offered taken : List (Nat × α)} {back : Nat} {s : Handoff α}
    (orderly : Orderly slotCount offered taken back s) (h : Tallied slotCount back s) :
    s.ring.slotsFilled - s.ring.slotsFreed ≤ slotCount + uncountedFree s.consumer := by
  have := h.ahead
  have := h.filled
  have := orderly.claimed
  omega

theorem slotsInUse_le (first second : RingState α) :
    slotsInUse first second ≤
      (first.slotsFilled - first.slotsFreed) + (second.slotsFilled - first.slotsFilled) := by
  have := difference_le (Nat.min_le_left second.slotsFilled first.slotsFreed)
  simp only [slotsInUse]
  omega

/-- Wherever the steps fall: the subtraction of `MarkSlotFull` does not underflow, the peak it
records is at most one more than there are slots, and so is what `SlotsInUse` reports, but for
the handovers counted between its two loads; with no slot given back and uncounted it is at most
the number of slots. -/
theorem occupancy_bounds {primed : Nat} (positive : 0 < slotCount) (fits : primed ≤ slotCount)
    {contents : Nat → α} {es later : List (Event α)} {s t : Handoff α}
    (run : Trace slotCount (start primed contents) es s) (_ : Trace slotCount s later t) :
    (∀ filled, s.producer = .measuring filled → s.ring.slotsFreed ≤ filled) ∧
      s.ring.peakSlotsInUse ≤ slotCount + 1 ∧
      slotsInUse s.ring t.ring ≤
        slotCount + 1 + (t.ring.slotsFilled - s.ring.slotsFilled) ∧
      (uncountedFree s.consumer = 0 → slotsInUse s.ring t.ring ≤
        slotCount + (t.ring.slotsFilled - s.ring.slotsFilled)) := by
  obtain ⟨⟨orderly, -⟩, tallied⟩ := tallied_of_run positive fits run
  have reported := slotsInUse_le s.ring t.ring
  have inUse := tallied.inUse_le orderly
  have uncounted : uncountedFree s.consumer ≤ 1 := by
    unfold uncountedFree
    split <;> omega
  refine ⟨fun filled here => ?_, tallied.peak, by omega, fun none => by omega⟩
  have := tallied.measured filled here
  have := tallied.freed
  have := orderly.handed
  have := orderly.back_le
  omega

/-- One slot secured, handed over and counted. -/
def fillNext : List (Action Nat) :=
  [.waitForSlotFree, .markSlotFull] ++ List.replicate 4 (.producerStep false)

/-- Three slots filled, the first given back but not yet counted, and filled again. -/
def refilled : List (Action Nat) :=
  fillNext ++ fillNext ++ fillNext ++ [.waitForSlotFull, .markSlotFree true] ++ fillNext

theorem refilled_run :
    Trace 3 (start 0 fun _ => 0) ((machine 3).trace (start 0 fun _ => 0) refilled).1
      ((machine 3).trace (start 0 fun _ => 0) refilled).2 :=
  Run.of_trace (machine 3) (fun _ _ => true) (start 0 fun _ => 0) refilled rfl
    fun s a _ => (trivial : Any s a)

/-- A ring of three slots that reports four in use. -/
theorem refilled_exceeds :
    ¬ ∀ (es : List (Event Nat)) (s : Handoff Nat), Trace 3 (start 0 fun _ => 0) es s →
      s.ring.peakSlotsInUse ≤ 3 ∧ slotsInUse s.ring s.ring ≤ 3 := by
  intro bounded
  have peak := (bounded _ _ refilled_run).1
  have : ((machine 3).trace (start 0 fun _ => 0) refilled).2.ring.peakSlotsInUse = 4 := rfl
  omega

theorem occupancy_bounds_refilled :
    slotsInUse ((machine 3).trace (start 0 fun _ => 0) refilled).2.ring
      ((machine 3).trace (start 0 fun _ => 0) refilled).2.ring ≤ 4 :=
  (occupancy_bounds (by decide) (by decide) refilled_run .refl).2.2.1

end RingOccupancy
