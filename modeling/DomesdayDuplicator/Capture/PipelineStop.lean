import DomesdayDuplicator.Capture.PipelineDrain

/-!
# Neither thread is left waiting

The control thread goes round its loop until the processing thread has left, and
sweeps the ring on every round: the steps it needs to reach a given slot are counted
by `stepsLeft`, which no other thread raises. After its loop it aborts the ring if
the transfer thread is still there.
-/

namespace PipelineStop

open Execution RingHandoff CapturePipeline PipelineThreads PipelineDrain
open RingParties hiding producer_kept consumer_kept controller_kept
open DiskBufferRing (Handoff Event)

universe u v w

variable {α : Type u} {ν : Type v} {σ : Type w} {slotCount : Nat} {validate : Validate α ν}

def isControl : Action α σ → Bool
  | .controlStep _ => true
  | _ => false

/-- At most so many steps of the control thread until it marks slot `i`. -/
def stepsLeft (slotCount i : Nat) (p : Pipeline α ν σ) : Nat :=
  match p.control with
  | .aborting sweep _ => i - p.handoff.aborts.getD sweep 0
  | .beginning _ => i + 1
  | .requesting _ | .closing => i + 2
  | .checking => i + 3
  | .judging => i + 4
  | .dumping =>
    match p.handoff.dump with
    | some k => if k ≤ i then i - k else slotCount - k + (i + 5)
    | none => 0
  | .finding => if p.transfer = .finished then i + 1 else i + 5
  | .watching => if p.transfer = .finished then i + 2 else i + 6
  | .joining | .joined => 0

section Control

variable {p : Pipeline α ν σ} {i : Nat}

theorem stepsLeft_le (below : i < slotCount) : stepsLeft slotCount i p ≤ 2 * slotCount + 5 := by
  simp only [stepsLeft]
  repeat' split
  all_goals omega

/-- The other threads do not set the control thread back. -/
theorem stepsLeft_other (controlled : Controlled slotCount p) {a : Action α σ}
    (other : isControl a = false) :
    stepsLeft slotCount i (step slotCount validate p a).1 ≤ stepsLeft slotCount i p := by
  have control : (step slotCount validate p a).1.control = p.control := by
    by_cases mine : actor a = .controller
    · cases a with
      | controlStep stalled => simp [isControl] at other
      | abortNext sweep =>
        simp only [step]
        split <;> rfl
      | requestStop | requestAbort | abort | attachSink | detachSink | callerStep => rfl
      | _ => simp [actor] at mine
    · exact control_kept mine
  have dump : (step slotCount validate p a).1.handoff.dump = p.handoff.dump := by
    by_cases mine : actor a = .controller
    · cases a with
      | controlStep stalled => simp [isControl] at other
      | abortNext sweep =>
        simp only [step]
        split
        · rfl
        · exact (abortNext_frame p.handoff sweep).1
      | requestStop | requestAbort | abort | attachSink | detachSink | callerStep => rfl
      | _ => simp [actor] at mine
    · exact (controller_kept mine).2.1
  have aborts : ∀ sweep, p.control.sweep = some sweep →
      (step slotCount validate p a).1.handoff.aborts[sweep]? = p.handoff.aborts[sweep]? := by
    intro sweep own
    have inside := controlled.own sweep own
    by_cases mine : actor a = .controller
    · cases a with
      | controlStep stalled => simp [isControl] at other
      | abort =>
        simp only [step, onRing, DiskBufferRing.step]
        exact List.getElem?_append_left inside
      | abortNext another =>
        simp only [step]
        split
        · rfl
        · rename_i different
          have apart : another ≠ sweep := by
            rintro rfl
            exact different own
          simp only [onRing, DiskBufferRing.step, DiskBufferRing.abortNext]
          repeat' split
          all_goals simp [apart]
      | requestStop | requestAbort | attachSink | detachSink | callerStep => rfl
      | _ => simp [actor] at mine
    · rw [(controller_kept mine).1]
  have ended := @transfer_ended _ _ _ slotCount validate p a
  simp only [stepsLeft, control, dump]
  cases place : p.control with
  | aborting sweep resume =>
    have same := aborts sweep (by simp [place, Control.sweep])
    simp only [List.getD_eq_getElem?_getD, same, le_refl]
  | finding =>
    by_cases finished : p.transfer = .finished
    · simp [finished, ended finished]
    · simp only [finished, if_false]
      split <;> omega
  | watching =>
    by_cases finished : p.transfer = .finished
    · simp [finished, ended finished]
    · simp only [finished, if_false]
      split <;> omega
  | _ => simp

/-- Where the control thread has to come round to: the processing thread waits for a
slot with the transfer over, or has left while the transfer goes on. -/
def Due (i : Nat) (p : Pipeline α ν σ) : Prop :=
  p.transfer = .finished ∧ p.processing ≠ .finished ∧
      (p.handoff.ring.slots i).state = .empty ∨
    p.transfer ≠ .finished ∧ p.processing = .finished ∧
      (p.handoff.ring.slots i).state ≠ .aborted

theorem Due.live (h : Due i p) : (p.handoff.ring.slots i).state ≠ .aborted := by
  rcases h with ⟨-, -, empty⟩ | ⟨-, -, live⟩
  · simp [empty]
  · exact live

/-- A sweep of an abort that has not marked the slot is not past it. -/
theorem sweep_before (controlled : Controlled slotCount p) (sweeping : Sweeping p.handoff)
    (live : (p.handoff.ring.slots i).state ≠ .aborted) {sweep : Nat}
    (own : p.control.sweep = some sweep) :
    ∃ next, p.handoff.aborts[sweep]? = some next ∧ next ≤ i := by
  have inside := controlled.own sweep own
  refine ⟨p.handoff.aborts[sweep], List.getElem?_eq_getElem inside, ?_⟩
  by_contra past
  exact live (sweeping.swept sweep _ (List.getElem?_eq_getElem inside) i (by omega))

theorem aborting_progress (below : i < slotCount) {sweep next : Nat} {resume : Resume}
    (place : p.control = .aborting sweep resume) (here : p.handoff.aborts[sweep]? = some next)
    (before : next ≤ i) (stalled : Bool) :
    ((controlStep slotCount stalled p).1.handoff.ring.slots i).state = .aborted ∨
      stepsLeft slotCount i (controlStep slotCount stalled p).1 < stepsLeft slotCount i p := by
  have inside : sweep < p.handoff.aborts.length := (List.getElem?_eq_some_iff.mp here).1
  have under : next < slotCount := by omega
  simp only [controlStep, place, List.getD_eq_getElem?_getD, here, Option.getD_some, if_pos under,
    onRing, DiskBufferRing.step, DiskBufferRing.abortNext, stepsLeft,
    DiskBufferRing.RingState.store_state]
  rcases Nat.lt_or_ge next i with earlier | last
  · right
    rw [List.getElem?_set_self inside, Option.getD_some]
    omega
  · left
    rw [if_pos (by omega)]

theorem dumping_progress (below : i < slotCount)
    (empty : (p.handoff.ring.slots i).state = .empty) {next : Nat}
    (place : p.control = .dumping) (here : p.handoff.dump = some next) (stalled : Bool) :
    ((controlStep slotCount stalled p).1.handoff.ring.slots i).state = .dumped ∨
      stepsLeft slotCount i (controlStep slotCount stalled p).1 < stepsLeft slotCount i p := by
  simp only [controlStep, place, onRing, DiskBufferRing.step, DiskBufferRing.dumpNext, here,
    stepsLeft]
  rcases Nat.lt_trichotomy next i with earlier | rfl | later
  · right
    have under : next < slotCount := by omega
    simp only [if_pos under, reduceCtorEq, if_false]
    rw [if_pos (by omega), if_pos (by omega)]
    omega
  · left
    simp only [if_pos below, DiskBufferRing.RingState.compareExchange_state, empty, and_self,
      if_true]
  · right
    rw [if_neg (show ¬ next ≤ i by omega)]
    by_cases under : next < slotCount
    · simp only [if_pos under, reduceCtorEq, if_false]
      rw [if_neg (by omega)]
      omega
    · simp only [if_neg under, if_true]
      omega

theorem stepsLeft_control (controlled : Controlled slotCount p) (sweeping : Sweeping p.handoff)
    (threads : Threads p) (below : i < slotCount) (due : Due i p) (stalled : Bool) :
    p.transfer = .finished ∧
        ((controlStep slotCount stalled p).1.handoff.ring.slots i).state = .dumped ∨
      ((controlStep slotCount stalled p).1.handoff.ring.slots i).state = .aborted ∨
      stepsLeft slotCount i (controlStep slotCount stalled p).1 < stepsLeft slotCount i p := by
  have none : p.control ≠ .dumping → p.handoff.dump = none := by
    intro other
    by_contra some
    exact other (controlled.dumping.mpr some)
  have beyond := controlled.beyond
  cases place : p.control with
  | aborting sweep resume =>
    have own : p.control.sweep = some sweep := by rw [place, Control.sweep]
    obtain ⟨next, here, before⟩ := sweep_before controlled sweeping due.live own
    exact Or.inr (aborting_progress below place here before stalled)
  | dumping =>
    have finished := controlled.ended place
    obtain ⟨next, here⟩ := Option.ne_none_iff_exists'.mp (controlled.dumping.mp place)
    rcases due with ⟨-, -, empty⟩ | ⟨live, -⟩
    · rcases dumping_progress below empty place here stalled with dumped | nearer
      · exact Or.inl ⟨finished, dumped⟩
      · exact Or.inr (Or.inr nearer)
    · exact absurd finished live
  | checking =>
    right; right
    rcases due with ⟨finished, live, -⟩ | ⟨live, finished, -⟩
    · simp [controlStep, place, live, finished, stepsLeft]
    · simp [controlStep, place, finished, stepsLeft]
  | watching =>
    right; right
    rcases due with ⟨finished, live, -⟩ | ⟨live, finished, -⟩
    · simp [controlStep, place, finished, stepsLeft]
    · by_cases stall : p.transfer ≠ .finished ∧ p.stopRequested = false ∧ stalled
      · simp only [controlStep, place, if_pos stall, stepsLeft, if_neg live]
        omega
      · simp only [controlStep, place, if_neg stall, stepsLeft, if_neg live]
        omega
  | finding =>
    right; right
    rcases due with ⟨finished, live, -⟩ | ⟨live, finished, -⟩
    · have done : p.handoff.producer = .finished := by
        by_contra going
        have := threads.running.mpr going
        simp [finished] at this
      simp [controlStep, place, finished, stepsLeft, onRing, DiskBufferRing.step, done,
        none (by simp [place])]
    · simp [controlStep, place, live, stepsLeft]
  | judging =>
    right; right
    cases latched : p.latched <;> simp [controlStep, place, latched, stepsLeft]
  | requesting resume =>
    right; right
    simp [controlStep, place, stepsLeft]
  | beginning resume =>
    right; right
    simp [controlStep, place, stepsLeft, onRing, DiskBufferRing.step]
  | closing =>
    have left := beyond (by simp [place, Beyond])
    right; right
    rcases due with ⟨-, live, -⟩ | ⟨live, -, -⟩
    · exact absurd left live
    · simp [controlStep, place, live, stepsLeft]
  | joining | joined =>
    have left := beyond (by simp [place, Beyond])
    rcases due with ⟨-, live, -⟩ | ⟨live, -, kept⟩
    · exact absurd left live
    · rcases controlled.closed (by simp [place]) with finished | all
      · exact absurd finished live
      · exact absurd (all i below) kept

end Control

/-! ## The processing thread -/

section Processing

variable {v : ν} {es : List (Event α)} {p : Pipeline α ν σ} {i : Nat}

/-- The processing thread waits for slot `i`, which is empty. -/
structure Blocked (i : Nat) (p : Pipeline α ν σ) : Prop where
  waiting : p.processing = .waiting
  index : p.handoff.slotIndex = i
  empty : (p.handoff.ring.slots i).state = .empty

theorem Blocked.below (positive : 0 < slotCount) (blocked : Blocked i p)
    (coherent : Coherent slotCount validate v es p) : i < slotCount := by
  have placed := coherent.threads.placed
  rw [blocked.waiting] at placed
  have inside : p.handoff.consumer ≠ .exited := by
    intro exited
    simp [exited, Placed, Awaits] at placed
  rw [← blocked.index, coherent.account.1.index inside]
  exact Nat.mod_lt _ positive

/-- It goes on waiting until somebody marks the slot. -/
theorem Blocked.step (blocked : Blocked i p) (threads : Threads p) (a : Action α σ)
    (empty : ((step slotCount validate p a).1.handoff.ring.slots i).state = .empty) :
    Blocked i (step slotCount validate p a).1 := by
  by_cases mine : actor a = .consumer
  · cases a with
    | processingStep finishes verifies writes =>
      have placed := threads.placed
      simp only [blocked.waiting, Placed] at placed
      simp only [CapturePipeline.step, processingStep, blocked.waiting, onRing] at empty ⊢
      have cases := @await_cases _ slotCount p.handoff placed
      generalize DiskBufferRing.step slotCount p.handoff _ = next at cases empty
      cases cases with
      | waits c still awake =>
        refine ⟨?_, blocked.index, blocked.empty⟩
        cases c <;> simp_all [Awaits, awaited]
      | takes full => simp [blocked.index, blocked.empty] at full
      | leaves nothing => simp [blocked.index, blocked.empty] at nothing
    | _ => simp [actor] at mine
  · constructor
    · rw [(processing_kept mine).1, blocked.waiting]
    · rw [(consumer_kept mine).2.1, blocked.index]
    · exact empty

/-- With the transfer over, every interleaving in which the control thread goes on
marks the slot the processing thread waits for. -/
theorem slot_marked (positive : 0 < slotCount) (coherent : Coherent slotCount validate v es p)
    (finished : p.transfer = .finished) (blocked : Blocked i p) {actions : List (Action α σ)}
    (enough : 2 * slotCount + 5 < actions.countP isControl) :
    ∃ k, ((((machine slotCount validate).trace p (actions.take k)).2.handoff.ring.slots i).state ≠
      .empty) := by
  have below := blocked.below positive coherent
  let Open (p : Pipeline α ν σ) : Prop :=
    (∃ es, Coherent slotCount validate v es p) ∧ p.transfer = .finished ∧ Blocked i p
  let Done (p : Pipeline α ν σ) : Prop := (p.handoff.ring.slots i).state ≠ .empty
  refine @Machine.arrives _ _ _ (machine slotCount validate) Open Done (stepsLeft slotCount i)
    isControl ?_ p ⟨⟨es, coherent⟩, finished, blocked⟩ actions ?_
  · rintro p a ⟨⟨es, coherent⟩, finished, blocked⟩
    by_cases empty : ((step slotCount validate p a).1.handoff.ring.slots i).state = .empty
    · right
      have still : Open (step slotCount validate p a).1 :=
        ⟨⟨_, coherent.step positive a⟩, transfer_ended a finished,
          blocked.step coherent.threads a empty⟩
      by_cases turn : isControl a = true
      · cases a with
        | controlStep stalled =>
          have due : Due i p := Or.inl ⟨finished, by simp [blocked.waiting], blocked.empty⟩
          rcases stepsLeft_control coherent.controlled coherent.sweeping coherent.threads below
            due stalled with ⟨-, dumped⟩ | aborted | nearer
          · exact absurd (dumped.symm.trans empty) (by simp)
          · exact absurd (aborted.symm.trans empty) (by simp)
          · exact ⟨still, nearer.le, fun _ => nearer⟩
        | _ => simp [isControl] at turn
      · have other : isControl a = false := by simpa using turn
        exact ⟨still, stepsLeft_other coherent.controlled other, fun h => absurd h turn⟩
    · exact Or.inl empty
  · exact (stepsLeft_le below).trans_lt enough

end Processing

/-! ## The transfer thread -/

section Transfer

variable {v : ν} {es : List (Event α)} {p : Pipeline α ν σ} {i : Nat}

/-- The transfer thread waits for slot `i`, and nobody has aborted it. -/
structure Held (slotCount i : Nat) (p : Pipeline α ν σ) : Prop where
  waiting : Waiting p.handoff.producer
  index : p.handoff.claimed % slotCount = i
  live : (p.handoff.ring.slots i).state ≠ .aborted

theorem Held.running (held : Held slotCount i p) (threads : Threads p) :
    p.transfer ≠ .finished := by
  have live : p.handoff.producer ≠ .finished := by
    intro finished
    have waiting := held.waiting
    simp [finished, Waiting] at waiting
  simp [threads.running.mpr live]

/-- A thread that is still in `WaitForSlotFree` waits for the same slot. -/
theorem claimed_waiting {s : Handoff α} (waiting : Waiting s.producer)
    (a : DiskBufferRing.Action α)
    (still : Waiting (DiskBufferRing.step slotCount s a).1.producer) :
    (DiskBufferRing.step slotCount s a).1.claimed = s.claimed := by
  have free : Waiting (DiskBufferRing.waitForSlotFree slotCount s).1.producer →
      (DiskBufferRing.waitForSlotFree slotCount s).1.claimed = s.claimed := by
    simp only [DiskBufferRing.waitForSlotFree]
    split <;> simp [Waiting]
  have busy : s.producer ≠ .ready := by
    intro ready
    simp [ready, Waiting] at waiting
  by_cases mine : party a = .producer
  · cases a with
    | producerStep weakFails =>
      simp only [DiskBufferRing.step, DiskBufferRing.producerStep] at still ⊢
      split
      case h_2 place =>
        simp only [place] at still
        exact free still
      all_goals
        repeat' split
        all_goals rfl
    | waitForSlotFree | markSlotFull => simp [DiskBufferRing.step, busy]
    | fill visit data | finish =>
      simp only [DiskBufferRing.step]
      split <;> rfl
    | _ => simp [party] at mine
  · exact (RingParties.producer_kept mine).2

theorem Held.step (held : Held slotCount i p) (a : Action α σ)
    (waiting : Waiting (CapturePipeline.step slotCount validate p a).1.handoff.producer)
    (live : ((CapturePipeline.step slotCount validate p a).1.handoff.ring.slots i).state ≠ .aborted) :
    Held slotCount i (CapturePipeline.step slotCount validate p a).1 := by
  refine ⟨waiting, ?_, live⟩
  have ring := @ring_step _ _ _ slotCount validate p a
  generalize (CapturePipeline.step slotCount validate p a).1.handoff = t at ring waiting ⊢
  generalize (CapturePipeline.step slotCount validate p a).2 = e at ring
  cases ring with
  | none => exact held.index
  | step b => rw [claimed_waiting held.waiting b waiting, held.index]

/-- Once the processing thread has left, every interleaving in which the control thread
goes on lets the transfer thread out of its wait. -/
theorem wait_ended (positive : 0 < slotCount) (coherent : Coherent slotCount validate v es p)
    (left : p.processing = .finished) (waiting : Waiting p.handoff.producer)
    {actions : List (Action α σ)} (enough : 2 * slotCount + 5 < actions.countP isControl) :
    ∃ k,
      let q := ((machine slotCount validate).trace p (actions.take k)).2
      ¬ Waiting q.handoff.producer ∨
        (q.handoff.ring.slots (p.handoff.claimed % slotCount)).state = .aborted := by
  generalize place : p.handoff.claimed % slotCount = i
  have below : i < slotCount := place ▸ Nat.mod_lt _ positive
  by_cases live : (p.handoff.ring.slots i).state = .aborted
  · exact ⟨0, Or.inr live⟩
  let Open (p : Pipeline α ν σ) : Prop :=
    (∃ es, Coherent slotCount validate v es p) ∧ p.processing = .finished ∧ Held slotCount i p
  let Done (p : Pipeline α ν σ) : Prop :=
    ¬ Waiting p.handoff.producer ∨ (p.handoff.ring.slots i).state = .aborted
  refine @Machine.arrives _ _ _ (machine slotCount validate) Open Done (stepsLeft slotCount i)
    isControl ?_ p ⟨⟨es, coherent⟩, left, waiting, place, live⟩ actions ?_
  · rintro p a ⟨⟨es, coherent⟩, left, held⟩
    by_cases met : Done (step slotCount validate p a).1
    · exact Or.inl met
    · right
      obtain ⟨waiting, live⟩ := not_or.mp met
      have still : Open (step slotCount validate p a).1 :=
        ⟨⟨_, coherent.step positive a⟩, processing_ended a left,
          held.step a (not_not.mp waiting) live⟩
      by_cases turn : isControl a = true
      · cases a with
        | controlStep stalled =>
          have running := held.running coherent.threads
          have due : Due i p := Or.inr ⟨running, left, held.live⟩
          rcases stepsLeft_control coherent.controlled coherent.sweeping coherent.threads below
            due stalled with ⟨finished, -⟩ | aborted | nearer
          · exact absurd finished running
          · exact absurd aborted live
          · exact ⟨still, nearer.le, fun _ => nearer⟩
        | _ => simp [isControl] at turn
      · have other : isControl a = false := by simpa using turn
        exact ⟨still, stepsLeft_other coherent.controlled other, fun h => absurd h turn⟩
  · exact (stepsLeft_le below).trans_lt enough

end Transfer

/-! ## What is left to do -/

section Remaining

variable {v : ν} {es : List (Event α)} {p : Pipeline α ν σ} {i : Nat}

/-- The steps of the transfer thread and of the control thread. -/
def Remaining (_ : Pipeline α ν σ) (a : Action α σ) : Prop :=
  actor a = .producer ∨ isControl a = true

/-- Steps the transfer thread has left in the ring's operations. -/
def producerLeft (s : Handoff α) : Nat :=
  match s.producer with
  | .counting => 5
  | .measuring _ => 4
  | .peaking _ => 3
  | .raising inUse peak => if inUse ≤ peak ∨ s.ring.peakSlotsInUse = peak then 1 else 2
  | .sleeping _ => 2
  | .reloading => 1
  | .ready | .finished => 0

/-- Both threads never wait at once: while the processing thread waits for a slot, the
one the transfer thread waits for is free or aborted. -/
theorem free_of_blocked (coherent : Coherent slotCount validate v es p) (blocked : Blocked i p)
    (waiting : Waiting p.handoff.producer) :
    (p.handoff.ring.slots (p.handoff.claimed % slotCount)).state = .empty ∨
      (p.handoff.ring.slots (p.handoff.claimed % slotCount)).state = .aborted := by
  obtain ⟨orderly, -⟩ := coherent.account
  have placed := coherent.threads.placed
  simp only [blocked.waiting, Placed] at placed
  have idle : p.handoff.consumer ≠ .processing ∧ p.handoff.consumer ≠ .exited ∧
      ¬ Returned p.handoff.consumer := by
    cases place : p.handoff.consumer <;> simp_all [Awaits, Returned]
  have index := orderly.index idle.2.1
  rw [orderly.passes idle.2.1 idle.2.2, blocked.index] at index
  have empty := blocked.empty
  rw [index] at empty
  have all : (handedOver es).length ≤ (givenBack es).length := by
    by_contra behind
    rcases orderly.occupied.full _ le_rfl (by omega) with full | gone
    · rw [empty] at full; cases full
    · rw [empty] at gone; cases gone
  have room := orderly.room waiting
  have order := orderly.back_le
  have handed := orderly.handed
  have claimed := orderly.claimed
  rcases orderly.occupied.free p.handoff.claimed (by omega) (by omega) with
    free | gone | ⟨-, finished⟩
  · exact Or.inl free
  · exact Or.inr gone
  · simp [finished, Waiting] at waiting

theorem producerStep_slots (s : Handoff α) (weakFails : Bool) :
    (DiskBufferRing.producerStep slotCount weakFails s).1.ring.slots = s.ring.slots := by
  have free := (@waitForSlotFree_frame _ slotCount s).1
  simp only [DiskBufferRing.producerStep]
  split
  case h_2 => rw [free]
  all_goals
    repeat' split
    all_goals rfl

theorem producer_turns (coherent : Coherent slotCount validate v es p) (blocked : Blocked i p)
    (busy : 0 < producerLeft p.handoff) :
    producerLeft (DiskBufferRing.producerStep slotCount false p.handoff).1 <
      producerLeft p.handoff := by
  cases place : p.handoff.producer with
  | ready => simp [producerLeft, place] at busy
  | finished => simp [producerLeft, place] at busy
  | sleeping observed =>
    obtain ⟨notEmpty, notAborted⟩ := coherent.sweeping.asleep observed place
    have free := free_of_blocked coherent blocked (by simp [place, Waiting])
    have changed : (p.handoff.ring.slots (p.handoff.claimed % slotCount)).state ≠ observed := by
      rintro rfl
      rcases free with empty | gone
      · exact notEmpty empty
      · exact notAborted gone
    simp [DiskBufferRing.producerStep, place, changed, producerLeft]
  | reloading =>
    have free := free_of_blocked coherent blocked (by simp [place, Waiting])
    rcases free with empty | gone
    · simp [DiskBufferRing.producerStep, DiskBufferRing.waitForSlotFree, place, empty,
        producerLeft]
    · simp [DiskBufferRing.producerStep, DiskBufferRing.waitForSlotFree, place, gone,
        producerLeft]
  | counting => simp [DiskBufferRing.producerStep, place, producerLeft]
  | measuring filled => simp [DiskBufferRing.producerStep, place, producerLeft]
  | peaking inUse => simp [DiskBufferRing.producerStep, place, producerLeft]
  | raising inUse peak =>
    by_cases low : inUse ≤ peak
    · simp [DiskBufferRing.producerStep, place, producerLeft, low]
    · by_cases same : p.handoff.ring.peakSlotsInUse = peak
      · simp [DiskBufferRing.producerStep, place, producerLeft, low, same]
      · simp [DiskBufferRing.producerStep, place, producerLeft, low, same]

/-- `Run` can always return, and the thread then says that it has finished. -/
theorem transfer_returns (positive : 0 < slotCount)
    (coherent : Coherent slotCount validate v es p) (blocked : Blocked i p)
    (idle : producerLeft p.handoff = 0) :
    ∃ fs q, Run (machine slotCount validate) Remaining p fs q ∧ q.transfer = .finished ∧
      Blocked i q := by
  have tell : ∀ (q : Pipeline α ν σ), (∃ es, Coherent slotCount validate v es q) →
      Blocked i q → q.transfer = .returned false →
      ∃ fs r, Run (machine slotCount validate) Remaining q fs r ∧ r.transfer = .finished ∧
        Blocked i r := by
    rintro q ⟨es, coherent⟩ blocked returned
    refine ⟨_, _, Run.single (a := .transferStep) (Or.inl rfl), ?_, ?_⟩
    · simp [machine, step, transferStep, returned]
    · refine blocked.step coherent.threads _ ?_
      simp only [step, transferStep, returned, blocked.empty]
  cases place : p.transfer with
  | finished => exact ⟨[], p, .refl, place, blocked⟩
  | returned failed =>
    cases failed with
    | false => exact tell p ⟨es, coherent⟩ blocked place
    | true =>
      have next := coherent.step positive .transferStep
      have first : Run (machine slotCount validate) Remaining p _ _ :=
        Run.single (a := .transferStep) (Or.inl rfl)
      have kept : Blocked i (step slotCount validate p .transferStep).1 := by
        refine blocked.step coherent.threads _ ?_
        simp only [step, transferStep, place, blocked.empty]
      obtain ⟨fs, q, run, finished, still⟩ := tell _ ⟨_, next⟩ kept
        (by simp [step, transferStep, place])
      exact ⟨_, q, first.append run, finished, still⟩
  | running =>
    have live := coherent.threads.running.mp place
    have ready : p.handoff.producer = .ready := by
      cases at_place : p.handoff.producer with
      | ready => rfl
      | finished => exact absurd at_place live
      | raising inUse peak =>
        simp only [producerLeft, at_place] at idle
        split at idle <;> omega
      | _ => simp [producerLeft, at_place] at idle
    have next := coherent.step positive (.runReturns false)
    have first : Run (machine slotCount validate) Remaining p _ _ :=
      Run.single (a := .runReturns false) (Or.inl rfl)
    have kept : Blocked i (step slotCount validate p (.runReturns false)).1 := by
      refine blocked.step coherent.threads _ ?_
      simp [step, runReturns, place, ready, onRing, DiskBufferRing.step, blocked.empty]
    obtain ⟨fs, q, run, finished, still⟩ := tell _ ⟨_, next⟩ kept
      (by simp [step, runReturns, place, ready])
    exact ⟨_, q, first.append run, finished, still⟩

theorem transfer_ends (positive : 0 < slotCount) (coherent : Coherent slotCount validate v es p)
    (blocked : Blocked i p) :
    ∃ fs q, Run (machine slotCount validate) Remaining p fs q ∧ q.transfer = .finished ∧
      Blocked i q := by
  induction left : producerLeft p.handoff using Nat.strong_induction_on generalizing p es with
  | _ n ih =>
    rcases Nat.eq_zero_or_pos n with zero | busy
    · exact transfer_returns positive coherent blocked (left.trans zero)
    · have fewer := producer_turns coherent blocked (left.symm ▸ busy)
      have next := coherent.step positive (.producerStep false)
      have first : Run (machine slotCount validate) Remaining p _ _ :=
        Run.single (a := .producerStep false) (Or.inl rfl)
      have kept : Blocked i (step slotCount validate p (.producerStep false)).1 := by
        refine blocked.step coherent.threads _ ?_
        simp only [step, onRing, DiskBufferRing.step, producerStep_slots, blocked.empty]
      obtain ⟨fs, q, run, finished, still⟩ := ih _ (left ▸ fewer) next kept rfl
      exact ⟨_, q, first.append run, finished, still⟩

theorem coherent_after {allowed : Pipeline α ν σ → Action α σ → Prop} {fs : List (Event α)}
    {q : Pipeline α ν σ} (positive : 0 < slotCount)
    (coherent : Coherent slotCount validate v es p)
    (run : Run (machine slotCount validate) allowed p fs q) :
    ∃ es, Coherent slotCount validate v es q := by
  refine @Run.invariant _ _ _ _ _ (fun p => ∃ es, Coherent slotCount validate v es p) _ _ _ run
    ⟨es, coherent⟩ ?_
  rintro p a ⟨_, coherent⟩ -
  exact ⟨_, coherent.step positive a⟩

/-- The slot the processing thread waits for is still to be marked. -/
theorem steps_remain (positive : 0 < slotCount) (coherent : Coherent slotCount validate v es p)
    (blocked : Blocked i p) :
    ∃ fs q, Run (machine slotCount validate) Remaining p fs q ∧
      (q.handoff.ring.slots i).state ≠ .empty ∧
      (Graceful q → (q.handoff.ring.slots i).state = .full ∨
        (q.handoff.ring.slots i).state = .dumped) := by
  obtain ⟨fs, q, ends, finished, still⟩ := transfer_ends positive coherent blocked
  obtain ⟨es', coherent'⟩ := coherent_after positive coherent ends
  let turns : List (Action α σ) := List.replicate (2 * slotCount + 6) (.controlStep false)
  obtain ⟨k, marked⟩ := @slot_marked _ _ _ _ _ _ _ _ _ positive coherent' finished still turns
    (by simp [turns, List.countP_replicate, isControl])
  have all : ∀ a ∈ turns.take k, isControl a = true := by
    intro a member
    rw [List.eq_of_mem_replicate (List.mem_of_mem_take member), isControl]
  have round := Run.of_trace (machine slotCount validate) (fun _ a => isControl a) q
    (turns.take k) (Machine.passes_of_all _ all q) fun _ _ turn =>
      (Or.inr turn : Remaining _ _)
  obtain ⟨_, last⟩ := coherent_after positive coherent' round
  refine ⟨_, _, ends.append round, marked, fun graceful => ?_⟩
  have calm := last.sweeping.calm graceful.2.1 i
  generalize ((machine slotCount validate).trace q (turns.take k)).2 = r at marked calm ⊢
  cases state : (r.handoff.ring.slots i).state with
  | empty => exact absurd state marked
  | full => exact Or.inl rfl
  | dumped => exact Or.inr rfl
  | aborted => exact absurd state calm

end Remaining

/-- In every run, in whatever order the threads take their steps: when the processing
thread has left its loop with nothing failed and nobody having aborted, every slot
handed over has been processed and written, in order and once, to the sink attached
at the time, and the transfer thread has nothing more to hand over or to wait for.
And no wait is for good. While the processing thread waits for a slot, steps remain
to the other two that mark it; once the transfer is over the control thread marks it
within so many of its steps whatever happens in between; and once the processing
thread has left, it lets the transfer thread out of its wait in the same way. -/
theorem graceful_stop {primed : Nat} (positive : 0 < slotCount) (fits : primed ≤ slotCount)
    {contents : Nat → α} {v : ν} {sink : Option (SinkChange.Sink σ)} {es : List (Event α)}
    {p : Pipeline α ν σ}
    (run : Run (machine slotCount validate) Any (start primed contents v sink) es p) :
    (p.handoff.consumer = .exited → Graceful p →
      p.written.map Prod.snd = (processed validate v (handedOver es)).2 ∧
      (sink ≠ none → ∀ entry ∈ p.written, entry.1 ≠ none) ∧
      p.handoff.producer = .finished) ∧
    (∀ i, Blocked i p →
      (∃ fs q, Run (machine slotCount validate) Remaining p fs q ∧
        (q.handoff.ring.slots i).state ≠ .empty ∧
        (Graceful q → (q.handoff.ring.slots i).state = .full ∨
          (q.handoff.ring.slots i).state = .dumped)) ∧
      (p.transfer = .finished → ∀ actions : List (Action α σ),
        2 * slotCount + 5 < actions.countP isControl → ∃ k,
          ((((machine slotCount validate).trace p (actions.take k)).2.handoff.ring.slots
            i).state ≠ .empty))) ∧
    (p.processing = .finished → Waiting p.handoff.producer → ∀ actions : List (Action α σ),
      2 * slotCount + 5 < actions.countP isControl → ∃ k,
        let q := ((machine slotCount validate).trace p (actions.take k)).2
        ¬ Waiting q.handoff.producer ∨
          (q.handoff.ring.slots (p.handoff.claimed % slotCount)).state = .aborted) := by
  have coherent := coherent_run positive fits run
  refine ⟨?_, ?_, ?_⟩
  · intro exited graceful
    obtain ⟨written, finished⟩ := coherent.exited exited graceful
    exact ⟨written, fun given => (attached_run run given).2, finished⟩
  · intro i blocked
    exact ⟨steps_remain positive coherent blocked,
      fun finished actions enough => slot_marked positive coherent finished blocked enough⟩
  · exact fun left waiting actions enough => wait_ended positive coherent left waiting enough

/-- One buffer goes through, the source returns, and the control thread goes round. -/
def shortCapture : List (CapturePipeline.Action Nat Nat) :=
  [.waitForSlotFree, .fill 0 1031, .markSlotFull] ++ List.replicate 4 (.producerStep false) ++
    [.runReturns false, .transferStep] ++ List.replicate 14 (.processingStep true true true) ++
    List.replicate 5 (.controlStep false) ++ List.replicate 2 (.processingStep true true true)

def stripped (buffers : Nat) (data : Nat) : Nat × Nat × Bool := (buffers + 1, data % 1024, true)

theorem short_capture_drained :
    let out := (machine 2 stripped).trace (start 0 (fun _ => 0) 0 (some .null)) shortCapture
    out.2.handoff.consumer = .exited ∧ out.2.written = [(some .null, 0, 7)] ∧
      out.2.written.map Prod.snd = (processed stripped 0 (handedOver out.1)).2 := by
  have run := Run.of_trace (machine 2 stripped) (fun _ _ => true)
    (start 0 (fun _ => 0) 0 (some .null)) shortCapture (by decide) fun s a _ => (trivial : Any s a)
  have left : ((machine 2 stripped).trace (start 0 (fun _ => 0) 0 (some .null))
      shortCapture).2.handoff.consumer = .exited := by decide
  exact ⟨left, by decide,
    ((graceful_stop (by decide) (by decide) run).1 left ⟨rfl, rfl, rfl⟩).1⟩

end PipelineStop
