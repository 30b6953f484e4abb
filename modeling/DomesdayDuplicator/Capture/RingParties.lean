import DomesdayDuplicator.Capture.RingHandoff

/-!
# Whose step changes what

Each party of the ring keeps to its own part of the state and to the slots. An abort
reaches every slot behind its sweep, and without one no slot is ever aborted.
-/

namespace RingParties

open DiskBufferRing RingHandoff

universe u

variable {α : Type u} {slotCount : Nat}

inductive Party where
  | producer
  | consumer
  | controller
  deriving DecidableEq

def party : Action α → Party
  | .waitForSlotFree | .fill _ _ | .markSlotFull | .producerStep _ | .finish => .producer
  | .waitForSlotFull | .rewrite _ | .markSlotFree _ | .consumerStep | .leave => .consumer
  | .requestAbort | .abort | .abortNext _ | .markEmptySlotsDumped | .dumpNext => .controller

/-! ## The parts of the state -/

section Frames

variable (s : Handoff α)

theorem waitForSlotFree_frame :
    (waitForSlotFree slotCount s).1.ring = s.ring ∧
    (waitForSlotFree slotCount s).1.consumer = s.consumer ∧
    (waitForSlotFree slotCount s).1.slotIndex = s.slotIndex ∧
    (waitForSlotFree slotCount s).1.aborts = s.aborts ∧
    (waitForSlotFree slotCount s).1.dump = s.dump ∧
    (waitForSlotFree slotCount s).1.pipelineAbortRequested = s.pipelineAbortRequested := by
  simp only [waitForSlotFree]
  split <;> simp

theorem waitForSlotFull_frame :
    (waitForSlotFull s).1.ring = s.ring ∧
    (waitForSlotFull s).1.producer = s.producer ∧
    (waitForSlotFull s).1.claimed = s.claimed ∧
    (waitForSlotFull s).1.slotIndex = s.slotIndex ∧
    (waitForSlotFull s).1.aborts = s.aborts ∧
    (waitForSlotFull s).1.dump = s.dump ∧
    (waitForSlotFull s).1.pipelineAbortRequested = s.pipelineAbortRequested := by
  simp only [waitForSlotFull]
  split <;> simp

variable {s} {a : Action α}

theorem producer_kept (other : party a ≠ .producer) :
    (step slotCount s a).1.producer = s.producer ∧
    (step slotCount s a).1.claimed = s.claimed := by
  have full := waitForSlotFull_frame s
  cases a with
  | waitForSlotFull =>
    simp only [step]
    split
    · exact ⟨full.2.1, full.2.2.1⟩
    · simp
  | markSlotFree more =>
    simp only [step, markSlotFree]
    split
    · split <;> simp
    · simp
  | consumerStep =>
    simp only [step, consumerStep]
    split
    case h_2 => exact ⟨full.2.1, full.2.2.1⟩
    case h_3 more _ => cases more <;> simp [nextPass]
    case h_4 more _ => cases more <;> simp [nextPass]
    all_goals
      repeat' split
      all_goals simp
  | rewrite | leave | markEmptySlotsDumped =>
    simp only [step]
    split <;> simp
  | abortNext | dumpNext =>
    simp only [step, abortNext, dumpNext]
    repeat' split
    all_goals simp
  | requestAbort | abort => simp [step]
  | _ => simp [party] at other

theorem consumer_kept (other : party a ≠ .consumer) :
    (step slotCount s a).1.consumer = s.consumer ∧
    (step slotCount s a).1.slotIndex = s.slotIndex ∧
    ∀ index data, (step slotCount s a).2 ≠ .taken index data := by
  have free := @waitForSlotFree_frame _ slotCount s
  have quiet : ∀ index data, (waitForSlotFree slotCount s).2 ≠ .taken index data := by
    simp only [waitForSlotFree]
    split <;> simp
  cases a with
  | waitForSlotFree =>
    simp only [step]
    split
    · exact ⟨free.2.1, free.2.2.1, quiet⟩
    · simp
  | markSlotFull =>
    simp only [step, markSlotFull]
    split
    · split
      · simp
      · split <;> simp
    · simp
  | producerStep weakFails =>
    simp only [step, producerStep]
    split
    case h_2 => exact ⟨free.2.1, free.2.2.1, quiet⟩
    all_goals
      repeat' split
      all_goals simp
  | fill | finish | markEmptySlotsDumped =>
    simp only [step]
    split <;> simp
  | abortNext | dumpNext =>
    simp only [step, abortNext, dumpNext]
    repeat' split
    all_goals simp
  | requestAbort | abort => simp [step]
  | _ => simp [party] at other

theorem controller_kept (other : party a ≠ .controller) :
    (step slotCount s a).1.aborts = s.aborts ∧
    (step slotCount s a).1.dump = s.dump ∧
    (step slotCount s a).1.pipelineAbortRequested = s.pipelineAbortRequested := by
  have free := (@waitForSlotFree_frame _ slotCount s).2.2.2
  have full := (waitForSlotFull_frame s).2.2.2.2
  cases a with
  | waitForSlotFree =>
    simp only [step]
    split
    · exact free
    · simp
  | markSlotFull =>
    simp only [step, markSlotFull]
    split
    · split <;> simp
    · simp
  | producerStep weakFails =>
    simp only [step, producerStep]
    split
    case h_2 => exact free
    all_goals
      repeat' split
      all_goals simp
  | waitForSlotFull =>
    simp only [step]
    split
    · exact full
    · simp
  | markSlotFree more =>
    simp only [step, markSlotFree]
    split
    · split <;> simp
    · simp
  | consumerStep =>
    simp only [step, consumerStep]
    split
    case h_2 => exact full
    case h_3 more _ => cases more <;> simp [nextPass]
    case h_4 more _ => cases more <;> simp [nextPass]
    all_goals
      repeat' split
      all_goals simp
  | fill | finish | rewrite | leave =>
    simp only [step]
    split <;> simp
  | _ => simp [party] at other

/-- Only `finish` ends the transfer thread's part. -/
theorem finished_iff (other : a ≠ .finish) :
    (step slotCount s a).1.producer = .finished ↔ s.producer = .finished := by
  have free : s.producer ≠ .finished → (waitForSlotFree slotCount s).1.producer ≠ .finished := by
    intro live
    simp only [waitForSlotFree]
    split <;> simp
  by_cases mine : party a = .producer
  · cases a with
    | waitForSlotFree =>
      simp only [step]
      split
      · rename_i ready
        exact ⟨fun h => absurd h (free (by simp [ready.1])), fun h => by simp [h] at ready⟩
      · rfl
    | fill visit data =>
      simp only [step]
      split <;> rfl
    | markSlotFull =>
      simp only [step, markSlotFull]
      split
      · rename_i ready
        split
        · simp [ready.1]
        · rfl
      · rfl
    | producerStep weakFails =>
      simp only [step, producerStep]
      split
      case h_2 place => exact ⟨fun h => absurd h (free (by simp [place])), fun h => by simp [place] at h⟩
      all_goals
        repeat' split
        all_goals simp [*]
    | finish => exact absurd rfl other
    | _ => simp [party] at mine
  · rw [(producer_kept mine).1]

end Frames

/-! ## Aborted slots -/

section Aborts

variable {s : Handoff α}

theorem compareExchange_aborted {r : RingState α} {index i : Nat} {expected desired : SlotState}
    (live : desired ≠ .aborted)
    (gone : ((r.compareExchange index expected desired).1.slots i).state = .aborted) :
    (r.slots i).state = .aborted := by
  rw [RingState.compareExchange_state] at gone
  split at gone
  · exact absurd gone live
  · exact gone

/-- Only the sweep of an abort aborts a slot. -/
theorem aborted_of_step {a : Action α} (other : ∀ sweep, a ≠ .abortNext sweep) {i : Nat}
    (gone : ((step slotCount s a).1.ring.slots i).state = .aborted) :
    (s.ring.slots i).state = .aborted := by
  have free := (@waitForSlotFree_frame _ slotCount s).1
  have full := (waitForSlotFull_frame s).1
  cases a with
  | waitForSlotFree =>
    simp only [step] at gone
    split at gone
    · rwa [free] at gone
    · exact gone
  | markSlotFull =>
    simp only [step, markSlotFull] at gone
    split at gone
    · split at gone <;> rename_i exchanged
      all_goals
        have ring := congrArg Prod.fst exchanged
        simp only at ring gone
        rw [← ring] at gone
        exact compareExchange_aborted (by simp) gone
    · exact gone
  | producerStep weakFails =>
    simp only [step, producerStep] at gone
    split at gone
    case h_2 => rwa [free] at gone
    all_goals
      repeat' split at gone
      all_goals exact gone
  | waitForSlotFull =>
    simp only [step] at gone
    split at gone
    · rwa [full] at gone
    · exact gone
  | fill visit data | rewrite data =>
    simp only [step] at gone
    split at gone
    · simpa using gone
    · exact gone
  | markSlotFree more =>
    simp only [step, markSlotFree] at gone
    split at gone
    · split at gone <;> rename_i exchanged
      all_goals
        have ring := congrArg Prod.fst exchanged
        simp only at ring gone
        rw [← ring] at gone
        exact compareExchange_aborted (by simp) gone
    · exact gone
  | consumerStep =>
    simp only [step, consumerStep] at gone
    split at gone
    case h_2 => rwa [full] at gone
    case h_3 more _ => cases more <;> exact gone
    case h_4 more _ => cases more <;> exact compareExchange_aborted (by simp) gone
    all_goals
      repeat' split at gone
      all_goals exact gone
  | finish | leave | markEmptySlotsDumped =>
    simp only [step] at gone
    split at gone <;> exact gone
  | requestAbort | abort => exact gone
  | abortNext sweep => exact absurd rfl (other sweep)
  | dumpNext =>
    simp only [step, dumpNext] at gone
    repeat' split at gone
    · exact compareExchange_aborted (by simp) gone
    all_goals exact gone

/-- Behind a sweep every slot is aborted; without one, none; and the transfer thread
sleeps on a value that an abort changes. -/
structure Sweeping (s : Handoff α) : Prop where
  swept : ∀ (sweep next : Nat), s.aborts[sweep]? = some next → ∀ i, i < next →
    (s.ring.slots i).state = .aborted
  calm : s.aborts = [] → ∀ i, (s.ring.slots i).state ≠ .aborted
  asleep : ∀ observed, s.producer = .sleeping observed →
    observed ≠ .empty ∧ observed ≠ .aborted

theorem sweeping_start (primed : Nat) (contents : Nat → α) : Sweeping (start primed contents) := by
  constructor
  · simp [start]
  · simp [start]
  · simp [start]

theorem waitForSlotFree_asleep (observed : SlotState)
    (asleep : (waitForSlotFree slotCount s).1.producer = .sleeping observed) :
    observed ≠ .empty ∧ observed ≠ .aborted := by
  simp only [waitForSlotFree] at asleep
  cases seen : (s.ring.slots (s.claimed % slotCount)).state <;> simp [seen] at asleep
  all_goals simp [← asleep]

theorem asleep_step (h : Sweeping s) (a : Action α) (observed : SlotState)
    (asleep : (step slotCount s a).1.producer = .sleeping observed) :
    observed ≠ .empty ∧ observed ≠ .aborted := by
  by_cases mine : party a = .producer
  · cases a with
    | waitForSlotFree =>
      simp only [step] at asleep
      split at asleep
      · exact waitForSlotFree_asleep observed asleep
      · exact h.asleep observed asleep
    | markSlotFull =>
      simp only [step, markSlotFull] at asleep
      split at asleep
      · split at asleep
        · simp at asleep
        · exact h.asleep observed asleep
      · exact h.asleep observed asleep
    | producerStep weakFails =>
      simp only [step, producerStep] at asleep
      split at asleep
      case h_2 => exact waitForSlotFree_asleep observed asleep
      all_goals
        repeat' split at asleep
        all_goals first
          | exact h.asleep observed asleep
          | simp at asleep
    | fill visit data | finish =>
      simp only [step] at asleep
      split at asleep
      · first
          | exact h.asleep observed asleep
          | simp at asleep
      · exact h.asleep observed asleep
    | _ => simp [party] at mine
  · exact h.asleep observed ((producer_kept mine).1 ▸ asleep)

/-- Only an abort and its own sweep touch the list of sweeps. -/
theorem aborts_kept {a : Action α} (fresh : a ≠ .abort) (other : ∀ sweep, a ≠ .abortNext sweep) :
    (step slotCount s a).1.aborts = s.aborts := by
  by_cases mine : party a = .controller
  · cases a with
    | requestAbort => rfl
    | abort => exact absurd rfl fresh
    | abortNext sweep => exact absurd rfl (other sweep)
    | markEmptySlotsDumped =>
      simp only [DiskBufferRing.step]
      split <;> rfl
    | dumpNext =>
      simp only [DiskBufferRing.step, dumpNext]
      repeat' split
      all_goals rfl
    | _ => simp [party] at mine
  · exact (controller_kept mine).1

/-- The sweep that goes on by a slot has aborted it. -/
theorem Sweeping.abortNext (h : Sweeping s) (own : Nat) {sweep next i : Nat}
    (running : (step slotCount s (.abortNext own)).1.aborts[sweep]? = some next) (below : i < next) :
    ((step slotCount s (.abortNext own)).1.ring.slots i).state = .aborted := by
  simp only [DiskBufferRing.step, DiskBufferRing.abortNext] at running ⊢
  cases here : s.aborts[own]? with
  | none =>
    simp only [here] at running ⊢
    exact h.swept sweep next running i below
  | some index =>
    simp only [here] at running ⊢
    split at running
    · rename_i inside
      simp only [if_pos inside, RingState.store_state]
      split
      · rfl
      · rename_i elsewhere
        simp only [List.getElem?_set] at running
        split at running
        · rename_i same
          subst same
          split at running
          · obtain rfl : index + 1 = next := by simpa using running
            exact h.swept own index here i (by omega)
          · simp at running
        · exact h.swept sweep next running i below
    · rename_i outside
      simp only [if_neg outside]
      exact h.swept sweep next running i below

theorem Sweeping.step (h : Sweeping s) (a : Action α) : Sweeping (step slotCount s a).1 := by
  have lasting := (@Lasting.step _ slotCount s a).2
  by_cases sweeping : ∃ sweep, a = .abortNext sweep
  · obtain ⟨own, rfl⟩ := sweeping
    refine ⟨?_, ?_, fun observed => asleep_step h _ observed⟩
    · exact fun sweep next running i below => h.abortNext own running below
    · intro none i gone
      simp only [DiskBufferRing.step, DiskBufferRing.abortNext] at none gone
      cases here : s.aborts[own]? with
      | none =>
        simp only [here] at none gone
        exact h.calm none i gone
      | some index =>
        have empty : s.aborts ≠ [] := by
          rintro eq
          simp [eq] at here
        simp only [here] at none
        split at none
        · exact absurd (by simpa using none) empty
        · exact absurd none empty
  · simp only [not_exists] at sweeping
    by_cases fresh : a = .abort
    · subst fresh
      refine ⟨?_, ?_, fun observed => asleep_step h _ observed⟩
      · intro sweep next running i below
        simp only [DiskBufferRing.step, List.getElem?_append] at running
        split at running
        · exact h.swept sweep next running i below
        · cases place : sweep - s.aborts.length with
          | zero =>
            obtain rfl : 0 = next := by simpa [place] using running
            exact absurd below (Nat.not_lt_zero i)
          | succ n => simp [place] at running
      · intro none
        simp [DiskBufferRing.step] at none
    · have kept := @aborts_kept _ slotCount s a fresh sweeping
      refine ⟨?_, ?_, fun observed => asleep_step h a observed⟩
      · intro sweep next running i below
        exact lasting i (h.swept sweep next (kept ▸ running) i below)
      · intro none i gone
        exact h.calm (kept ▸ none) i (aborted_of_step sweeping gone)

end Aborts

/-! ## The processing thread in the ring -/

section Passes

variable {s : Handoff α}

/-- Inside `WaitForSlotFull`, or about to be. -/
def Awaits : Consumer → Prop
  | .looping | .sleeping | .reloading => True
  | _ => False

/-- One access of `WaitForSlotFull`: it goes on waiting, or takes a full slot, or finds
a slot that holds nothing. -/
inductive Awaited (s : Handoff α) : Handoff α × Event α → Prop
  | waits (c : Consumer) (still : Awaits c) (awake : c ≠ .looping) :
      Awaited s ({ s with consumer := c }, .quiet)
  | takes (full : (s.ring.slots s.slotIndex).state = .full) :
      Awaited s ({ s with consumer := .processing },
        .taken s.slotIndex (s.ring.slots s.slotIndex).data)
  | leaves (nothing : (s.ring.slots s.slotIndex).state = .dumped ∨
        (s.ring.slots s.slotIndex).state = .aborted) :
      Awaited s ({ s with consumer := .exited }, .quiet)

theorem waitForSlotFull_awaited : Awaited s (waitForSlotFull s) := by
  simp only [waitForSlotFull]
  cases seen : (s.ring.slots s.slotIndex).state with
  | empty => exact .waits .sleeping trivial (by simp)
  | full => exact .takes seen
  | dumped => exact .leaves (Or.inl seen)
  | aborted => exact .leaves (Or.inr seen)

theorem await_cases (waiting : Awaits s.consumer) :
    Awaited s (step slotCount s
      (if s.consumer = .looping then .waitForSlotFull else .consumerStep)) := by
  cases place : s.consumer with
  | looping =>
    simp only [if_true, step, place]
    exact waitForSlotFull_awaited
  | sleeping =>
    simp only [reduceCtorEq, if_false, step, consumerStep, place]
    split
    · have same : s = { s with consumer := .sleeping } := by rw [← place]
      rw [same]
      exact .waits .sleeping trivial (by simp)
    · exact .waits .reloading trivial (by simp)
  | reloading =>
    simp only [reduceCtorEq, if_false, step, consumerStep, place]
    exact waitForSlotFull_awaited
  | processing => simp [place, Awaits] at waiting
  | counting more => simp [place, Awaits] at waiting
  | retrying more => simp [place, Awaits] at waiting
  | exited => simp [place, Awaits] at waiting

/-- In `MarkSlotFree`, or about to be. -/
def Frees (more : Bool) : Consumer → Prop
  | .processing => True
  | .counting m | .retrying m => m = more
  | _ => False

theorem free_cases {more : Bool} (freeing : Frees more s.consumer) {next : Handoff α × Event α}
    (outcome : step slotCount s
      (if s.consumer = .processing then .markSlotFree more else .consumerStep) = next) :
    next.1.consumer ≠ .processing ∧ Frees more next.1.consumer ∨
      next.1.consumer = (if more then .looping else .exited) := by
  subst outcome
  cases place : s.consumer with
  | processing =>
    simp only [if_true, step, place, markSlotFree]
    split
    · exact Or.inl ⟨by simp, rfl⟩
    · exact Or.inl ⟨by simp, rfl⟩
  | counting m =>
    obtain rfl : m = more := by simpa [place, Frees] using freeing
    simp only [reduceCtorEq, if_false, step, consumerStep, place]
    cases m <;> exact Or.inr rfl
  | retrying m =>
    obtain rfl : m = more := by simpa [place, Frees] using freeing
    simp only [reduceCtorEq, if_false, step, consumerStep, place]
    cases m <;> exact Or.inr rfl
  | looping => simp [place, Frees] at freeing
  | sleeping => simp [place, Frees] at freeing
  | reloading => simp [place, Frees] at freeing
  | exited => simp [place, Frees] at freeing

theorem free_quiet {more : Bool} (freeing : Frees more s.consumer) (index : Nat) (data : α) :
    (step slotCount s
      (if s.consumer = .processing then .markSlotFree more else .consumerStep)).2 ≠
        .taken index data := by
  cases place : s.consumer with
  | processing =>
    simp only [if_true, step, place, markSlotFree]
    split <;> simp
  | counting m => simp [step, consumerStep, place]
  | retrying m => simp [step, consumerStep, place]
  | looping => simp [place, Frees] at freeing
  | sleeping => simp [place, Frees] at freeing
  | reloading => simp [place, Frees] at freeing
  | exited => simp [place, Frees] at freeing

end Passes

end RingParties
