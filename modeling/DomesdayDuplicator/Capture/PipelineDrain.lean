import DomesdayDuplicator.Capture.PipelineThreads

/-!
# A graceful stop drains the ring

Without a failure and without an abort the processing thread leaves its loop only at
a dumped slot. A slot is dumped only when the transfer thread is done, and the first
slot that holds nothing lies behind the last one handed over.
-/

namespace PipelineDrain

open Execution RingHandoff CapturePipeline PipelineThreads
open RingParties hiding producer_kept consumer_kept controller_kept
open DiskBufferRing (Handoff Event)

universe u v w

variable {α : Type u} {ν : Type v} {σ : Type w} {slotCount : Nat}

/-- What the validator makes of the slots in turn, and its state after them. -/
def processed (validate : Validate α ν) (v : ν) (slots : List (Nat × α)) : ν × List (Nat × α) :=
  slots.foldl
    (fun out slot =>
      ((validate out.1 slot.2).1, out.2 ++ [(slot.1, (validate out.1 slot.2).2.1)]))
    (v, [])

theorem processed_append (validate : Validate α ν) (v : ν) (slots : List (Nat × α))
    (slot : Nat × α) : processed validate v (slots ++ [slot]) =
      ((validate (processed validate v slots).1 slot.2).1,
        (processed validate v slots).2 ++
          [(slot.1, (validate (processed validate v slots).1 slot.2).2.1)]) := by
  simp [processed, List.foldl_append]

/-- Nothing has failed and nobody has aborted. -/
def Graceful (p : Pipeline α ν σ) : Prop :=
  p.latched = false ∧ p.handoff.aborts = [] ∧ p.handoff.pipelineAbortRequested = false

/-! ## The ring -/

section Ring

variable {s : Handoff α}

/-- Nobody else writes to the slot the processing thread holds. -/
theorem data_kept {offered taken : List (Nat × α)} {back : Nat}
    (h : Orderly slotCount offered taken back s) (holds : s.consumer = .processing)
    {a : DiskBufferRing.Action α} (other : party a ≠ .consumer) :
    ((DiskBufferRing.step slotCount s a).1.ring.slots s.slotIndex).data =
      (s.ring.slots s.slotIndex).data := by
  have free := (@waitForSlotFree_frame _ slotCount s).1
  cases a with
  | waitForSlotFree =>
    simp only [DiskBufferRing.step]
    split
    · rw [free]
    · rfl
  | fill visit data =>
    simp only [DiskBufferRing.step]
    split
    · rename_i mine
      have elsewhere : s.slotIndex ≠ visit % slotCount := by
        intro same
        exact h.disjoint s.slotIndex ⟨⟨visit, mine.1, mine.2, same⟩, holds, rfl⟩
      simp [DiskBufferRing.RingState.write_data, elsewhere]
    · rfl
  | markSlotFull =>
    simp only [DiskBufferRing.step, DiskBufferRing.markSlotFull]
    split
    · split <;> rename_i exchanged
      all_goals
        have ring := congrArg Prod.fst exchanged
        simp only at ring
        simp [← ring]
    · rfl
  | producerStep weakFails =>
    simp only [DiskBufferRing.step, DiskBufferRing.producerStep]
    split
    case h_2 => rw [free]
    all_goals
      repeat' split
      all_goals rfl
  | finish | markEmptySlotsDumped =>
    simp only [DiskBufferRing.step]
    split <;> rfl
  | abortNext | dumpNext =>
    simp only [DiskBufferRing.step, DiskBufferRing.abortNext, DiskBufferRing.dumpNext]
    repeat' split
    all_goals simp
  | requestAbort | abort => rfl
  | _ => simp [party] at other

theorem ready_of_handedOver {a : DiskBufferRing.Action α} {index : Nat} {data : α}
    (handed : (DiskBufferRing.step slotCount s a).2 = .handedOver index data) :
    s.producer = .ready := by
  have free : (DiskBufferRing.waitForSlotFree slotCount s).2 ≠ .handedOver index data := by
    simp only [DiskBufferRing.waitForSlotFree]
    split <;> simp
  have full : (DiskBufferRing.waitForSlotFull s).2 ≠ .handedOver index data := by
    simp only [DiskBufferRing.waitForSlotFull]
    split <;> simp
  cases a with
  | markSlotFull =>
    simp only [DiskBufferRing.step] at handed
    split at handed
    · rename_i ready
      exact ready.1
    · simp at handed
  | waitForSlotFree =>
    simp only [DiskBufferRing.step] at handed
    split at handed
    · exact absurd handed free
    · simp at handed
  | producerStep weakFails =>
    simp only [DiskBufferRing.step, DiskBufferRing.producerStep] at handed
    split at handed
    case h_2 => exact absurd handed free
    all_goals
      repeat' split at handed
      all_goals simp at handed
  | waitForSlotFull =>
    simp only [DiskBufferRing.step] at handed
    split at handed
    · exact absurd handed full
    · simp at handed
  | consumerStep =>
    simp only [DiskBufferRing.step, DiskBufferRing.consumerStep] at handed
    split at handed
    case h_2 => exact absurd handed full
    all_goals
      repeat' split at handed
      all_goals simp at handed
  | markSlotFree more =>
    simp only [DiskBufferRing.step, DiskBufferRing.markSlotFree] at handed
    split at handed
    · split at handed <;> simp at handed
    · simp at handed
  | fill visit data =>
    simp only [DiskBufferRing.step] at handed
    split at handed <;> simp at handed
  | _ => simp [DiskBufferRing.step] at handed

/-- Aborts are not forgotten. -/
theorem aborted_kept (s : Handoff α) (a : DiskBufferRing.Action α) :
    ((DiskBufferRing.step slotCount s a).1.aborts = [] → s.aborts = []) ∧
    (s.pipelineAbortRequested = true →
      (DiskBufferRing.step slotCount s a).1.pipelineAbortRequested = true) := by
  by_cases mine : party a = .controller
  · cases a with
    | requestAbort => exact ⟨fun h => h, fun _ => rfl⟩
    | abort => simp [DiskBufferRing.step]
    | abortNext sweep =>
      simp only [DiskBufferRing.step, DiskBufferRing.abortNext]
      repeat' split
      all_goals simp
    | markEmptySlotsDumped =>
      simp only [DiskBufferRing.step]
      split <;> exact ⟨fun h => h, fun h => h⟩
    | dumpNext =>
      simp only [DiskBufferRing.step, DiskBufferRing.dumpNext]
      repeat' split
      all_goals exact ⟨fun h => h, fun h => h⟩
    | _ => simp [party] at mine
  · obtain ⟨aborts, -, flag⟩ := @RingParties.controller_kept _ slotCount s a mine
    exact ⟨fun h => aborts ▸ h, fun h => by rw [flag, h]⟩

/-- At a slot that was dumped the account is closed: everything is taken, and nothing
more is handed over. -/
theorem drained_of_dumped {offered taken : List (Nat × α)} {back : Nat} (positive : 0 < slotCount)
    (h : Orderly slotCount offered taken back s) (waiting : Awaits s.consumer)
    (dumped : (s.ring.slots s.slotIndex).state = .dumped) :
    taken = offered ∧ s.producer = .finished := by
  have idle : s.consumer ≠ .processing ∧ s.consumer ≠ .exited ∧ ¬ Returned s.consumer := by
    cases place : s.consumer <;> simp_all [Awaits, Returned]
  have place : s.slotIndex = back % slotCount := by
    rw [h.index idle.2.1, h.passes idle.2.1 idle.2.2]
  have length : taken.length = back := h.settled idle.1
  rw [place] at dumped
  have all : offered.length ≤ back := by
    by_contra behind
    rcases h.occupied.full back le_rfl (by omega) with full | gone
    · rw [dumped] at full; cases full
    · rw [dumped] at gone; cases gone
  refine ⟨h.inOrder.eq_of_length (Nat.le_antisymm h.inOrder.length_le (by omega)), ?_⟩
  rcases h.occupied.free back all (by omega) with empty | gone | ⟨_, finished⟩
  · rw [dumped] at empty; cases empty
  · rw [dumped] at gone; cases gone
  · exact finished

end Ring

/-! ## What has been written -/

section Written

variable {validate : Validate α ν} {v : ν} {es : List (Event α)} {p : Pipeline α ν σ}

/-- All that was taken has been processed and written, up to the buffer in hand. -/
def Written (validate : Validate α ν) (v : ν) (slots : List (Nat × α)) (p : Pipeline α ν σ) :
    Prop :=
  let data := (p.handoff.ring.slots p.handoff.slotIndex).data
  match p.processing with
  | .validating => ∃ before, slots = before ++ [(p.handoff.slotIndex, data)] ∧
      p.validator = (processed validate v before).1 ∧
      p.written.map Prod.snd = (processed validate v before).2
  | .verifying | .writing => p.validator = (processed validate v slots).1 ∧
      p.written.map Prod.snd ++ [(p.handoff.slotIndex, data)] = (processed validate v slots).2
  | _ => p.validator = (processed validate v slots).1 ∧
      p.written.map Prod.snd = (processed validate v slots).2

theorem taken_append_quiet {e : Event α} (quiet : ∀ index data, e ≠ .taken index data) :
    taken (es ++ [e]) = taken es := by
  cases e with
  | taken index data => exact absurd rfl (quiet index data)
  | _ => simp [taken]

/-- The other threads leave what has been written, and the buffer in hand. -/
theorem Written.other (h : Written validate v (taken es) p)
    (account : Account slotCount es p.handoff) (threads : Threads p) {a : Action α σ}
    (other : actor a ≠ .consumer) :
    Written validate v (taken (es ++ [(step slotCount validate p a).2]))
      (step slotCount validate p a).1 := by
  obtain ⟨-, index, quiet⟩ := @consumer_kept _ _ _ slotCount validate p a other
  obtain ⟨processing, validator, written⟩ := @processing_kept _ _ _ slotCount validate p a other
  have data : p.handoff.consumer = .processing →
      ((step slotCount validate p a).1.handoff.ring.slots p.handoff.slotIndex).data =
        (p.handoff.ring.slots p.handoff.slotIndex).data := by
    intro holds
    have ring := @ring_step _ _ _ slotCount validate p a
    generalize (step slotCount validate p a).1.handoff = t at ring
    generalize (step slotCount validate p a).2 = e at ring
    cases ring with
    | none => rfl
    | step b mine => exact data_kept account.1 holds (mine ▸ other)
  have placed := threads.placed
  rw [taken_append_quiet quiet]
  simp only [Written, processing, validator, written, index]
  simp only [Written] at h
  cases place : p.processing with
  | validating | verifying | writing =>
    simp only [place, Placed] at placed h ⊢
    rw [data placed]
    exact h
  | _ => simpa only [place] using h

theorem Written.processing (h : Written validate v (taken es) p) (threads : Threads p)
    (finishes verifies writes : Bool)
    (calm : (processingStep slotCount validate finishes verifies writes p).1.latched = false) :
    Written validate v
      (taken (es ++ [(processingStep slotCount validate finishes verifies writes p).2]))
      (processingStep slotCount validate finishes verifies writes p).1 := by
  have placed := threads.placed
  cases place : p.processing with
  | checking =>
    simp only [Written, place, Placed] at h placed
    simp only [processingStep, place] at calm ⊢
    split
    · have quiet : ∀ index data,
          (onRing slotCount .leave p).2 ≠ .taken index data := by simp [onRing, DiskBufferRing.step]
      rw [taken_append_quiet quiet]
      exact h
    · rw [taken_append_quiet (by simp)]
      exact h
  | changing =>
    simp only [Written, place] at h
    simp only [processingStep, place] at calm ⊢
    rw [taken_append_quiet (by simp)]
    split <;> exact h
  | waiting =>
    simp only [Written, place, Placed] at h placed
    simp only [processingStep, place, onRing] at calm ⊢
    have cases := @await_cases _ slotCount p.handoff placed
    generalize DiskBufferRing.step slotCount p.handoff _ = next at cases
    cases cases with
    | waits c still awake =>
      rw [taken_append_quiet (by simp)]
      cases c <;> simp_all [Awaits, awaited, Written]
    | takes full =>
      simp only [awaited, Written]
      exact ⟨taken es, by simp [taken], h.1, h.2⟩
    | leaves nothing =>
      rw [taken_append_quiet (by simp)]
      exact h
  | validating =>
    simp only [Written, place, Placed] at h placed
    obtain ⟨before, slots, validator, written⟩ := h
    simp only [processingStep, place] at calm ⊢
    split
    · simp only [onRing, DiskBufferRing.step, placed, if_true]
      rw [taken_append_quiet (by simp)]
      simp only [Written, slots, processed_append, validator, written,
        DiskBufferRing.RingState.write_data, if_true, and_self]
    · rename_i fails
      simp only [if_neg fails] at calm
      simp at calm
  | verifying =>
    simp only [Written, place] at h
    simp only [processingStep, place] at calm ⊢
    rw [taken_append_quiet (by split <;> simp)]
    split
    · exact h
    · rename_i fails
      simp only [if_neg fails] at calm
      simp at calm
  | writing =>
    simp only [Written, place] at h
    simp only [processingStep, place] at calm ⊢
    rw [taken_append_quiet (by split <;> simp)]
    split
    · simpa only [Written, List.map_append, List.map_singleton] using h
    · rename_i fails
      rw [if_neg fails] at calm
      simp at calm
  | freeing more =>
    simp only [Written, place, Placed] at h placed
    simp only [processingStep, place, onRing] at calm ⊢
    rw [taken_append_quiet (free_quiet placed)]
    generalize (DiskBufferRing.step slotCount p.handoff _).1 = next
    cases c : next.consumer <;> simpa only [Written, freed, c] using h
  | leaving =>
    simp only [Written, place] at h
    simp only [processingStep, place]
    rw [taken_append_quiet (by simp)]
    exact h
  | finished =>
    simp only [Written, place] at h
    simp only [processingStep, place]
    rw [taken_append_quiet (by simp)]
    simpa only [Written, place] using h

end Written

/-! ## Every run -/

section Runs

variable {validate : Validate α ν} {v : ν} {es : List (Event α)} {p : Pipeline α ν σ}

structure Coherent (slotCount : Nat) (validate : Validate α ν) (v : ν) (es : List (Event α))
    (p : Pipeline α ν σ) : Prop where
  account : Account slotCount es p.handoff
  sweeping : Sweeping p.handoff
  threads : Threads p
  controlled : Controlled slotCount p
  written : p.latched = false → Written validate v (taken es) p
  drained : p.handoff.consumer = .exited → Graceful p →
    taken es = handedOver es ∧ p.handoff.producer = .finished

theorem coherent_start {primed : Nat} (fits : primed ≤ slotCount) (contents : Nat → α)
    (sink : Option (SinkChange.Sink σ)) :
    Coherent slotCount validate v [] (start primed contents v sink) := by
  constructor
  · exact ⟨Orderly.initial fits contents, by simp⟩
  · exact sweeping_start primed contents
  · exact threads_start primed contents v sink
  · exact controlled_start primed contents v sink
  · exact fun _ => ⟨rfl, rfl⟩
  · simp [start, DiskBufferRing.start]

/-- A run is graceful as long as it has been. -/
theorem Graceful.before {a : Action α σ} (h : Graceful (step slotCount validate p a).1) :
    Graceful p := by
  obtain ⟨calm, none, flag⟩ := h
  refine ⟨?_, ?_, ?_⟩
  · by_contra latched
    simp [latched_kept (by simpa using latched)] at calm
  all_goals
    have ring := @ring_step _ _ _ slotCount validate p a
    generalize (step slotCount validate p a).1.handoff = t at ring none flag
    generalize (step slotCount validate p a).2 = e at ring
    cases ring with
    | none => assumption
    | step b =>
      obtain ⟨kept, set⟩ := @aborted_kept _ slotCount p.handoff b
      first
        | exact kept none
        | exact Bool.eq_false_iff.mpr fun up => by simp [set up] at flag

theorem handedOver_append_quiet {e : Event α} (quiet : ∀ index data, e ≠ .handedOver index data) :
    handedOver (es ++ [e]) = handedOver es := by
  cases e with
  | handedOver index data => exact absurd rfl (quiet index data)
  | _ => simp [handedOver]

/-- With the transfer thread done nothing more is handed over. -/
theorem nothing_handed (a : Action α σ) (finished : p.handoff.producer = .finished) :
    handedOver (es ++ [(step slotCount validate p a).2]) = handedOver es := by
  apply handedOver_append_quiet
  intro index data handed
  have ring := @ring_step _ _ _ slotCount validate p a
  generalize (step slotCount validate p a).1.handoff = t at ring
  rw [handed] at ring
  generalize event : Event.handedOver index data = e at ring
  cases ring with
  | none => cases event
  | step b =>
    have ready := ready_of_handedOver event.symm
    simp [ready] at finished

theorem finished_kept (a : Action α σ) (finished : p.handoff.producer = .finished) :
    (step slotCount validate p a).1.handoff.producer = .finished := by
  have ring := @ring_step _ _ _ slotCount validate p a
  generalize (step slotCount validate p a).1.handoff = t at ring ⊢
  generalize (step slotCount validate p a).2 = e at ring
  cases ring with
  | none => exact finished
  | step b =>
    by_cases ends : b = .finish
    · subst ends
      simp [DiskBufferRing.step, finished]
    · exact (finished_iff ends).mpr finished

/-- A thread that has left its loop takes nothing more. -/
theorem nothing_taken (threads : Threads p) (a : Action α σ)
    (exited : p.handoff.consumer = .exited) :
    taken (es ++ [(step slotCount validate p a).2]) = taken es := by
  apply taken_append_quiet
  by_cases mine : actor a = .consumer
  · cases a with
    | processingStep finishes verifies writes =>
      have placed := threads.placed
      rw [exited] at placed
      cases place : p.processing <;> simp [place, Placed, Awaits, Frees] at placed
      · simp [step, processingStep, place]
      · simp [step, processingStep, place]
    | _ => simp [actor] at mine
  · exact (consumer_kept mine).2.2

/-- The step that leaves the loop of a graceful run leaves it at a dumped slot. -/
theorem leaves_drained (positive : 0 < slotCount) (account : Account slotCount es p.handoff)
    (sweeping : Sweeping p.handoff) (threads : Threads p) (graceful : Graceful p)
    {finishes verifies writes : Bool} (before : p.handoff.consumer ≠ .exited)
    (after : (processingStep slotCount validate finishes verifies writes p).1.handoff.consumer =
      .exited) :
    taken es = handedOver es ∧ p.handoff.producer = .finished ∧
      ∀ index data,
        (processingStep slotCount validate finishes verifies writes p).2 ≠ .taken index data := by
  obtain ⟨calm, none, flag⟩ := graceful
  have placed := threads.placed
  cases place : p.processing with
  | checking =>
    simp only [processingStep, place, flag, Bool.false_eq_true, if_false] at after
    exact absurd after before
  | waiting =>
    simp only [place, Placed] at placed
    simp only [processingStep, place, onRing] at after ⊢
    have cases := @await_cases _ slotCount p.handoff placed
    generalize DiskBufferRing.step slotCount p.handoff _ = next at cases after
    cases cases with
    | waits c still =>
      have exited : c = .exited := after
      simp [exited, Awaits] at still
    | takes full => simp at after
    | leaves nothing =>
      have dumped := nothing.resolve_right (sweeping.calm none _)
      obtain ⟨all, finished⟩ := drained_of_dumped positive account.1 placed dumped
      exact ⟨all, finished, by simp⟩
  | freeing more =>
    simp only [place, Placed] at placed
    simp only [processingStep, place, onRing] at after
    rcases @free_cases _ slotCount _ _ placed _ rfl with ⟨-, still⟩ | done
    · simp [after, Frees] at still
    · cases more with
      | true => simp [after] at done
      | false => simp [threads.failing place] at calm
  | validating =>
    simp only [place, Placed] at placed
    simp only [processingStep, place] at after
    split at after <;> simp [onRing, DiskBufferRing.step, placed] at after
  | changing | leaving | finished =>
    simp only [processingStep, place] at after
    exact absurd after before
  | verifying | writing =>
    simp only [processingStep, place] at after
    split at after <;> exact absurd after before

theorem Coherent.step (positive : 0 < slotCount) (h : Coherent slotCount validate v es p)
    (a : Action α σ) :
    Coherent slotCount validate v (es ++ [(step slotCount validate p a).2])
      (step slotCount validate p a).1 := by
  have ring := @ring_step _ _ _ slotCount validate p a
  constructor
  · exact ring.account positive h.account
  · exact ring.sweeping h.sweeping
  · exact h.threads.step a
  · exact h.controlled.step h.threads h.sweeping a
  · intro calm
    have before : p.latched = false := by
      by_contra latched
      simp [latched_kept (by simpa using latched)] at calm
    by_cases mine : actor a = .consumer
    · cases a with
      | processingStep finishes verifies writes =>
        exact (h.written before).processing h.threads finishes verifies writes calm
      | _ => simp [actor] at mine
    · exact (h.written before).other h.account h.threads mine
  · intro after still
    have graceful := still.before
    by_cases before : p.handoff.consumer = .exited
    · obtain ⟨all, finished⟩ := h.drained before graceful
      rw [nothing_taken h.threads a before, nothing_handed a finished]
      exact ⟨all, finished_kept a finished⟩
    · have mine : actor a = .consumer := by
        by_contra other
        exact before ((consumer_kept other).1 ▸ after)
      cases a with
      | processingStep finishes verifies writes =>
        obtain ⟨all, finished, quiet⟩ :=
          leaves_drained positive h.account h.sweeping h.threads graceful before after
        rw [nothing_handed _ finished]
        exact ⟨(taken_append_quiet quiet).trans all, finished_kept _ finished⟩
      | _ => simp [actor] at mine

theorem coherent_run {primed : Nat} (positive : 0 < slotCount) (fits : primed ≤ slotCount)
    {contents : Nat → α} {sink : Option (SinkChange.Sink σ)}
    (run : Run (machine slotCount validate) Any (start primed contents v sink) es p) :
    Coherent slotCount validate v es p := by
  apply run.invariant_events (Coherent slotCount validate v)
  · exact coherent_start fits contents sink
  · exact fun es p a coherent _ => coherent.step positive a

/-- A capture that begins with a sink is never without one, and writes to none but sinks. -/
def Attached (p : Pipeline α ν σ) : Prop :=
  p.sinks.sink ≠ none ∧ ∀ entry ∈ p.written, entry.1 ≠ none

theorem Attached.step (h : Attached p) (a : Action α σ) :
    Attached (step slotCount validate p a).1 := by
  obtain ⟨sink, written⟩ := h
  cases a with
  | processingStep finishes verifies writes =>
    cases place : p.processing with
    | changing =>
      simp only [CapturePipeline.step, processingStep, place]
      refine ⟨?_, written⟩
      cases pass : p.sinks.pass <;> simp [SinkChange.processingStep, pass, sink]
    | writing =>
      simp only [CapturePipeline.step, processingStep, place]
      split
      · refine ⟨sink, fun entry member => ?_⟩
        rcases List.mem_append.mp member with old | new
        · exact written entry old
        · rw [List.mem_singleton.mp new]
          exact sink
      · exact ⟨sink, written⟩
    | _ =>
      simp only [CapturePipeline.step, processingStep, place]
      try split
      all_goals exact ⟨sink, written⟩
  | runReturns failed =>
    simp only [CapturePipeline.step, runReturns]
    split <;> exact ⟨sink, written⟩
  | transferStep =>
    simp only [CapturePipeline.step, transferStep]
    split <;> exact ⟨sink, written⟩
  | controlStep stalled =>
    simp only [CapturePipeline.step, controlStep]
    repeat' split
    all_goals exact ⟨sink, written⟩
  | abortNext sweep =>
    simp only [CapturePipeline.step]
    split <;> exact ⟨sink, written⟩
  | attachSink incoming | detachSink =>
    simp only [CapturePipeline.step, SinkChange.step]
    split <;> exact ⟨sink, written⟩
  | callerStep =>
    simp only [CapturePipeline.step, SinkChange.callerStep]
    split <;> exact ⟨sink, written⟩
  | _ => exact ⟨sink, written⟩

theorem attached_run {primed : Nat} {contents : Nat → α} {sink : Option (SinkChange.Sink σ)}
    (run : Run (machine slotCount validate) Any (start primed contents v sink) es p)
    (given : sink ≠ none) : Attached p := by
  apply run.invariant
  · exact ⟨given, by simp [start]⟩
  · exact fun p a attached _ => attached.step a

/-- What is written when the processing thread has left a graceful run. -/
theorem Coherent.exited (h : Coherent slotCount validate v es p)
    (exited : p.handoff.consumer = .exited) (graceful : Graceful p) :
    p.written.map Prod.snd = (processed validate v (handedOver es)).2 ∧
      p.handoff.producer = .finished := by
  obtain ⟨all, finished⟩ := h.drained exited graceful
  have written := h.written graceful.1
  have placed := h.threads.placed
  rw [exited] at placed
  rw [← all]
  refine ⟨?_, finished⟩
  cases place : p.processing <;> simp [place, Placed, Awaits, Frees] at placed
  all_goals
    simp only [Written, place] at written
    exact written.2

end Runs

end PipelineDrain
