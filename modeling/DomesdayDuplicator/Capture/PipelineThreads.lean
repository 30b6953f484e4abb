import DomesdayDuplicator.Capture.CapturePipeline
import DomesdayDuplicator.Capture.RingParties

/-!
# Where the three threads can be

A step of the pipeline is one step of the ring or none. From that: the account of the
ring holds of every run of the pipeline, each thread keeps to its own part, and the
place of a thread agrees with its place in the ring.
-/

namespace PipelineThreads

open Execution RingHandoff RingParties CapturePipeline
open DiskBufferRing (Handoff Event)

universe u v w

variable {α : Type u} {ν : Type v} {σ : Type w} {slotCount : Nat} {validate : Validate α ν}

def actor : Action α σ → Party
  | .waitForSlotFree | .fill _ _ | .markSlotFull | .producerStep _ | .runReturns _
  | .transferStep => .producer
  | .processingStep _ _ _ => .consumer
  | _ => .controller

/-! ## One step of the ring or none -/

/-- What a step does to the ring, and what it reports. -/
inductive RingStep (slotCount : Nat) (party : Party) (s : Handoff α) :
    Handoff α → Event α → Prop
  | none : RingStep slotCount party s s .quiet
  | step (a : DiskBufferRing.Action α) (mine : RingParties.party a = party) :
      RingStep slotCount party s (DiskBufferRing.step slotCount s a).1
        (DiskBufferRing.step slotCount s a).2

section Steps

variable (p : Pipeline α ν σ)

theorem processing_ring (finishes verifies writes : Bool) :
    RingStep slotCount .consumer p.handoff
      (processingStep slotCount validate finishes verifies writes p).1.handoff
      (processingStep slotCount validate finishes verifies writes p).2 := by
  cases place : p.processing with
  | checking =>
    simp only [processingStep, place]
    split
    · exact .step .leave rfl
    · exact .none
  | changing =>
    simp only [processingStep, place]
    exact .none
  | waiting =>
    simp only [processingStep, place]
    refine .step _ ?_
    split <;> rfl
  | validating =>
    simp only [processingStep, place]
    split
    · exact .step (.rewrite _) rfl
    · exact .step (.rewrite _) rfl
  | verifying =>
    simp only [processingStep, place]
    split
    · exact .none
    · exact .none
  | writing =>
    simp only [processingStep, place]
    split
    · exact .none
    · exact .none
  | freeing more =>
    simp only [processingStep, place]
    refine .step _ ?_
    split <;> rfl
  | leaving =>
    simp only [processingStep, place]
    exact .none
  | finished =>
    simp only [processingStep, place]
    exact .none

theorem control_ring (stalled : Bool) :
    RingStep slotCount .controller p.handoff (controlStep slotCount stalled p).1.handoff
      (controlStep slotCount stalled p).2 := by
  cases place : p.control with
  | requesting resume =>
    simp only [controlStep, place]
    exact .step .requestAbort rfl
  | beginning resume =>
    simp only [controlStep, place]
    exact .step .abort rfl
  | aborting sweep resume =>
    simp only [controlStep, place]
    split
    · exact .step (.abortNext sweep) rfl
    · exact .none
  | finding =>
    simp only [controlStep, place]
    split
    · exact .step .markEmptySlotsDumped rfl
    · exact .none
  | dumping =>
    simp only [controlStep, place]
    exact .step .dumpNext rfl
  | _ =>
    simp only [controlStep, place]
    try split
    all_goals exact .none

theorem ring_step (a : Action α σ) :
    RingStep slotCount (actor a) p.handoff (step slotCount validate p a).1.handoff
      (step slotCount validate p a).2 := by
  cases a with
  | waitForSlotFree => exact .step .waitForSlotFree rfl
  | fill visit data => exact .step (.fill visit data) rfl
  | markSlotFull => exact .step .markSlotFull rfl
  | producerStep weakFails => exact .step (.producerStep weakFails) rfl
  | runReturns failed =>
    simp only [step, runReturns]
    split
    · exact .step .finish rfl
    · exact .none
  | transferStep =>
    have same : (transferStep p).handoff = p.handoff := by
      simp only [transferStep]
      split <;> rfl
    simp only [step, same]
    exact .none
  | processingStep finishes verifies writes => exact processing_ring p finishes verifies writes
  | controlStep stalled => exact control_ring p stalled
  | requestAbort => exact .step .requestAbort rfl
  | abort => exact .step .abort rfl
  | abortNext sweep =>
    simp only [step]
    split
    · exact .none
    · exact .step (.abortNext sweep) rfl
  | _ => exact .none

end Steps

theorem RingStep.account (positive : 0 < slotCount) {es : List (Event α)} {party : Party}
    {s t : Handoff α} {e : Event α} (h : RingStep slotCount party s t e)
    (account : Account slotCount es s) : Account slotCount (es ++ [e]) t := by
  cases h with
  | none =>
    obtain ⟨orderly, calm⟩ := account
    refine ⟨by simpa [handedOver, taken, givenBack] using orderly, ?_⟩
    intro index
    simpa using calm index
  | step a => exact account_step positive account a

theorem RingStep.sweeping {party : Party} {s t : Handoff α} {e : Event α}
    (h : RingStep slotCount party s t e) (sweeping : Sweeping s) : Sweeping t := by
  cases h with
  | none => exact sweeping
  | step a => exact sweeping.step a

theorem RingStep.lasting {party : Party} {s t : Handoff α} {e : Event α}
    (h : RingStep slotCount party s t e) {i : Nat} (gone : (s.ring.slots i).state = .aborted) :
    (t.ring.slots i).state = .aborted := by
  cases h with
  | none => exact gone
  | step a => exact (@Lasting.step _ slotCount s a).2 i gone

/-! ## Each thread keeps to its part -/

section Kept

variable {p : Pipeline α ν σ} {a : Action α σ}

theorem producer_kept (other : actor a ≠ .producer) :
    (step slotCount validate p a).1.handoff.producer = p.handoff.producer ∧
    (step slotCount validate p a).1.handoff.claimed = p.handoff.claimed := by
  have ring := @ring_step _ _ _ slotCount validate p a
  generalize step slotCount validate p a = next at ring
  obtain ⟨q, e⟩ := next
  simp only at ring ⊢
  generalize q.handoff = t at ring
  cases ring with
  | none => exact ⟨rfl, rfl⟩
  | step b mine => exact RingParties.producer_kept (mine ▸ other)

theorem consumer_kept (other : actor a ≠ .consumer) :
    (step slotCount validate p a).1.handoff.consumer = p.handoff.consumer ∧
    (step slotCount validate p a).1.handoff.slotIndex = p.handoff.slotIndex ∧
    ∀ index data, (step slotCount validate p a).2 ≠ .taken index data := by
  have ring := @ring_step _ _ _ slotCount validate p a
  generalize step slotCount validate p a = next at ring
  obtain ⟨q, e⟩ := next
  simp only at ring ⊢
  generalize q.handoff = t at ring
  cases ring with
  | none => exact ⟨rfl, rfl, by simp⟩
  | step b mine => exact RingParties.consumer_kept (mine ▸ other)

theorem controller_kept (other : actor a ≠ .controller) :
    (step slotCount validate p a).1.handoff.aborts = p.handoff.aborts ∧
    (step slotCount validate p a).1.handoff.dump = p.handoff.dump ∧
    (step slotCount validate p a).1.handoff.pipelineAbortRequested =
      p.handoff.pipelineAbortRequested := by
  have ring := @ring_step _ _ _ slotCount validate p a
  generalize step slotCount validate p a = next at ring
  obtain ⟨q, e⟩ := next
  simp only at ring ⊢
  generalize q.handoff = t at ring
  cases ring with
  | none => exact ⟨rfl, rfl, rfl⟩
  | step b mine => exact RingParties.controller_kept (mine ▸ other)

theorem transfer_kept (other : actor a ≠ .producer) :
    (step slotCount validate p a).1.transfer = p.transfer := by
  cases a with
  | processingStep finishes verifies writes =>
    simp only [step, processingStep]
    repeat' split
    all_goals rfl
  | controlStep stalled =>
    simp only [step, controlStep]
    repeat' split
    all_goals rfl
  | abortNext sweep =>
    simp only [step]
    split <;> rfl
  | requestStop | requestAbort | abort | attachSink | detachSink | callerStep => rfl
  | _ => simp [actor] at other

theorem processing_kept (other : actor a ≠ .consumer) :
    (step slotCount validate p a).1.processing = p.processing ∧
    (step slotCount validate p a).1.validator = p.validator ∧
    (step slotCount validate p a).1.written = p.written := by
  cases a with
  | runReturns failed =>
    simp only [step, runReturns]
    split <;> exact ⟨rfl, rfl, rfl⟩
  | transferStep =>
    simp only [step, transferStep]
    split <;> exact ⟨rfl, rfl, rfl⟩
  | controlStep stalled =>
    simp only [step, controlStep]
    repeat' split
    all_goals exact ⟨rfl, rfl, rfl⟩
  | abortNext sweep =>
    simp only [step]
    split <;> exact ⟨rfl, rfl, rfl⟩
  | processingStep => simp [actor] at other
  | _ => exact ⟨rfl, rfl, rfl⟩

theorem control_kept (other : actor a ≠ .controller) :
    (step slotCount validate p a).1.control = p.control := by
  cases a with
  | runReturns failed =>
    simp only [step, runReturns]
    split <;> rfl
  | transferStep =>
    simp only [step, transferStep]
    split <;> rfl
  | processingStep finishes verifies writes =>
    simp only [step, processingStep]
    repeat' split
    all_goals rfl
  | waitForSlotFree | fill | markSlotFull | producerStep => rfl
  | _ => simp [actor] at other

/-- A failure once latched stays so. -/
theorem latched_kept (latched : p.latched = true) :
    (step slotCount validate p a).1.latched = true := by
  cases a with
  | runReturns failed =>
    simp only [step, runReturns]
    split <;> exact latched
  | transferStep =>
    simp only [step, transferStep]
    split <;> first | exact latched | rfl
  | processingStep finishes verifies writes =>
    simp only [step, processingStep]
    repeat' split
    all_goals first
      | exact latched
      | rfl
      | simp [latched]
  | controlStep stalled =>
    simp only [step, controlStep]
    repeat' split
    all_goals first
      | exact latched
      | rfl
  | abortNext sweep =>
    simp only [step]
    split <;> exact latched
  | _ => exact latched

end Kept

/-! ## The places of the threads -/

/-- The processing thread's place, and its place in the ring. -/
def Placed : Processing → DiskBufferRing.Consumer → Prop
  | .checking, c | .changing, c => c = .looping
  | .waiting, c => Awaits c
  | .validating, c | .verifying, c | .writing, c => c = .processing
  | .freeing more, c => Frees more c
  | .leaving, c | .finished, c => c = .exited

structure Threads (p : Pipeline α ν σ) : Prop where
  running : p.transfer = .running ↔ p.handoff.producer ≠ .finished
  placed : Placed p.processing p.handoff.consumer
  failing : p.processing = .freeing false → p.latched = true

theorem threads_start (primed : Nat) (contents : Nat → α) (validator : ν)
    (sink : Option (SinkChange.Sink σ)) : Threads (start primed contents validator sink) := by
  constructor
  · simp [start, DiskBufferRing.start]
  · rfl
  · simp [start]

section Threads

variable {p : Pipeline α ν σ}

theorem Threads.running_step (h : Threads p) (a : Action α σ) :
    (step slotCount validate p a).1.transfer = .running ↔
      (step slotCount validate p a).1.handoff.producer ≠ .finished := by
  by_cases mine : actor a = .producer
  · cases a with
    | runReturns failed =>
      simp only [step, runReturns]
      split
      · rename_i ready
        simp [onRing, DiskBufferRing.step, ready.2]
      · exact h.running
    | transferStep =>
      have running := h.running
      simp only [step, transferStep]
      split
      · rename_i place
        simp_all
      · rename_i place
        simp_all
      · exact running
      · exact running
    | waitForSlotFree | fill | markSlotFull | producerStep =>
      simp only [step, onRing, ne_eq, finished_iff, reduceCtorEq, not_false_eq_true]
      exact h.running
    | _ => simp [actor] at mine
  · rw [transfer_kept mine, (producer_kept mine).1]
    exact h.running

theorem Threads.placed_step (h : Threads p) (a : Action α σ) :
    Placed (step slotCount validate p a).1.processing
      (step slotCount validate p a).1.handoff.consumer := by
  by_cases mine : actor a = .consumer
  · cases a with
    | processingStep finishes verifies writes =>
      have placed := h.placed
      simp only [step]
      cases place : p.processing with
      | checking =>
        simp only [place, Placed] at placed
        simp only [processingStep, place]
        split
        · rename_i aborted
          simp [onRing, DiskBufferRing.step, placed, aborted, Placed]
        · exact placed
      | changing =>
        simp only [place, Placed] at placed
        simp only [processingStep, place]
        split <;> simp [Placed, Awaits, placed]
      | waiting =>
        simp only [place, Placed] at placed
        simp only [processingStep, place, onRing]
        generalize outcome : DiskBufferRing.step slotCount p.handoff _ = next
        have cases := @await_cases _ slotCount p.handoff placed
        rw [outcome] at cases
        cases cases with
        | waits c still awake => cases c <;> simp_all [awaited, Placed, Awaits]
        | takes full => rfl
        | leaves nothing => rfl
      | validating =>
        simp only [place, Placed] at placed
        simp only [processingStep, place]
        split
        · simp [onRing, DiskBufferRing.step, placed, Placed]
        · simp [onRing, DiskBufferRing.step, placed, Placed, Frees]
      | verifying =>
        simp only [place, Placed] at placed
        simp only [processingStep, place]
        split <;> simp [Placed, placed, Frees]
      | writing =>
        simp only [place, Placed] at placed
        simp only [processingStep, place]
        split <;> simp [Placed, placed, Frees]
      | freeing more =>
        simp only [place, Placed] at placed
        simp only [processingStep, place, onRing]
        generalize outcome : DiskBufferRing.step slotCount p.handoff _ = next
        rcases free_cases placed outcome with ⟨busy, still⟩ | done
        · cases c : next.1.consumer <;> simp_all [freed, Placed, Frees]
        · cases more <;> simp [done, freed, Placed]
      | leaving =>
        simp only [place, Placed] at placed
        simp only [processingStep, place]
        exact placed
      | finished =>
        simp only [place] at placed
        simpa only [processingStep, place] using placed
    | _ => simp [actor] at mine
  · rw [(processing_kept mine).1, (consumer_kept mine).1]
    exact h.placed

theorem Threads.failing_step (h : Threads p) (a : Action α σ)
    (failing : (step slotCount validate p a).1.processing = .freeing false) :
    (step slotCount validate p a).1.latched = true := by
  by_cases mine : actor a = .consumer
  · cases a with
    | processingStep finishes verifies writes =>
      simp only [step] at failing ⊢
      cases place : p.processing with
      | freeing more =>
        simp only [processingStep, place, onRing] at failing ⊢
        refine h.failing ?_
        simp only [freed] at failing
        split at failing
        · simp at failing
        · simp at failing
        · rw [place, failing]
      | waiting =>
        simp only [processingStep, place, onRing, awaited] at failing
        split at failing <;> simp at failing
      | changing =>
        simp only [processingStep, place] at failing
        split at failing <;> simp at failing
      | checking =>
        simp only [processingStep, place] at failing
        split at failing <;> simp at failing
      | leaving => simp [processingStep, place] at failing
      | finished => simp [processingStep, place] at failing
      | _ =>
        simp only [processingStep, place] at failing ⊢
        split at failing
        · simp at failing
        · rename_i fails
          rw [if_neg fails]
    | _ => simp [actor] at mine
  · rw [(processing_kept mine).1] at failing
    exact latched_kept (h.failing failing)

theorem Threads.step (h : Threads p) (a : Action α σ) :
    Threads (step slotCount validate p a).1 := by
  constructor
  · exact h.running_step a
  · exact h.placed_step a
  · exact h.failing_step a

end Threads

/-! ## The control thread -/

/-- Past its loop. -/
def Beyond : Control → Prop
  | .closing | .requesting .joining | .beginning .joining | .aborting _ .joining | .joining
  | .joined => True
  | _ => False

structure Controlled (slotCount : Nat) (p : Pipeline α ν σ) : Prop where
  dumping : p.control = .dumping ↔ p.handoff.dump ≠ none
  ended : p.control = .dumping → p.transfer = .finished
  own : ∀ sweep, p.control.sweep = some sweep → sweep < p.handoff.aborts.length
  beyond : Beyond p.control → p.processing = .finished
  closed : p.control = .joining ∨ p.control = .joined →
    p.transfer = .finished ∨ ∀ i, i < slotCount → (p.handoff.ring.slots i).state = .aborted

theorem controlled_start (primed : Nat) (contents : Nat → α) (validator : ν)
    (sink : Option (SinkChange.Sink σ)) :
    Controlled slotCount (start primed contents validator sink) := by
  constructor <;> simp [start, DiskBufferRing.start, Control.sweep, Beyond]

section Controlled

variable {p : Pipeline α ν σ}

theorem transfer_ended (a : Action α σ) (ended : p.transfer = .finished) :
    (step slotCount validate p a).1.transfer = .finished := by
  by_cases mine : actor a = .producer
  · cases a with
    | runReturns failed => simp [step, runReturns, ended]
    | transferStep => simp [step, transferStep, ended]
    | waitForSlotFree | fill | markSlotFull | producerStep => exact ended
    | _ => simp [actor] at mine
  · rw [transfer_kept mine, ended]

theorem processing_ended (a : Action α σ) (ended : p.processing = .finished) :
    (step slotCount validate p a).1.processing = .finished := by
  by_cases mine : actor a = .consumer
  · cases a with
    | processingStep finishes verifies writes => simp [step, processingStep, ended]
    | _ => simp [actor] at mine
  · rw [(processing_kept mine).1, ended]

theorem lasting_step (a : Action α σ) {i : Nat}
    (gone : (p.handoff.ring.slots i).state = .aborted) :
    ((step slotCount validate p a).1.handoff.ring.slots i).state = .aborted :=
  (ring_step p a).lasting gone

/-- The control thread stays where it is. -/
theorem Controlled.stays (h : Controlled slotCount p) (a : Action α σ)
    (control : (step slotCount validate p a).1.control = p.control)
    (dump : (step slotCount validate p a).1.handoff.dump = p.handoff.dump)
    (aborts : p.handoff.aborts.length ≤ (step slotCount validate p a).1.handoff.aborts.length) :
    Controlled slotCount (step slotCount validate p a).1 := by
  constructor
  · rw [control, dump]
    exact h.dumping
  · rw [control]
    exact fun dumping => transfer_ended a (h.ended dumping)
  · rw [control]
    exact fun sweep own => (h.own sweep own).trans_le aborts
  · rw [control]
    exact fun beyond => processing_ended a (h.beyond beyond)
  · rw [control]
    intro place
    rcases h.closed place with ended | all
    · exact Or.inl (transfer_ended a ended)
    · exact Or.inr fun i below => lasting_step a (all i below)

theorem abortNext_frame (s : Handoff α) (sweep : Nat) :
    (DiskBufferRing.step slotCount s (.abortNext sweep)).1.dump = s.dump ∧
    (DiskBufferRing.step slotCount s (.abortNext sweep)).1.aborts.length = s.aborts.length := by
  simp only [DiskBufferRing.step, DiskBufferRing.abortNext]
  repeat' split
  all_goals simp

theorem Controlled.control (h : Controlled slotCount p) (threads : Threads p)
    (sweeping : Sweeping p.handoff) (stalled : Bool) :
    Controlled slotCount (controlStep slotCount stalled p).1 := by
  have still : p.control ≠ .dumping → p.handoff.dump = none := by
    intro other
    by_contra some
    exact other (h.dumping.mpr some)
  cases place : p.control with
  | checking =>
    have none := still (by simp [place])
    simp only [controlStep, place]
    split
    · rename_i finished
      constructor <;> simp [none, Control.sweep, finished]
    · constructor <;> simp [none, Control.sweep, Beyond]
  | watching =>
    have none := still (by simp [place])
    simp only [controlStep, place]
    split
    · constructor <;> simp [none, Control.sweep, Beyond]
    · constructor <;> simp [none, Control.sweep, Beyond]
  | requesting resume =>
    have none := still (by simp [place])
    have beyond := h.beyond
    simp only [controlStep, place, onRing, DiskBufferRing.step]
    refine ⟨by simp [none], by simp, by simp [Control.sweep], ?_, by simp⟩
    cases resume <;> simp_all [Beyond]
  | beginning resume =>
    have none := still (by simp [place])
    have beyond := h.beyond
    simp only [controlStep, place, onRing, DiskBufferRing.step]
    refine ⟨by simp [none], by simp, by simp [Control.sweep], ?_, by simp⟩
    cases resume <;> simp_all [Beyond]
  | aborting sweep resume =>
    have none := still (by simp [place])
    have beyond := h.beyond
    have own := h.own sweep (by simp [place, Control.sweep])
    simp only [controlStep, place]
    split
    · obtain ⟨dump, length⟩ := @abortNext_frame _ slotCount p.handoff sweep
      refine ⟨?_, by simp [onRing, place], ?_, ?_, by simp [onRing, place]⟩
      · simp [onRing, place, dump, none]
      · simp [onRing, place, length, Control.sweep, own]
      · simpa only [onRing, place] using beyond
    · rename_i past
      have all : ∀ i, i < slotCount → (p.handoff.ring.slots i).state = .aborted := by
        intro i below
        have here : p.handoff.aborts[sweep]? = some p.handoff.aborts[sweep] :=
          List.getElem?_eq_getElem own
        rw [List.getD_eq_getElem?_getD, here, Option.getD_some] at past
        exact sweeping.swept sweep _ here i (by omega)
      cases resume with
      | finding => constructor <;> simp [none, Control.sweep, Beyond, Resume.control]
      | checking => constructor <;> simp [none, Control.sweep, Beyond, Resume.control]
      | joining =>
        refine ⟨by simp [none, Resume.control], by simp [Resume.control],
          by simp [Control.sweep, Resume.control], ?_, fun _ => Or.inr all⟩
        exact fun _ => beyond (by simp [place, Beyond])
  | finding =>
    have none := still (by simp [place])
    simp only [controlStep, place]
    split
    · rename_i finished
      have ended : p.handoff.producer = .finished := by
        by_contra live
        have := threads.running.mpr live
        simp [finished] at this
      constructor <;>
        simp [onRing, DiskBufferRing.step, ended, none, finished, Control.sweep, Beyond]
    · constructor <;> simp [none, Control.sweep, Beyond]
  | dumping =>
    have finished := h.ended place
    simp only [controlStep, place]
    split
    · rename_i done
      refine ⟨?_, by simp, by simp [Control.sweep], by simp [Beyond], by simp⟩
      simpa using done
    · rename_i more
      refine ⟨?_, fun _ => finished, by simp [Control.sweep], by simp [Beyond], by simp⟩
      simpa using more
  | judging =>
    have none := still (by simp [place])
    simp only [controlStep, place]
    split
    · constructor <;> simp [none, Control.sweep, Beyond]
    · constructor <;> simp [none, Control.sweep, Beyond]
  | closing =>
    have none := still (by simp [place])
    have beyond := h.beyond (by simp [place, Beyond])
    simp only [controlStep, place]
    split
    · rename_i finished
      constructor <;> simp [none, Control.sweep, beyond, finished]
    · constructor <;> simp [none, Control.sweep, beyond]
  | joining =>
    have none := still (by simp [place])
    have beyond := h.beyond (by simp [place, Beyond])
    simp only [controlStep, place]
    split
    · rename_i finished
      constructor <;> simp [none, Control.sweep, beyond, finished]
    · exact h
  | joined => simpa only [controlStep, place] using h

theorem Controlled.step (h : Controlled slotCount p) (threads : Threads p)
    (sweeping : Sweeping p.handoff) (a : Action α σ) :
    Controlled slotCount (step slotCount validate p a).1 := by
  by_cases mine : actor a = .controller
  · cases a with
    | controlStep stalled => exact h.control threads sweeping stalled
    | abort =>
      apply h.stays
      · rfl
      · rfl
      · simp [CapturePipeline.step, onRing, DiskBufferRing.step]
    | abortNext sweep =>
      obtain ⟨dump, length⟩ := @abortNext_frame _ slotCount p.handoff sweep
      apply h.stays
      · simp only [CapturePipeline.step]
        split <;> rfl
      · simp only [CapturePipeline.step]
        split
        · rfl
        · exact dump
      · simp only [CapturePipeline.step]
        split
        · exact le_rfl
        · exact length.ge
    | requestStop | requestAbort | attachSink | detachSink | callerStep =>
      exact h.stays _ rfl rfl le_rfl
    | _ => simp [actor] at mine
  · obtain ⟨aborts, dump, -⟩ := @controller_kept _ _ _ slotCount validate p a mine
    exact h.stays a (control_kept mine) dump (by rw [aborts])

end Controlled

end PipelineThreads
