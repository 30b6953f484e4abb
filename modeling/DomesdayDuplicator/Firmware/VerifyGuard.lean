import DomesdayDuplicator.Firmware.ReliableTransfer

/-!
# Verification against stray host requests

From the moment FINISH is accepted to the moment the verification returns, the
application thread owns the transfer. `Guarded` says that nothing else gets in,
that a failed transfer stays failed and that a complete one has no error. It
holds of every run that keeps chunks and FINISH away from a verification in
progress (`Calm`); the update state then follows the thread's own stores. A
refused chunk does not keep away: it is a store to the phase as well.
-/

namespace VerifyGuard

open Execution UpdateProtocol Medium UpdateAgent UpdateSteps ReliableTransfer

variable (sha256 : List Byte → Digest) (faults : Faults)

abbrev Trace := Run (machine sha256 faults)

/-- The three parts of the guarantee, for the runs made of the allowed steps. -/
def Guarded (allowed : Device → Action → Prop) : Prop :=
  ∀ i2cComesUp media es d, Trace sha256 faults allowed (powerOn i2cComesUp media) es d →
    (∀ before during e after, es = before ++ .finishAccepted :: during ++ e :: after →
      .verifyReturned ∉ during → .reset ∉ during →
      e ≠ .beginAdmitted ∧ e ≠ .captureStarted) ∧
    (d.update.phase = .failed → ∀ later d', Trace sha256 faults allowed d later d' →
      .beginAdmitted ∉ later → d'.update.phase ≠ .complete) ∧
    (d.update.phase = .complete → d.update.error = .none)

def UnderVerification (d : Device) : Prop :=
  d.update.phase = .writing ∨ d.update.phase = .verifying

/-- The final phase is stored and `updateAgentVerify` has not returned. -/
def Ending (d : Device) : Prop :=
  d.thread = .returning ∨ ∃ error, d.thread = .failed error

/-- A BEGIN or a capture start that this state would let in. -/
def Admits (d : Device) (r : Request) : Prop :=
  (∃ target begin probe, carriedBegin r = some (target, begin, probe) ∧
    updateAgentBeginRefusal d probe target begin = .none) ∨
  (r = .capture 1 ∧ d.applicationActive = true ∧ updateIsInProgress d.update = false)

/-- No chunk and no FINISH reaches a transfer under verification, and nothing is
let in between the last phase store of a verification and its return. -/
def Calm (d : Device) : Action → Prop
  | .request r => (Probes r → ¬ UnderVerification d) ∧ (Ending d → ¬ Admits d r)
  | _ => True

/-- FINISH has been accepted and the verification has not returned. -/
def Outstanding (d : Device) : Prop :=
  d.verifyPending = true ∨ d.thread ≠ .idle

/-- What the phase is while the application thread works, and what it is not otherwise. -/
structure Settled (d : Device) : Prop where
  working : UnderVerification d ↔
    d.verifyPending = true ∨ d.thread ≠ .idle ∧ ¬ Ending d
  pending : d.verifyPending = true → d.thread = .idle ∨ d.thread = .called
  early : d.verifyPending = true ∨ d.thread = .called ∨ d.thread = .cleared →
    d.update.phase = .verifying
  ending : Ending d → d.update.phase = .failed ∨ d.update.phase = .complete
  stored : ∀ error, d.thread = .failed error → d.update.phase = .failed
  clean : d.update.phase ≠ .failed → d.update.error = .none

theorem settled_powerOn (i2cComesUp : Bool) (media : Media) :
    Settled (powerOn i2cComesUp media) := by
  constructor <;> simp [powerOn, UnderVerification, Ending, updateStateReset]

theorem not_inProgress {d : Device} (h : updateIsInProgress d.update = false) :
    ¬ UnderVerification d := by
  intro under
  have : updateIsInProgress d.update = true := by
    rw [updateIsInProgress_iff]
    exact Or.inr under
  rw [h] at this
  cases this

theorem Admits.not_under {d : Device} {r : Request} (h : Admits d r) :
    ¬ UnderVerification d := by
  rcases h with ⟨target, begin, probe, _, admitted⟩ | ⟨_, _, free⟩
  · exact not_inProgress (updateBeginIsAllowed_none (updateAgentBeginRefusal_none admitted).1).2.1
  · exact not_inProgress free

namespace Settled

variable {sha256} {faults}

/-- With nothing under verification the thread is idle or on its way out. -/
theorem rest {d : Device} (h : Settled d) (free : ¬ UnderVerification d) :
    d.verifyPending = false ∧ (d.thread = .idle ∨ Ending d) := by
  have none := fun work => free (h.working.mpr work)
  refine ⟨by by_contra p; exact none (Or.inl (by simpa using p)), ?_⟩
  by_contra busy
  rw [not_or] at busy
  exact none (Or.inr busy)

/-- A store of another phase by the setup callback, with nothing under verification. -/
theorem store {d d' : Device} (h : Settled d) (free : ¬ UnderVerification d)
    (pending : d'.verifyPending = d.verifyPending) (thread : d'.thread = d.thread)
    (next : d'.update.phase = .failed ∨
      d'.update.phase = d.update.phase ∧ d'.update.error = d.update.error) : Settled d' := by
  obtain ⟨quiet, place⟩ := h.rest free
  have still : ¬ UnderVerification d' := by
    rcases next with failed | ⟨same, _⟩
    · simp [UnderVerification, failed]
    · simpa [UnderVerification, same] using free
  have ending : Ending d' ↔ Ending d := by simp [Ending, thread]
  have awake : d'.thread ≠ .idle ∧ ¬ Ending d' → False := by
    rw [ending, thread]
    rintro ⟨notIdle, notEnding⟩
    exact place.elim notIdle notEnding
  refine ⟨⟨fun u => absurd u still, ?_⟩, ?_, ?_, ?_, ?_, ?_⟩
  · rintro (p | busy)
    · rw [pending, quiet] at p; cases p
    · exact (awake busy).elim
  · intro p; rw [pending, quiet] at p; cases p
  · rintro (p | t | t)
    · rw [pending, quiet] at p; cases p
    · exact (awake ⟨by simp [t], by simp [Ending, t]⟩).elim
    · exact (awake ⟨by simp [t], by simp [Ending, t]⟩).elim
  · intro e
    rcases next with failed | ⟨same, _⟩
    · exact Or.inl failed
    · rw [same]; exact h.ending (ending.mp e)
  · intro error t
    rcases next with failed | ⟨same, _⟩
    · exact failed
    · rw [same]; exact h.stored error (thread ▸ t)
  · intro notFailed
    rcases next with failed | ⟨same, err⟩
    · exact absurd failed notFailed
    · rw [err]; exact h.clean (same ▸ notFailed)

/-- A new transfer, or one handed to the thread, starts from an idle thread. -/
theorem idle {d : Device} (h : Settled d) (free : ¬ UnderVerification d)
    (notEnding : ¬ Ending d) : d.verifyPending = false ∧ d.thread = .idle := by
  obtain ⟨quiet, place⟩ := h.rest free
  exact ⟨quiet, place.resolve_right notEnding⟩

theorem serve {d d' : Device} {r : Request} {e : Event} (h : Settled d)
    (calm : Calm d (.request r)) (served : Served sha256 faults d r d' e) : Settled d' := by
  obtain ⟨away, closed⟩ := calm
  cases served with
  | unchanged => exact h
  | beginRefused r error _ free =>
    exact h.store (not_inProgress free) rfl rfl (Or.inl (updateStateFail_phase _ _))
  | beginAdmitted r target begin probe carried admitted =>
    have lets : Admits d r := Or.inl ⟨target, begin, probe, carried, admitted⟩
    obtain ⟨quiet, idle⟩ := h.idle lets.not_under (fun ending => closed ending lets)
    constructor <;>
      simp [Device.open, UnderVerification, Ending, updateStateReset, quiet, idle]
  | failed r error e probes _ _ =>
    exact h.store (away probes) rfl rfl (Or.inl (updateStateFail_phase _ _))
  | chunk r target index data e probes short allowed image =>
    have receiving := (updateChunkIsAllowed_none allowed).2.1
    have taken := updateAgentData_taken faults allowed image
    refine h.store (away probes) taken.pending taken.thread ?_
    cases accepted : (updateAgentData faults d target index data).2 with
    | true =>
      obtain ⟨w, hw⟩ := taken.counted accepted
      exact Or.inr (by rw [hw]; exact ⟨rfl, rfl⟩)
    | false =>
      obtain ⟨w, hw⟩ := taken.failed accepted
      exact Or.inl (by rw [hw]; exact updateStateFail_phase _ _)
  | finishAccepted r target probes allowed digest =>
    have receiving := (updateFinishIsAllowed_none allowed).2.1
    have notEnding : ¬ Ending d := by
      intro ending
      have := h.ending ending
      rw [receiving] at this
      simp at this
    obtain ⟨quiet, idle⟩ := h.idle (away probes) notEnding
    have error := h.clean (by rw [receiving]; decide)
    constructor <;> simp [Device.handOver, UnderVerification, Ending, idle, error]
  | reset r up => exact settled_powerOn up d.media
  | captureStarted => exact ⟨h.working, h.pending, h.early, h.ending, h.stored, h.clean⟩
  | captureStopped => exact ⟨h.working, h.pending, h.early, h.ending, h.stored, h.clean⟩

/-- A step between two places inside the verification, with whatever progress it stores. -/
theorem work {d d' : Device} (h : Settled d) (busy : d.thread ≠ .idle)
    (notEnding : ¬ Ending d) (pending : d'.verifyPending = false)
    (inside : d'.thread ≠ .idle ∧ d'.thread ≠ .called ∧ d'.thread ≠ .cleared)
    (notLeft : ¬ Ending d')
    (phase : d'.update.phase = d.update.phase ∨ UnderVerification d')
    (error : d'.update.error = d.update.error) : Settled d' := by
  have under : UnderVerification d := h.working.mpr (Or.inr ⟨busy, notEnding⟩)
  have under' : UnderVerification d' := by
    rcases phase with same | stored
    · simpa [UnderVerification, same] using under
    · exact stored
  refine ⟨⟨fun _ => Or.inr ⟨inside.1, notLeft⟩, fun _ => under'⟩, ?_, ?_, ?_, ?_, ?_⟩
  · simp [pending]
  · simp [pending, inside.2.1, inside.2.2]
  · exact fun left => absurd left notLeft
  · exact fun error left => absurd (Or.inr ⟨error, left⟩) notLeft
  · intro _
    rw [error]
    apply h.clean
    rcases under with w | v
    · simp [w]
    · simp [v]

/-- The step that stores the verdict, or one between the stores and the return. -/
theorem leave {d' : Device} (pending : d'.verifyPending = false) (left : Ending d')
    (phase : d'.update.phase = .failed ∨
      d'.update.phase = .complete ∧ d'.thread = .returning ∧ d'.update.error = .none) :
    Settled d' := by
  have away : ¬ UnderVerification d' := by
    rcases phase with failed | ⟨complete, _⟩
    · simp [UnderVerification, failed]
    · simp [UnderVerification, complete]
  refine ⟨⟨fun u => absurd u away, ?_⟩, ?_, ?_, ?_, ?_, ?_⟩
  · rintro (p | ⟨_, notLeft⟩)
    · simp [pending] at p
    · exact absurd left notLeft
  · simp [pending]
  · rintro (p | t | t)
    · simp [pending] at p
    · rcases left with l | ⟨e, l⟩ <;> rw [l] at t <;> cases t
    · rcases left with l | ⟨e, l⟩ <;> rw [l] at t <;> cases t
  · exact fun _ => phase.imp id And.left
  · intro error t
    rcases phase with failed | ⟨_, returning, _⟩
    · exact failed
    · rw [returning] at t; cases t
  · intro notFailed
    rcases phase with failed | ⟨_, _, error⟩
    · exact absurd failed notFailed
    · exact error

/-- The thread's own stores keep the phase in step with where it is. -/
theorem thread {d : Device} (h : Settled d) : Settled (threadStep sha256 faults d).1 := by
  have quiet : d.thread ≠ .idle → d.thread ≠ .called → d.verifyPending = false := by
    intro notIdle notCalled
    by_contra pending
    rcases h.pending (by simpa using pending) with idle | called
    · exact notIdle idle
    · exact notCalled called
  have error : d.thread ≠ .idle → ¬ Ending d → d.update.error = .none := by
    intro busy notEnding
    apply h.clean
    rcases h.working.mpr (Or.inr ⟨busy, notEnding⟩) with w | v
    · simp [w]
    · simp [v]
  unfold threadStep
  cases place : d.thread with
  | idle =>
    by_cases pending : d.verifyPending = true
    · simp only [pending, if_true]
      have verifying := h.early (Or.inl pending)
      have none := h.clean (by rw [verifying]; decide)
      constructor <;>
        simp [Device.goto, UnderVerification, Ending, verifying, pending, none]
    · simpa [pending] using h
  | called =>
    have verifying := h.early (Or.inr (Or.inl place))
    have none := h.clean (by rw [verifying]; decide)
    constructor <;> simp [UnderVerification, Ending, verifying, none]
  | failing reason =>
    simp only
    split
    · exact leave (quiet (by simp [place]) (by simp [place])) (Or.inl rfl) (Or.inl ‹_›)
    · exact leave (quiet (by simp [place]) (by simp [place])) (Or.inr ⟨reason, rfl⟩)
        (Or.inl rfl)
  | failed reason =>
    exact leave (quiet (by simp [place]) (by simp [place])) (Or.inl rfl)
      (Or.inl (h.stored reason place))
  | returning =>
    have pending := quiet (by simp [place]) (by simp [place])
    have free : ¬ UnderVerification d := by
      intro under
      rcases h.working.mp under with p | ⟨_, notEnding⟩
      · rw [pending] at p; cases p
      · exact notEnding (Or.inl place)
    refine ⟨⟨fun u => absurd u free, ?_⟩, ?_, ?_, ?_, ?_, h.clean⟩ <;>
      simp [Device.goto, Ending, pending]
  | cleared =>
    have verifying := h.early (Or.inr (Or.inr place))
    simp only [verifying, ne_eq, not_true, if_false]
    split
    all_goals
      refine h.work (by simp [place]) (by simp [place, Ending])
        (quiet (by simp [place]) (by simp [place])) ?_ ?_ ?_ rfl
      · simp [Device.goto]
      · simp [Device.goto, Ending]
      · simp [Device.goto, UnderVerification, verifying]
  | _ =>
    simp only
    repeat' split
    all_goals
      first
      | exact leave (quiet (by simp [place]) (by simp [place])) (Or.inl rfl)
          (Or.inr ⟨rfl, rfl, error (by simp [place]) (by simp [place, Ending])⟩)
      | exact h.work (by simp [place]) (by simp [place, Ending])
          (quiet (by simp [place]) (by simp [place])) (by simp [Device.goto, Device.phase])
          (by simp [Device.goto, Device.phase, Ending])
          (by simp [Device.goto, Device.phase, UnderVerification]) rfl

variable (sha256) (faults) in
theorem step {d : Device} {a : Action} (h : Settled d) (calm : Calm d a) :
    Settled (step sha256 faults d a).1 := by
  cases a with
  | request r => exact h.serve calm (served d r)
  | thread => exact h.thread
  | startApplication => exact ⟨h.working, h.pending, h.early, h.ending, h.stored, h.clean⟩
  | stopApplication => exact ⟨h.working, h.pending, h.early, h.ending, h.stored, h.clean⟩

end Settled

section Calm

variable {sha256} {faults}

theorem settled {i2cComesUp : Bool} {media : Media} {es : List Event} {d : Device}
    (run : Trace sha256 faults Calm (powerOn i2cComesUp media) es d) : Settled d :=
  run.invariant (settled_powerOn i2cComesUp media) fun _ _ h calm => Settled.step _ _ h calm

/-- Settled states along a calm run carry any further invariant. -/
theorem calm_invariant {Inv : Device → Prop} {d d' : Device} {es : List Event}
    (run : Trace sha256 faults Calm d es d') (start : Settled d) (base : Inv d)
    (keeps : ∀ d a, Settled d → Inv d → Calm d a → (step sha256 faults d a).2 ∈ es →
      Inv (step sha256 faults d a).1) : Inv d' := by
  suffices Settled d' ∧ Inv d' from this.2
  induction run with
  | refl => exact ⟨start, base⟩
  | snoc a _ calm ih =>
    obtain ⟨settled, inv⟩ := ih fun d a s i c mem => keeps d a s i c (by simp [mem])
    exact ⟨Settled.step _ _ settled calm, keeps _ a settled inv calm (by simp [machine])⟩

/-- Only the return of the verification, or a reset, ends what FINISH opened. -/
theorem outstanding_step {d : Device} {a : Action} (h : Outstanding d)
    (notReturned : (step sha256 faults d a).2 ≠ .verifyReturned)
    (notReset : (step sha256 faults d a).2 ≠ .reset) :
    Outstanding (step sha256 faults d a).1 := by
  cases a with
  | request r =>
    have answer : Served sha256 faults d r (serve sha256 faults d r).1
      (serve sha256 faults d r).2 := served d r
    simp only [UpdateAgent.step] at notReset ⊢
    generalize serve sha256 faults d r = pair at *
    obtain ⟨d', e⟩ := pair
    cases answer with
    | chunk _ target index data _ _ _ allowed image =>
      have taken := updateAgentData_taken faults allowed image
      simpa [Outstanding, taken.pending, taken.thread] using h
    | finishAccepted => exact Or.inl rfl
    | reset => exact absurd rfl notReset
    | _ => exact h
  | thread =>
    simp only [UpdateAgent.step, threadStep_event] at notReturned ⊢
    refine Or.inr (threadStep_busy h ?_)
    intro returning
    exact notReturned (by simp [returning])
  | startApplication => exact h
  | stopApplication => exact h

theorem outstanding_along {d d' : Device} {es : List Event}
    (run : Trace sha256 faults Calm d es d') (opened : Outstanding d)
    (notReturned : .verifyReturned ∉ es) (notReset : .reset ∉ es) : Outstanding d' := by
  apply run.holds_until (fun e => e = .verifyReturned ∨ e = .reset) opened
  · intro d a h _ stays
    rw [not_or] at stays
    exact outstanding_step h stays.1 stays.2
  · rintro e mem (rfl | rfl)
    · exact notReturned mem
    · exact notReset mem

/-- The event of a step that lets something in comes from a request the state admits. -/
theorem admits_of_event {d : Device} {a : Action}
    (letIn : (step sha256 faults d a).2 = .beginAdmitted ∨
      (step sha256 faults d a).2 = .captureStarted) :
    ∃ r, a = .request r ∧ Admits d r := by
  cases a with
  | request r =>
    refine ⟨r, rfl, ?_⟩
    have answer : Served sha256 faults d r (serve sha256 faults d r).1
      (serve sha256 faults d r).2 := served d r
    simp only [UpdateAgent.step] at letIn
    generalize serve sha256 faults d r = pair at *
    obtain ⟨d', e⟩ := pair
    cases answer with
    | unchanged _ _ inert | failed _ _ _ _ _ inert =>
      exact absurd letIn (not_or.mpr ⟨inert.2.1, inert.2.2.2.1⟩)
    | beginAdmitted _ target begin probe carried admitted =>
      exact Or.inl ⟨target, begin, probe, carried, admitted⟩
    | captureStarted active free => exact Or.inr ⟨rfl, active, free⟩
    | chunk _ _ _ _ _ _ _ _ _ event =>
      rw [event] at letIn
      split at letIn <;> simp at letIn
    | _ => simp at letIn
  | thread =>
    simp only [UpdateAgent.step, threadStep_event] at letIn
    split at letIn <;> simp at letIn
  | startApplication | stopApplication => simp [UpdateAgent.step] at letIn

/-- What an accepted FINISH leaves behind. -/
theorem outstanding_of_finish {d : Device} {a : Action}
    (finished : (step sha256 faults d a).2 = .finishAccepted) :
    Outstanding (step sha256 faults d a).1 := by
  cases a with
  | request r =>
    have answer : Served sha256 faults d r (serve sha256 faults d r).1
      (serve sha256 faults d r).2 := served d r
    simp only [UpdateAgent.step] at finished ⊢
    generalize serve sha256 faults d r = pair at *
    obtain ⟨d', e⟩ := pair
    cases answer with
    | unchanged _ _ inert | failed _ _ _ _ _ inert => exact absurd finished inert.2.2.1
    | chunk _ _ _ _ _ _ _ _ _ event =>
      rw [event] at finished
      split at finished <;> simp at finished
    | finishAccepted => exact Or.inl rfl
    | _ => simp at finished
  | thread =>
    simp only [UpdateAgent.step, threadStep_event] at finished
    split at finished <;> simp at finished
  | startApplication | stopApplication => simp [UpdateAgent.step] at finished

/-- Part (a) of the guarantee, at the step that would break it. -/
theorem nothing_let_in {d : Device} {a : Action} (h : Settled d) (opened : Outstanding d)
    (calm : Calm d a) : (step sha256 faults d a).2 ≠ .beginAdmitted ∧
      (step sha256 faults d a).2 ≠ .captureStarted := by
  rw [← not_or]
  intro letIn
  obtain ⟨r, rfl, admits⟩ := admits_of_event letIn
  obtain ⟨quiet, place⟩ := h.rest admits.not_under
  rcases opened with pending | busy
  · rw [quiet] at pending; cases pending
  · exact calm.2 (place.resolve_left busy) admits

/-- A failed transfer, and what a reset leaves of it. -/
def Dead (d : Device) : Prop :=
  d.update.phase = .failed ∨ d.update.phase = .idle

theorem Dead.step {d : Device} {a : Action} (h : Settled d) (dead : Dead d)
    (notBegun : (step sha256 faults d a).2 ≠ .beginAdmitted) :
    Dead (step sha256 faults d a).1 := by
  have free : ¬ UnderVerification d := by
    rcases dead with failed | idle
    · simp [UnderVerification, failed]
    · simp [UnderVerification, idle]
  have notReceiving : d.update.phase ≠ .receiving := by
    rcases dead with failed | idle
    · simp [failed]
    · simp [idle]
  cases a with
  | request r =>
    have answer : Served sha256 faults d r (serve sha256 faults d r).1
      (serve sha256 faults d r).2 := served d r
    simp only [UpdateAgent.step] at notBegun ⊢
    generalize serve sha256 faults d r = pair at *
    obtain ⟨d', e⟩ := pair
    cases answer with
    | beginRefused => exact Or.inl (updateStateFail_phase _ _)
    | failed => exact Or.inl (updateStateFail_phase _ _)
    | beginAdmitted => exact absurd rfl notBegun
    | chunk _ _ _ _ _ _ _ allowed =>
      exact absurd (updateChunkIsAllowed_none allowed).2.1 notReceiving
    | finishAccepted _ _ _ allowed =>
      exact absurd (updateFinishIsAllowed_none allowed).2.1 notReceiving
    | reset => exact Or.inr rfl
    | _ => exact dead
  | thread =>
    obtain ⟨quiet, place⟩ := h.rest free
    simp only [UpdateAgent.step]
    rcases place with idle | returning | ⟨error, failed⟩
    · simpa [threadStep, idle, quiet] using dead
    · simpa [threadStep, returning, Device.goto, Dead] using dead
    · simpa [threadStep, failed, Dead] using dead
  | startApplication => exact dead
  | stopApplication => exact dead

end Calm

/-- Every run that keeps stray requests away from a verification is guarded. -/
theorem guarded_of_calm : Guarded sha256 faults Calm := by
  intro i2cComesUp media es d run
  refine ⟨?_, ?_, ?_⟩
  · rintro before during e after rfl notReturned notReset
    rw [List.append_assoc, List.cons_append] at run
    obtain ⟨first, finish, prior, ok, finished, rest⟩ := run.split
    obtain ⟨mid, a, between, calm, event, _⟩ := rest.split
    have still := outstanding_along between (outstanding_of_finish finished) notReturned notReset
    rw [← event]
    exact nothing_let_in (settled ((prior.snoc finish ok).append between)) still calm
  · intro failed later d' rest notBegun complete
    have dead : Dead d' := by
      refine calm_invariant rest (settled run) (Or.inl failed) ?_
      intro d a h dead _ mem
      exact dead.step h fun begun => notBegun (begun ▸ mem)
    rcases dead with failed' | idle
    · rw [failed'] at complete; cases complete
    · rw [idle] at complete; cases complete
  · intro complete
    exact (settled run).clean (by simp [complete])

/-! ## A stray FINISH -/

/-- Refused, and a store to the phase of the transfer under verification. -/
theorem serve_stray_finish {d : Device} {target : Byte} (same : d.update.target = target)
    (under : UnderVerification d) :
    serve sha256 faults d (.finish target.toNat) = (d.fail .sequence, .finishRefused) := by
  have refused : updateFinishIsAllowed d.update target = .sequence := by
    rcases under with w | v
    · simp [updateFinishIsAllowed, same, w]
    · simp [updateFinishIsAllowed, same, v]
  simp [serve, updateAgentFinish, refused]

/-- A second FINISH is refused, but it fails the transfer while the thread is at
work on it: a capture is let in before the verification has returned. -/
theorem stray_finish_lets_capture_in : ¬ ∃ sha256, Guarded sha256 reliable Any := by
  rintro ⟨sha256, guarded⟩
  obtain ⟨d, feeding, standing⟩ := received sha256 (onePage_admitted sha256)
    onePage_splits (fun eeprom => by cases eeprom)
  have finish := standing.finish sha256 reliable
    (by simp [onePage, length_samplePage]) (by simp [onePage])
  have handed := (feeding.mono Any fun _ _ _ => trivial).next
    (.request (.finish updateTargetEpcs.toNat)) trivial finish
  have strayed := handed.next (.request (.finish updateTargetEpcs.toNat)) trivial
    (serve_stray_finish sha256 reliable standing.target (Or.inr rfl))
  generalize hfailed : d.handOver.fail .sequence = failed at strayed
  have phase : failed.update.phase = .failed := by
    rw [← hfailed]
    exact updateStateFail_phase _ _
  have letIn : (machine sha256 reliable).step
      { failed with dataCollection := false, applicationActive := true }
      (.request (.capture 1)) =
      ({ failed with dataCollection := true, applicationActive := true }, .captureStarted) := by
    simp [machine, UpdateAgent.step, serve, updateIsInProgress, phase]
  have active := strayed.next .startApplication trivial rfl
  have captured := active.next (.request (.capture 1)) trivial letIn
  have whole := (guarded true blank _ _ captured).1 [.beginAdmitted, .chunkAccepted samplePage]
    [.finishRefused, .quiet] .captureStarted [] rfl (by simp) (by simp)
  exact whole.2 rfl

end VerifyGuard
