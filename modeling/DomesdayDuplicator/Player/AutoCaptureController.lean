import DomesdayDuplicator.Player.CaptureSafety

/-!
# Driving the automatic capture

`AutoCaptureController` on the event loop: queued calls of `Step`, the pacing timer, the
request that is out and the sequence. While a run is on exactly one thing wakes it up,
unless a cancel queues a second call.
-/

namespace AutoCaptureController

open Player Dialogue EventLog Execution
open AutoCapture (Settings AutoCaptureSequence AutoCaptureStep AutoCaptureOutcome StepResult sequence)

structure Controller where
  sequence : Option (Settings × AutoCaptureSequence) := none
  /-- The id of the request that is out, 0 for none. -/
  pendingRequest : Nat := 0
  timerActive : Bool := false
  delayed : Bool := false
  /-- Calls of `Step` queued by `singleShot(0)`. -/
  queued : Nat := 0
  /-- The player controller's, counting everybody's requests. -/
  lastRequestId : Nat := 0

/-- What one turn of the event loop did. -/
inductive Event where
  | idle
  | sent (step : AutoCaptureStep) (id : Nat)
  /-- A capture action, carried out and applied in one call. -/
  | performed (step : AutoCaptureStep) (captureOk : Bool)
  | replied (step : Option AutoCaptureStep) (result : StepResult)
  | waiting (step : AutoCaptureStep)
  | over (outcome : AutoCaptureOutcome) (leftRunning : Bool)
  | cancelled
  deriving DecidableEq

inductive Action where
  | start (plan : Settings) (connected captureOk : Bool)
  | step (captureOk : Bool)
  | timeout (captureOk : Bool)
  | reply (id : Nat) (result : StepResult)
  /-- A request of somebody else's. -/
  | request
  | cancel

def finishRun (k : Controller) : Controller :=
  { k with sequence := none, pendingRequest := 0, delayed := false, timerActive := false }

def apply (k : Controller) (result : StepResult) : Controller :=
  match k.sequence with
  | none => k
  | some (c, s) =>
    { k with
      sequence := some (c, AutoCapture.apply c s result), delayed := false, queued := k.queued + 1 }

def carryOut (k : Controller) (step : AutoCaptureStep) (captureOk : Bool) : Controller × Event :=
  match step.action with
  | .sendCommand =>
    let id := k.lastRequestId + 1
    ({ k with lastRequestId := id, pendingRequest := id }, .sent step id)
  | .startCapture | .stopCapture =>
    (apply k { captureOk := captureOk }, .performed step captureOk)

/-- `Step`; `captureOk` is what the capture engine makes of a capture action. -/
def step (k : Controller) (captureOk : Bool) : Controller × Event :=
  match k.sequence with
  | none => (k, .idle)
  | some (c, s) =>
    match AutoCapture.next c s with
    | (none, s) => (finishRun k, .over s.outcome s.captureLeftRunning)
    | (some step, s) =>
      let k := { k with sequence := some (c, s) }
      if 0 < step.delay ∧ k.delayed = false then
        ({ k with delayed := true, timerActive := true }, .waiting step)
      else carryOut { k with delayed := false } step captureOk

def running (k : Controller) : Bool := k.sequence.isSome

def start (k : Controller) (c : Settings) (connected captureOk : Bool) : Controller × Event :=
  if running k then (k, .idle)
  else if !connected then (k, .over .linkFailed false)
  else
    let s := AutoCapture.begin c
    if s.isFinished then (k, .over s.outcome false)
    else step { k with sequence := some (c, s), delayed := false } captureOk

def onReply (k : Controller) (id : Nat) (result : StepResult) : Controller × Event :=
  match k.sequence with
  | none => (k, .idle)
  | some (_, s) =>
    if id ≠ k.pendingRequest ∨ k.pendingRequest = 0 then (k, .idle)
    else (apply { k with pendingRequest := 0 } result, .replied s.pending result)

def cancel (k : Controller) : Controller × Event :=
  match k.sequence with
  | none => (k, .idle)
  | some (c, s) =>
    let k := { k with sequence := some (c, AutoCapture.cancel c s) }
    if k.pendingRequest = 0 ∧ k.timerActive = false then
      ({ k with queued := k.queued + 1 }, .cancelled)
    else (k, .cancelled)

def turn (k : Controller) : Action → Controller × Event
  | .start c connected captureOk => start k c connected captureOk
  | .step captureOk =>
    if k.queued = 0 then (k, .idle) else step { k with queued := k.queued - 1 } captureOk
  | .timeout captureOk =>
    if k.timerActive then step { k with timerActive := false } captureOk else (k, .idle)
  | .reply id result => onReply k id result
  | .request => ({ k with lastRequestId := k.lastRequestId + 1 }, .idle)
  | .cancel => cancel k

def loop : Machine Controller Action Event := ⟨turn⟩

/-! ## One waker -/

/-- What will call `Step`, or bring a reply that queues it. -/
def wakers (k : Controller) : Nat :=
  k.queued + (if k.timerActive then 1 else 0) + if k.pendingRequest = 0 then 0 else 1

def Sent : Event → Prop
  | .sent _ _ => True
  | _ => False

def Replied : Event → Prop
  | .replied _ _ => True
  | _ => False

/-- A step is carried out, in either of the two ways. -/
def Carries : Event → Prop
  | .sent _ _ | .performed _ _ => True
  | _ => False

def Wire (e : Event) : Prop := Sent e ∨ Replied e

/-- The call of `Cancel` finds a waker, so that it queues none. -/
def CancelsAwake (k : Controller) (a : Action) : Prop :=
  a = .cancel → k.sequence.isSome = true → k.pendingRequest ≠ 0 ∨ k.timerActive = true

structure Inv (es : List Event) (k : Controller) : Prop where
  wakers : wakers k = if k.sequence.isSome then 1 else 0
  out : k.pendingRequest ≠ 0 → ∃ c s st, k.sequence = some (c, s) ∧ s.pending = some st ∧
    Latest Wire es (.sent st k.pendingRequest)
  quiet : k.pendingRequest = 0 → ¬ Owing Sent Replied es

/-- A step is carried out only when none is out, and a reply is applied to the step that
was sent last. -/
structure Rules (before : List Event) (e : Event) : Prop where
  carries : Carries e → ¬ Owing Sent Replied before
  replied : ∀ step result, e = .replied step result →
    ∃ st id, step = some st ∧ Latest Wire before (.sent st id)

variable {es : List Event} {k : Controller}

theorem quiet_snoc {e : Event} (quiet : ¬ Owing Sent Replied es) (unsent : ¬ Sent e) :
    ¬ Owing Sent Replied (es ++ [e]) := by
  rw [owing_snoc]
  rintro (sent | ⟨owing, -⟩)
  · exact unsent sent
  · exact quiet owing

theorem Inv.silent (inv : Inv es k) {e : Event} (silent : ¬ Wire e) : Inv (es ++ [e]) k := by
  refine ⟨inv.wakers, fun out => ?_, fun free => ?_⟩
  · obtain ⟨c, s, st, here, pending, latest⟩ := inv.out out
    exact ⟨c, s, st, here, pending, latest_snoc.mpr (Or.inr ⟨silent, latest⟩)⟩
  · exact quiet_snoc (inv.quiet free) fun sent => silent (Or.inl sent)

theorem rules_silent {e : Event} (silent : ¬ Carries e ∧ ¬ Replied e) : Rules es e := by
  refine ⟨fun carries => absurd carries silent.1, ?_⟩
  rintro step result rfl
  exact absurd trivial silent.2

theorem next_pending {c : Settings} {s t : AutoCaptureSequence} {st : AutoCaptureStep}
    (next : AutoCapture.next c s = (some st, t)) : t.pending = some st := by
  have law : AutoCapture.awaiting t = some st := by
    cases out : AutoCapture.awaiting s with
    | some st' =>
      have same := (sequence c).next_awaiting out
      cases same.symm.trans next
      exact out
    | none =>
      have fresh := (sequence c).next_fresh out
      change AutoCapture.awaiting (AutoCapture.next c s).2 = (AutoCapture.next c s).1 at fresh
      rwa [next] at fresh
  unfold AutoCapture.awaiting at law
  split_ifs at law
  exact law

/-- A call of `Step` that nothing else will follow. -/
theorem step_inv (alone : wakers k = 0) (quiet : ¬ Owing Sent Replied es) (captureOk : Bool) :
    Inv (es ++ [(step k captureOk).2]) (step k captureOk).1 ∧ Rules es (step k captureOk).2 := by
  have free : k.queued = 0 ∧ k.timerActive = false ∧ k.pendingRequest = 0 := by
    unfold wakers at alone
    refine ⟨by omega, ?_, ?_⟩
    · by_contra active
      simp [active] at alone
    · by_contra out
      simp [out] at alone
  obtain ⟨queued, timer, request⟩ := free
  unfold step
  split
  · rename_i none'
    refine ⟨⟨by simp [alone, none'], fun out => absurd request out, fun _ => ?_⟩,
      rules_silent (by simp [Carries, Replied])⟩
    exact quiet_snoc quiet id
  rename_i c s _
  split
  · refine ⟨⟨by simp [finishRun, wakers, queued], fun out => absurd rfl out, fun _ => ?_⟩,
      rules_silent (by simp [Carries, Replied])⟩
    exact quiet_snoc quiet id
  rename_i st t next
  dsimp only
  split_ifs
  · refine ⟨⟨by simp [wakers, queued, request], fun out => absurd request out, fun _ => ?_⟩,
      rules_silent (by simp [Carries, Replied])⟩
    exact quiet_snoc quiet id
  unfold carryOut
  cases st.action
  case sendCommand =>
    refine ⟨⟨by simp [wakers, queued, timer], fun _ => ?_, fun none' => ?_⟩, ?_⟩
    · exact ⟨c, t, st, rfl, next_pending next, latest_snoc.mpr (Or.inl ⟨Or.inl trivial, rfl⟩)⟩
    · simp at none'
    · refine ⟨fun _ => quiet, ?_⟩
      rintro step result ⟨⟩
  all_goals
    refine ⟨⟨by simp [apply, wakers, queued, timer, request], fun out => absurd request out,
      fun _ => quiet_snoc quiet id⟩, fun _ => quiet, ?_⟩
    rintro step result ⟨⟩

theorem cancel_pending {c : Settings} {s : AutoCaptureSequence} {st : AutoCaptureStep}
    (out : s.pending = some st) : (AutoCapture.cancel c s).pending = some st := by
  unfold AutoCapture.cancel
  split_ifs
  · exact out
  · simp [out]

theorem reply_inv (inv : Inv es k) (id : Nat) (result : StepResult) :
    Inv (es ++ [(onReply k id result).2]) (onReply k id result).1 ∧
      Rules es (onReply k id result).2 := by
  have idle : Inv (es ++ [.idle]) k ∧ Rules es .idle :=
    ⟨inv.silent (by simp [Wire, Sent, Replied]), rules_silent (by simp [Carries, Replied])⟩
  unfold onReply
  split
  · exact idle
  rename_i c s here
  split_ifs with foreign
  · exact idle
  simp only [not_or] at foreign
  obtain ⟨c', s', st, here', pending, latest⟩ := inv.out foreign.2
  rw [here, Option.some.injEq, Prod.mk.injEq] at here'
  obtain ⟨rfl, rfl⟩ := here'
  have one := inv.wakers
  simp only [wakers, here, Option.isSome_some, if_true, if_neg foreign.2] at one
  refine ⟨⟨?_, fun out => ?_, fun _ => ?_⟩, ⟨fun h => h.elim, ?_⟩⟩
  · simp only [apply, here, wakers, Option.isSome_some, if_true]
    omega
  · simp [apply, here] at out
  · rw [owing_snoc]
    rintro (sent | ⟨-, open'⟩)
    · exact sent
    · exact open' trivial
  · rintro step result' ⟨⟩
    exact ⟨st, k.pendingRequest, pending, latest⟩

theorem cancel_inv (inv : Inv es k) (awake : CancelsAwake k .cancel) :
    Inv (es ++ [(cancel k).2]) (cancel k).1 ∧ Rules es (cancel k).2 := by
  unfold cancel
  split
  · exact ⟨inv.silent (by simp [Wire, Sent, Replied]), rules_silent (by simp [Carries, Replied])⟩
  rename_i c s here
  have woken := awake rfl (by simp [here])
  dsimp only
  rw [if_neg (by rintro ⟨free, still⟩; simp [free, still] at woken)]
  refine ⟨Inv.silent (k := { k with sequence := some (c, AutoCapture.cancel c s) }) ⟨?_, ?_, ?_⟩
    (by simp [Wire, Sent, Replied]), rules_silent (by simp [Carries, Replied])⟩
  · simpa [here, wakers] using inv.wakers
  · intro out
    obtain ⟨c', s', st, here', pending, latest⟩ := inv.out out
    rw [here, Option.some.injEq, Prod.mk.injEq] at here'
    obtain ⟨rfl, rfl⟩ := here'
    exact ⟨c, _, st, rfl, cancel_pending pending, latest⟩
  · exact inv.quiet

/-- What every turn of the event loop keeps. -/
theorem turn_inv (inv : Inv es k) (a : Action) (awake : CancelsAwake k a) :
    Inv (es ++ [(turn k a).2]) (turn k a).1 ∧ Rules es (turn k a).2 := by
  have silent {e : Event} (wire : ¬ Wire e) (carries : ¬ Carries e) :
      Inv (es ++ [e]) k ∧ Rules es e :=
    ⟨inv.silent wire, rules_silent ⟨carries, fun replied => wire (Or.inr replied)⟩⟩
  have idle : Inv (es ++ [.idle]) k ∧ Rules es .idle :=
    silent (by simp [Wire, Sent, Replied]) (by simp [Carries])
  have one := inv.wakers
  cases a with
  | start c connected captureOk =>
    simp only [turn, start, running]
    split_ifs with on
    · exact idle
    · exact silent (by simp [Wire, Sent, Replied]) (by simp [Carries])
    · exact silent (by simp [Wire, Sent, Replied]) (by simp [Carries])
    · rw [if_neg (by simpa using on)] at one
      refine step_inv (k := { k with sequence := some (c, AutoCapture.begin c), delayed := false })
        one (inv.quiet ?_) captureOk
      by_contra out
      simp [wakers, out] at one
  | step captureOk =>
    simp only [turn]
    split_ifs with empty
    · exact idle
    · have alone : wakers { k with queued := k.queued - 1 } = 0 ∧ k.pendingRequest = 0 := by
        simp only [wakers] at one ⊢
        split_ifs at one ⊢ <;> omega
      exact step_inv alone.1 (inv.quiet alone.2) captureOk
  | timeout captureOk =>
    simp only [turn]
    split_ifs with active
    · have alone : wakers { k with timerActive := false } = 0 ∧ k.pendingRequest = 0 := by
        simp only [wakers, active, if_true, Bool.false_eq_true, if_false] at one ⊢
        split_ifs at one ⊢ <;> omega
      exact step_inv alone.1 (inv.quiet alone.2) captureOk
    · exact idle
  | reply id result => exact reply_inv inv id result
  | request =>
    refine ⟨?_, idle.2⟩
    exact ⟨idle.1.wakers, idle.1.out, idle.1.quiet⟩
  | cancel => exact cancel_inv inv awake

theorem start_inv : Inv [] ({} : Controller) :=
  ⟨rfl, fun out => absurd rfl out, fun _ => not_owing_nil⟩

/-- Each step is carried out once before its reply is applied, in every run in which no cancel
comes while a call of `Step` is already queued. -/
theorem each_step_once {es : List Event} {k : Controller}
    (run : Run loop CancelsAwake ({} : Controller) es k) : Each Rules es :=
  each_of_run Inv run start_inv (fun _ _ a inv awake => (turn_inv inv a awake).1)
    fun _ _ a inv awake => (turn_inv inv a awake).2

/-! ## A cancel between a reply and its step -/

open CaptureSafety (wholeSide accepted)

/-- The front panel is locked, and the run cancelled while the next call is queued. -/
def lockedRun : List Action :=
  [.start wholeSide true true, .reply 1 accepted, .cancel, .step true, .step true]

def unlock : AutoCaptureStep := { stage := .unlockingFrontPanel, command := .keyLockOff }

instance : DecidablePred Sent
  | .sent _ _ => .isTrue trivial
  | .idle | .performed _ _ | .replied _ _ | .waiting _ | .over _ _ | .cancelled => .isFalse id

instance : DecidablePred Replied
  | .replied _ _ => .isTrue trivial
  | .idle | .sent _ _ | .performed _ _ | .waiting _ | .over _ _ | .cancelled => .isFalse id

theorem cancel_sends_twice :
    ¬ ∀ es k, Run loop Any ({} : Controller) es k → Each Rules es := by
  intro once
  have run : Run loop Any ({} : Controller) (loop.trace {} lockedRun).1
      (loop.trace {} lockedRun).2 :=
    Run.of_trace _ (fun _ _ => true) _ _ (Machine.passes_of_all _ (fun _ _ => rfl) _)
      fun _ _ _ => trivial
  have split : (loop.trace {} lockedRun).1 =
      (loop.trace {} lockedRun).1.take 4 ++ .sent unlock 3 :: [] := by
    decide +kernel
  have again := (once _ _ run _ _ _ split).carries trivial
  exact absurd (show Owing Sent Replied _ by decide +kernel) again

/-- The same run without the early cancel: the lock, then the disc. -/
def quietRun : List Action :=
  [.start wholeSide true true, .reply 1 accepted, .step true, .cancel]

def awake (k : Controller) : Action → Bool
  | .cancel => k.pendingRequest != 0 || k.timerActive
  | _ => true

theorem quiet_run_once :
    ¬ Owing Sent Replied ((loop.trace {} quietRun).1.take 2) := by
  have run : Run loop CancelsAwake ({} : Controller) (loop.trace {} quietRun).1
      (loop.trace {} quietRun).2 := by
    refine Run.of_trace _ awake _ _ (by decide +kernel) ?_
    rintro k _ woken rfl -
    simpa [awake] using woken
  have split : (loop.trace {} quietRun).1 =
      (loop.trace {} quietRun).1.take 2 ++
        .sent { stage := .confirmingDisc, command := .queryDiscStatus } 2 :: [.cancelled] := by
    decide +kernel
  exact (each_step_once run _ _ _ split).carries trivial

end AutoCaptureController
