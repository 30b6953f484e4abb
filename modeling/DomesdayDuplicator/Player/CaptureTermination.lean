import DomesdayDuplicator.Foundations.EndlessRun
import DomesdayDuplicator.Player.CaptureSafety

/-!
# The watch ends

Two things put off the end of a capture: a reading in the lead-in, and a player that says it is
setting up or searching when it is asked why the address stands still. Every other answer brings
the end nearer, by the part of the programme that is left, by the readings until the question,
or by the place in the tail. A capture is completed only where a reading was at the end.
-/

namespace CaptureTermination

open Player AutoCapture Dialogue EventLog Execution CaptureRun EndlessRun

variable (c : Settings)

/-! ## Answers -/

def addressIn (result : StepResult) : DiscAddress :=
  parseAddress result.reply.text c.plan.addressing c.definition.timeCodeFormat

def stateIn (result : StepResult) : PlayerState :=
  parsePlayerState result.reply.text c.definition.stateDecode

/-- A reading in the lead-in. -/
def LeadInRead : CaptureEvent → Prop
  | .answered st result =>
    st.stage = .watching ∧ result.reply.ok = true ∧ (addressIn c result).inLeadIn = true
  | _ => False

/-- The answer to the stall check that the player is setting up or searching. -/
def OnItsWay : CaptureEvent → Prop
  | .answered st result =>
    st.stage = .checkingStall ∧ result.reply.ok = true ∧
      (stateIn c result = .settingUp ∨ stateIn c result = .searching)
  | _ => False

/-- At or past the end of the plan, or in the lead-out. -/
def AtEnd (result : StepResult) : Prop :=
  result.reply.ok = true ∧ ((addressIn c result).inLeadOut = true ∨
    ((addressIn c result).valid = true ∧ c.plan.endAddress ≤ (addressIn c result).value))

def EndRead : CaptureEvent → Prop
  | .answered st result => st.stage = .watching ∧ AtEnd c result
  | _ => False

/-! ## How far the end is -/

/-- The part of the programme the watch has still to see. -/
def left : Option Int → Nat
  | none => c.plan.endAddress.toNat + 1
  | some last => (c.plan.endAddress - last).toNat

/-- What a stage has still ahead of it, the watch counted by its readings without advance. -/
def weight (readings : Nat) : AutoCaptureStage → Nat
  | .checkingStall => 1
  | .watching => 2 + (stallReadings - readings)
  | .spinningUp => 8
  | .startingCapture => 9
  | .spinningDown | .seekingStart => 10
  | .checkingTransport => 11
  | .confirmingDisc => 12
  | _ => 13

def rank (s : AutoCaptureSequence) : Nat :=
  if s.finishing then 5 - place c s.stage
  else 6 + 7 * left c s.lastAddress + weight s.readingsWithoutAdvance s.stage

variable {c} {es : List CaptureEvent} {s : AutoCaptureSequence}

theorem rank_finishing (finishing : s.finishing = true) : rank c s ≤ 5 := by
  rw [rank, if_pos finishing]
  omega

theorem rank_proper (proper : s.finishing = false) :
    rank c s = 6 + 7 * left c s.lastAddress + weight s.readingsWithoutAdvance s.stage := by
  simp [rank, proper]

/-- The tail is nearer the end than anything before it. -/
theorem finish_rank {t : AutoCaptureSequence} (proper : s.finishing = false)
    (proper' : t.finishing = false) (outcome : AutoCaptureOutcome) :
    rank c (finish c t outcome) < rank c s := by
  have tail : rank c (finish c t outcome) ≤ 5 := rank_finishing (finish_finishing proper')
  rw [rank_proper proper]
  omega

theorem honourCancel_rank : rank c (honourCancel c s) ≤ rank c s := by
  unfold honourCancel
  split_ifs with cancelled
  · simp only [Bool.and_eq_true, Bool.not_eq_true'] at cancelled
    exact (finish_rank cancelled.2 cancelled.2 _).le
  · exact le_rfl

theorem stageAfter_weight {stage : AutoCaptureStage} (head : inHead stage = true)
    (watch : stage ≠ .watching) (stall : stage ≠ .checkingStall) (readings : Nat) :
    weight readings (stageAfter c stage) < weight readings stage := by
  cases stage with
  | confirmingDisc =>
    simp only [stageAfter]
    split_ifs <;> simp only [weight] <;> omega
  | spinningUp =>
    simp only [stageAfter, weight, stallReadings]
    omega
  | lockingFrontPanel | checkingTransport | spinningDown | seekingStart | startingCapture =>
    simp only [stageAfter, weight]
    omega
  | watching => exact absurd rfl watch
  | checkingStall => exact absurd rfl stall
  | _ => simp [inHead] at head

theorem advance_rank (proper : s.finishing = false) (head : inHead s.stage = true)
    (watch : s.stage ≠ .watching) (stall : s.stage ≠ .checkingStall) :
    rank c (advance c s) < rank c s := by
  have lighter := stageAfter_weight (c := c) head watch stall s.readingsWithoutAdvance
  rw [rank_proper proper, rank_proper (show (advance c s).finishing = false from proper)]
  change 6 + 7 * left c s.lastAddress + weight s.readingsWithoutAdvance (stageAfter c s.stage) < _
  omega

/-! ## The watch -/

theorem countReading_rank (proper : s.finishing = false) (here : s.stage = .watching) :
    rank c (countReading s) < rank c s := by
  rw [rank_proper proper, rank_proper (show (countReading s).finishing = false from proper)]
  have same : (countReading s).lastAddress = s.lastAddress := rfl
  have lighter : weight (countReading s).readingsWithoutAdvance (countReading s).stage <
      weight s.readingsWithoutAdvance s.stage := by
    simp only [countReading, here]
    split_ifs with enough
    · simp only [weight]
      omega
    · simp only [weight]
      omega
  rw [same]
  omega

/-- A reading further on leaves less of the programme to see. -/
theorem further_left {value : Int} {last : Option Int} (valid : 0 ≤ value)
    (short : value < c.plan.endAddress)
    (further : (last.all fun last => decide (last < value)) = true) :
    left c (some value) < left c last := by
  cases last with
  | none =>
    simp only [left]
    omega
  | some last =>
    have : last < value := by simpa using further
    simp only [left]
    omega

theorem watching_rank (proper : s.finishing = false) (here : s.stage = .watching)
    {result : StepResult}
    (quiet : ¬ LeadInRead c (.answered (stepFor c s.stage) result)) :
    rank c (applyWatching c s result.reply) < rank c s := by
  unfold applyWatching
  by_cases silent : (!result.reply.ok) = true
  · rw [if_pos silent]
    exact countReading_rank proper here
  rw [if_neg silent]
  change rank c (if (addressIn c result).inLeadOut = true then _ else _) < _
  by_cases leadOut : (addressIn c result).inLeadOut = true
  · rw [if_pos leadOut]
    exact finish_rank proper proper _
  rw [if_neg leadOut]
  have programme : ¬ (addressIn c result).inLeadIn = true := by
    intro leadIn
    exact quiet ⟨by simp [here], by simpa using silent, leadIn⟩
  change rank c (if (addressIn c result).inLeadIn = true then _ else _) < _
  rw [if_neg programme]
  change rank c (if (!(addressIn c result).valid) = true then _ else _) < _
  by_cases invalid : (!(addressIn c result).valid) = true
  · rw [if_pos invalid]
    exact countReading_rank proper here
  rw [if_neg invalid]
  have bounds : 0 ≤ (addressIn c result).value ∧ _ :=
    parseAddress_bounds (show (addressIn c result).valid = true by simpa using invalid)
  change rank c (if c.plan.endAddress ≤ (addressIn c result).value then
    finish c { s with lastAddress := some (addressIn c result).value } .completed else _) < _
  by_cases reached : c.plan.endAddress ≤ (addressIn c result).value
  · rw [if_pos reached]
    exact finish_rank proper (by exact proper) _
  rw [if_neg reached]
  split_ifs with further
  · have less := further_left bounds.1 (not_le.mp reached) further
    change rank c
      { s with lastAddress := some (addressIn c result).value, readingsWithoutAdvance := 0 } < _
    rw [rank_proper proper, rank_proper (by exact proper)]
    simp only [here, weight, stallReadings]
    omega
  · exact countReading_rank proper here

theorem checkingStall_rank (proper : s.finishing = false) (here : s.stage = .checkingStall)
    {result : StepResult} (quiet : ¬ OnItsWay c (.answered (stepFor c s.stage) result)) :
    rank c (applyCheckingStall c s result.reply) < rank c s := by
  unfold applyCheckingStall
  generalize read : (if result.reply.ok = true then
    parsePlayerState result.reply.text c.definition.stateDecode else .unknown) = state
  have onItsWay (way : state = .settingUp ∨ state = .searching) : False := by
    by_cases ok : result.reply.ok = true
    · rw [if_pos ok] at read
      refine quiet ⟨by simp [here], ok, ?_⟩
      rwa [stateIn, read]
    · rw [if_neg ok] at read
      subst read
      simp at way
  cases state with
  | settingUp => exact (onItsWay (Or.inl rfl)).elim
  | searching => exact (onItsWay (Or.inr rfl)).elim
  | _ => exact finish_rank proper proper _

/-! ## Any answer -/

theorem applyReply_rank (head : Head s) (command : s.stage ≠ .startingCapture)
    {result : StepResult} (leadIn : ¬ LeadInRead c (.answered (stepFor c s.stage) result))
    (way : ¬ OnItsWay c (.answered (stepFor c s.stage) result)) :
    rank c (applyReply c s s.stage result.reply) < rank c s := by
  have proper := head.proper
  have onward (watch : s.stage ≠ .watching) (stall : s.stage ≠ .checkingStall) :
      rank c (advance c s) < rank c s := advance_rank proper head.stage watch stall
  cases here : s.stage with
  | lockingFrontPanel => exact onward (by simp [here]) (by simp [here])
  | confirmingDisc =>
    simp only [applyReply, applyConfirmingDisc]
    split_ifs
    · exact onward (by simp [here]) (by simp [here])
    · exact onward (by simp [here]) (by simp [here])
    · exact finish_rank proper proper _
    · exact onward (by simp [here]) (by simp [here])
  | checkingTransport =>
    simp only [applyReply, applyCheckingTransportAndAdvance, applyCheckingTransport]
    split_ifs <;> exact onward (by simp [here]) (by simp [here])
  | spinningDown => exact onward (by simp [here]) (by simp [here])
  | seekingStart =>
    simp only [applyReply, applySeekingStart]
    split_ifs
    · exact finish_rank proper proper _
    · exact onward (by simp [here]) (by simp [here])
  | startingCapture => exact absurd here command
  | spinningUp =>
    simp only [applyReply, applySpinningUp]
    split_ifs
    · exact finish_rank proper proper _
    · exact onward (by simp [here]) (by simp [here])
  | watching => exact watching_rank proper here leadIn
  | checkingStall => exact checkingStall_rank proper here way
  | _ => exact absurd head.stage (by simp [here, inHead])

theorem completeTeardownStep_rank {t : AutoCaptureSequence} (finishing : s.finishing = true)
    (finishing' : t.finishing = true) (inside : inTail s.stage = true)
    (unfinished : s.stage ≠ .finished) :
    rank c (completeTeardownStep c t s.stage) < rank c s := by
  obtain ⟨inside', further⟩ := place_successor c inside unfinished
  have before := (place_lt_finished c inside).mpr unfinished
  obtain ⟨stage, walked, -, later, -, -⟩ :=
    walk_spec c (s := { t with stage := teardownSuccessor c s.stage }) inside'
      (by omega : 4 < 5 + _)
  rw [completeTeardownStep, advanceTeardown, walked, rank, rank, if_pos (by exact finishing'),
    if_pos finishing]
  change 5 - place c stage < 5 - place c s.stage
  change place c (teardownSuccessor c s.stage) ≤ place c stage at later
  omega

theorem start_rank (head : Head s) (here : s.stage = .startingCapture) (captureOk : Bool) :
    rank c (applyStart c s captureOk) < rank c s := by
  unfold applyStart
  split_ifs
  · exact finish_rank head.proper head.proper _
  · exact advance_rank (s := { s with captureStarted := true }) head.proper head.stage
      (by simp [here]) (by simp [here])

theorem command_rank_head (head : Head s) (command : s.stage ≠ .startingCapture)
    {result : StepResult} (leadIn : ¬ LeadInRead c (.answered (stepFor c s.stage) result))
    (way : ¬ OnItsWay c (.answered (stepFor c s.stage) result)) :
    rank c (applyCommand c s s.stage result.reply) < rank c s := by
  unfold applyCommand
  by_cases down : result.reply.linkDown = true
  · rw [if_pos down, if_neg (by simp [head.proper])]
    exact finish_rank head.proper head.proper _
  rw [if_neg down]
  have inside := head.stage
  split
  · simp_all [inHead]
  · simp_all [inHead]
  · simp_all [inHead]
  · exact lt_of_le_of_lt honourCancel_rank (applyReply_rank head command leadIn way)

theorem command_rank_tail (finishing : s.finishing = true) (inside : inTail s.stage = true)
    (unfinished : s.stage ≠ .finished) (command : s.stage ≠ .stoppingCapture) (reply : Reply) :
    rank c (applyCommand c s s.stage reply) < rank c s := by
  have nearer {t : AutoCaptureSequence} (finishing' : t.finishing = true) :
      rank c (completeTeardownStep c t s.stage) < rank c s :=
    completeTeardownStep_rank finishing finishing' inside unfinished
  unfold applyCommand
  by_cases down : reply.linkDown = true
  · rw [if_pos down, if_pos finishing]
    exact nearer finishing
  rw [if_neg down]
  split
  · refine nearer ?_
    unfold applyCheckingTransport
    split_ifs <;> exact finishing
  · exact nearer finishing
  · exact nearer finishing
  next check stop lock => cases here : s.stage <;> simp_all [inTail]

/-- Every answer but the two that put it off brings the end nearer. -/
theorem apply_rank (inv : Inv c es s) («open» : s.isFinished = false) {st : AutoCaptureStep}
    (out : s.pending = some st) {result : StepResult}
    (leadIn : ¬ LeadInRead c (.answered st result)) (way : ¬ OnItsWay c (.answered st result)) :
    rank c (apply c s result) < rank c s := by
  obtain rfl := inv.pending st out
  rw [AutoCapture.apply, if_neg (by simp [«open»]), out]
  dsimp only
  let u := { s with pending := none }
  have same : rank c u = rank c s := rfl
  rw [← same, stepFor_stage]
  rcases inv.phase with refused | head | tail
  · simp [refused.closed] at «open»
  · have head' : Head u := ⟨head.proper, head.open, head.stage, head.started, head.stopped,
      head.link, head.unasked, head.unlocked⟩
    cases action : (stepFor c s.stage).action with
    | startCapture => exact start_rank head' (stepFor_start action) _
    | stopCapture => exact absurd head.stage (by simp [stepFor_stop action, inHead])
    | sendCommand =>
      have command : u.stage ≠ .startingCapture := by
        intro here
        rw [show s.stage = .startingCapture from here] at action
        cases action
      exact command_rank_head head' command leadIn way
  · have unfinished : u.stage ≠ .finished := by
      rcases tail.settled with ⟨-, -, free⟩ | ⟨unfinished, -⟩
      · simp [free] at out
      · exact unfinished
    cases action : (stepFor c s.stage).action with
    | startCapture => exact absurd tail.stage (by simp [stepFor_start action, inTail])
    | stopCapture =>
      have here : u.stage = .stoppingCapture := stepFor_stop action
      have step (t : AutoCaptureSequence) (finishing : t.finishing = true) :
          rank c (completeTeardownStep c t u.stage) < rank c u :=
        completeTeardownStep_rank tail.finishing finishing tail.stage unfinished
      rw [here] at step
      exact step _ tail.finishing
    | sendCommand =>
      have command : u.stage ≠ .stoppingCapture := by
        intro here
        rw [show s.stage = .stoppingCapture from here] at action
        cases action
      have finishing : u.finishing = true := tail.finishing
      exact command_rank_tail finishing tail.stage unfinished command _

/-! ## Any action -/

theorem skipUnless_rank {stage : AutoCaptureStage} (proper : s.finishing = false)
    (head : inHead stage = true) (watch : stage ≠ .watching) (stall : stage ≠ .checkingStall)
    (able : AutoCaptureSequence → Bool) :
    rank c (skipUnless c stage able s) ≤ rank c s ∧
      (skipUnless c stage able s).finishing = false := by
  unfold skipUnless
  split_ifs with skipped
  · obtain ⟨rfl, -⟩ := skipped
    exact ⟨(advance_rank proper head watch stall).le, proper⟩
  · exact ⟨le_rfl, proper⟩

theorem skips_rank (proper : s.finishing = false) : rank c (skips c s) ≤ rank c s := by
  have lock : rank c (skipLock c s) ≤ rank c s ∧ (skipLock c s).finishing = false := by
    unfold skipLock
    split_ifs with skipped
    · refine ⟨?_, proper⟩
      rw [rank_proper proper, rank_proper (by exact proper), skipped.1]
      simp only [weight]
      omega
    · exact ⟨le_rfl, proper⟩
  have status := @skipUnless_rank c _ .confirmingDisc lock.2 rfl (by decide)
    (by decide) fun _ => c.has .queryDiscStatus
  have transport := @skipUnless_rank c _ .checkingTransport status.2 rfl
    (by decide) (by decide) fun _ => c.has .queryActiveMode
  have stop := @skipUnless_rank c _ .spinningDown transport.2 rfl (by decide)
    (by decide) fun s => c.has .stop && s.discTurning
  exact ((stop.1.trans transport.1).trans status.1).trans lock.1

theorem next_rank (inv : Inv c es s) : rank c (next c s).2 ≤ rank c s := by
  unfold AutoCapture.next
  by_cases finished : s.isFinished = true
  · rw [if_pos finished]
  rw [if_neg finished]
  cases free : s.pending with
  | some st => exact le_rfl
  | none =>
    dsimp only
    have inv' := honourCancel_inv inv (by simpa using finished) free
    have lower : rank c (honourCancel c s) ≤ rank c s := honourCancel_rank
    generalize honourCancel c s = u at inv' lower
    by_cases ended : u.isFinished = true
    · rw [if_pos ended]
      exact lower
    rw [if_neg ended]
    change rank c (skips c u) ≤ rank c s
    rcases inv'.phase with refused | head | tail
    · exact absurd refused.closed ended
    · exact (skips_rank head.proper).trans lower
    · rwa [skips_tail tail]

theorem cancel_rank : rank c (cancel c s) ≤ rank c s := by
  unfold cancel
  split_ifs with finished
  · exact le_rfl
  dsimp only
  split_ifs with idle
  · simp only [Bool.and_eq_true, Bool.not_eq_true'] at idle
    exact (finish_rank (t := { s with cancelRequested := true }) idle.2 idle.2 _).le
  · exact le_rfl

/-- No action puts the end off, but for the two answers. -/
theorem step_rank (inv : Inv c es s) (a : Dialogue.Action CaptureCall StepResult)
    (leadIn : ¬ LeadInRead c ((sequence c).step s a).2)
    (way : ¬ OnItsWay c ((sequence c).step s a).2) :
    rank c ((sequence c).step s a).1 ≤ rank c s := by
  rcases (sequence c).step_cases s a with ⟨st, -, step⟩ | ⟨idle, st, t, given, -, step⟩ |
      ⟨idle, t, given, -, step⟩ | ⟨st, result, out, step⟩ | ⟨result, -, step⟩ |
      ⟨which, -, step⟩ <;>
    rw [step] at leadIn way ⊢
  · have lower := next_rank inv
    rwa [show AutoCapture.next c s = (some st, t) from given] at lower
  · have lower := next_rank inv
    rwa [show AutoCapture.next c s = (none, t) from given] at lower
  · change AutoCapture.awaiting s = some st at out
    unfold AutoCapture.awaiting at out
    split_ifs at out with finished
    exact (apply_rank inv (by simpa using finished) out leadIn way).le
  · exact cancel_rank

/-! ## Completed -/

/-- A capture that is completed, or will be, has read its end. -/
structure Earned (c : Settings) (es : List CaptureEvent) (s : AutoCaptureSequence) : Prop where
  reason : s.finishing = true → s.pendingOutcome = .completed → Happened (EndRead c) es
  outcome : s.outcome = .completed → s.finishing = true ∧ s.pendingOutcome = .completed

namespace Earned

theorem snoc (h : Earned c es s) (e : CaptureEvent) : Earned c (es ++ [e]) s :=
  ⟨fun finishing reason => happened_snoc.mpr (Or.inl (h.reason finishing reason)), h.outcome⟩

theorem walk (h : Earned c es s) (finishing : s.finishing = true) (fuel : Nat) :
    Earned c es (walk c fuel s) := by
  induction fuel generalizing s with
  | zero => exact h
  | succ fuel ih =>
    unfold AutoCapture.walk
    split_ifs
    · exact ⟨h.reason, fun completed => ⟨finishing, completed⟩⟩
    · exact h
    · exact ih ⟨h.reason, h.outcome⟩ finishing

theorem finish (h : Earned c es s) {outcome : AutoCaptureOutcome}
    (said : outcome = .completed → Happened (EndRead c) es) :
    Earned c es (finish c s outcome) := by
  unfold AutoCapture.finish
  split_ifs with finishing
  · exact h
  · refine walk ⟨fun _ => said, fun completed => ?_⟩ rfl 5
    exact absurd (h.outcome completed).1 finishing

theorem finish_other (h : Earned c es s) {outcome : AutoCaptureOutcome}
    (other : outcome ≠ .completed) : Earned c es (AutoCapture.finish c s outcome) :=
  h.finish fun same => absurd same other

theorem completeTeardownStep (h : Earned c es s) (finishing : s.finishing = true)
    (stage : AutoCaptureStage) : Earned c es (completeTeardownStep c s stage) :=
  walk (s := { s with stage := teardownSuccessor c stage }) ⟨h.reason, h.outcome⟩ finishing 5

theorem honourCancel (h : Earned c es s) : Earned c es (honourCancel c s) := by
  unfold AutoCapture.honourCancel
  split_ifs
  · exact h.finish_other (by decide)
  · exact h

theorem watching (h : Earned c es s) {result : StepResult}
    (said : AtEnd c result → Happened (EndRead c) es) :
    Earned c es (applyWatching c s result.reply) := by
  unfold applyWatching
  dsimp only
  split_ifs with silent leadOut leadIn invalid reached further
  · exact ⟨h.reason, h.outcome⟩
  · exact h.finish fun _ => said ⟨by simpa using silent, Or.inl leadOut⟩
  · exact ⟨h.reason, h.outcome⟩
  · exact ⟨h.reason, h.outcome⟩
  · have valid : (addressIn c result).valid = true := by
      rw [addressIn]
      simpa using invalid
    refine finish ?_ fun _ => said ⟨by simpa using silent, Or.inr ⟨valid, reached⟩⟩
    exact ⟨h.reason, h.outcome⟩
  · exact ⟨h.reason, h.outcome⟩
  · exact ⟨h.reason, h.outcome⟩

theorem checkingStall (h : Earned c es s) (reply : Reply) :
    Earned c es (applyCheckingStall c s reply) := by
  unfold applyCheckingStall
  dsimp only
  split
  · exact ⟨h.reason, h.outcome⟩
  · exact ⟨h.reason, h.outcome⟩
  all_goals exact h.finish_other (by decide)

theorem applyReply (h : Earned c es s) {result : StepResult} {stage : AutoCaptureStage}
    (said : stage = .watching → AtEnd c result → Happened (EndRead c) es) :
    Earned c es (applyReply c s stage result.reply) := by
  have kept {t : AutoCaptureSequence} (finishing : t.finishing = s.finishing)
      (reason : t.pendingOutcome = s.pendingOutcome) (outcome : t.outcome = s.outcome) :
      Earned c es t := by
    constructor
    · rw [finishing, reason]
      exact h.reason
    · rw [finishing, reason, outcome]
      exact h.outcome
  unfold AutoCapture.applyReply
  split
  · exact kept rfl rfl rfl
  · unfold applyConfirmingDisc
    dsimp only
    split_ifs
    · exact kept rfl rfl rfl
    · exact kept rfl rfl rfl
    · exact h.finish_other (by decide)
    · exact kept rfl rfl rfl
  · unfold applyCheckingTransportAndAdvance applyCheckingTransport
    split_ifs <;> exact kept rfl rfl rfl
  · exact kept rfl rfl rfl
  · unfold applySeekingStart
    split_ifs
    · exact h.finish_other (by decide)
    · exact kept rfl rfl rfl
  · unfold applySpinningUp
    split_ifs
    · exact h.finish_other (by decide)
    · exact kept rfl rfl rfl
  · exact h.watching (said rfl)
  · exact h.checkingStall _
  · exact h

theorem applyCommand (h : Earned c es s) {result : StepResult} {stage : AutoCaptureStage}
    (said : stage = .watching → AtEnd c result → Happened (EndRead c) es)
    (tail : stage = .checkingBeforeStopping ∨ stage = .stoppingPlayer ∨
      stage = .unlockingFrontPanel → s.finishing = true) :
    Earned c es (applyCommand c s stage result.reply) := by
  unfold AutoCapture.applyCommand
  split_ifs with down finishing
  · exact completeTeardownStep (s := { s with linkFailed := true }) ⟨h.reason, h.outcome⟩
      finishing stage
  · exact h.finish_other (by decide)
  split
  · have finishing := tail (Or.inl rfl)
    refine completeTeardownStep ?_ ?_ _ <;> unfold applyCheckingTransport <;> split_ifs
    · exact h
    · exact ⟨h.reason, h.outcome⟩
    · exact finishing
    · exact finishing
  · exact h.completeTeardownStep (tail (Or.inr (Or.inl rfl))) _
  · exact h.completeTeardownStep (tail (Or.inr (Or.inr rfl))) _
  · exact (h.applyReply said).honourCancel

theorem apply (h : Earned c es s) (inv : Inv c es s) («open» : s.isFinished = false)
    {st : AutoCaptureStep} (out : s.pending = some st) (result : StepResult) :
    Earned c (es ++ [.answered st result]) (apply c s result) := by
  obtain rfl := inv.pending st out
  have later := h.snoc (.answered (stepFor c s.stage) result)
  rw [AutoCapture.apply, if_neg (by simp [«open»]), out]
  dsimp only
  rw [stepFor_stage]
  let u := { s with pending := none }
  have later' : Earned c (es ++ [.answered (stepFor c s.stage) result]) u :=
    ⟨later.reason, later.outcome⟩
  cases action : (stepFor c s.stage).action with
  | startCapture =>
    change Earned c _ (applyStart c u result.captureOk)
    unfold applyStart
    split_ifs
    · exact later'.finish_other (by decide)
    · exact ⟨later'.reason, later'.outcome⟩
  | stopCapture =>
    have finishing : s.finishing = true := by
      rcases inv.phase with refused | head | tail
      · simp [refused.closed] at «open»
      · exact absurd head.stage (by simp [stepFor_stop action, inHead])
      · exact tail.finishing
    change Earned c _ (applyStop c u result.captureOk)
    have stopped (reason : AutoCaptureOutcome)
        (kept : reason = .completed → s.pendingOutcome = .completed) :
        Earned c (es ++ [.answered (stepFor c s.stage) result])
          { u with captureStopped := true, pendingOutcome := reason } := by
      refine ⟨fun _ same => later.reason finishing (kept same), fun done => ?_⟩
      have ended : s.outcome = .completed := done
      simp [AutoCaptureSequence.isFinished, ended] at «open»
    refine (stopped _ fun same => ?_).completeTeardownStep finishing _
    split_ifs at same
    exact same
  | sendCommand =>
    change Earned c _ (AutoCapture.applyCommand c u s.stage result.reply)
    refine later'.applyCommand ?_ ?_
    · intro here reached
      exact happened_snoc.mpr (Or.inr ⟨by simp [here], reached⟩)
    · intro tail'
      rcases inv.phase with refused | head | tail
      · simp [refused.closed] at «open»
      · have inside := head.stage
        rcases tail' with here | here | here <;> simp [here, inHead] at inside
      · exact tail.finishing

theorem next (h : Earned c es s) : Earned c es (next c s).2 := by
  unfold AutoCapture.next
  split_ifs with finished
  · exact h
  cases s.pending with
  | some st => exact h
  | none =>
    have honoured := h.honourCancel
    dsimp only
    split_ifs
    · exact honoured
    · rw [skips_eq]
      exact ⟨honoured.reason, honoured.outcome⟩

theorem cancel (h : Earned c es s) : Earned c es (cancel c s) := by
  unfold AutoCapture.cancel
  split_ifs with finished
  · exact h
  have asked : Earned c es { s with cancelRequested := true } := ⟨h.reason, h.outcome⟩
  dsimp only
  split_ifs
  · exact asked.finish_other (by decide)
  · exact asked

theorem start : Earned c [] (begin c) := by
  unfold begin
  dsimp only
  split_ifs <;> constructor <;> simp

theorem step (h : Earned c es s) (inv : Inv c es s)
    (a : Dialogue.Action CaptureCall StepResult) :
    Earned c (es ++ [((sequence c).step s a).2]) ((sequence c).step s a).1 := by
  rcases (sequence c).step_cases s a with ⟨st, -, step⟩ | ⟨idle, st, t, given, -, step⟩ |
      ⟨idle, t, given, -, step⟩ | ⟨st, result, out, step⟩ | ⟨result, -, step⟩ |
      ⟨which, -, step⟩ <;>
    rw [step]
  · exact h.snoc _
  · have next := h.next
    rw [show AutoCapture.next c s = (some st, t) from given] at next
    exact next.snoc _
  · have next := h.next
    rw [show AutoCapture.next c s = (none, t) from given] at next
    exact next.snoc _
  · change AutoCapture.awaiting s = some st at out
    unfold AutoCapture.awaiting at out
    split_ifs at out with finished
    exact h.apply inv (by simpa using finished) out result
  · exact h.snoc _
  · exact h.cancel.snoc _

end Earned

/-! ## Endless sequences of actions -/

variable {acts : Nat → Dialogue.Action CaptureCall StepResult}

theorem next_out (s : AutoCaptureSequence) (goes : (next c s).2.isFinished = false) :
    (awaiting (next c s).2).isSome = true := by
  have next' : (AutoCapture.next c s).1.isSome = true := by
    revert goes
    unfold AutoCapture.next
    split_ifs with finished
    · simp [finished]
    cases s.pending with
    | some st => simp
    | none =>
      dsimp only
      split_ifs with ended
      · simp [ended]
      · simp [hand]
  cases out : awaiting s with
  | some st =>
    have same := (sequence c).next_awaiting (s := s) out
    rw [show AutoCapture.next c s = (some st, s) from same]
    simp [out]
  | none =>
    have fresh := (sequence c).next_fresh (s := s) out
    rw [show awaiting (AutoCapture.next c s).2 = (AutoCapture.next c s).1 from fresh]
    exact next'

theorem cancel_awaiting (s : AutoCaptureSequence) : awaiting (cancel c s) = awaiting s := by
  unfold AutoCapture.cancel
  split_ifs with finished
  · rfl
  dsimp only
  split_ifs with idle
  · simp only [Bool.and_eq_true, Option.isNone_iff_eq_none] at idle
    have free := finish_pending c (s := { s with cancelRequested := true }) idle.1 .cancelled
    have silent {t : AutoCaptureSequence} (free : t.pending = none) : awaiting t = none := by
      rw [awaiting, free, ite_self]
    rw [silent free, silent idle.1]
  · rfl

/-- A sequence that goes on hands out a step whenever it is asked. -/
theorem asked_out {n : Nat} (asks : acts n = .next)
    (goes : (after (sequence c).machine (begin c) acts (n + 1)).isFinished = false) :
    ((sequence c).awaiting (after (sequence c).machine (begin c) acts (n + 1))).isSome = true := by
  have next' : after (sequence c).machine (begin c) acts (n + 1) =
      (AutoCapture.next c (after (sequence c).machine (begin c) acts n)).2 := by
    change ((sequence c).step _ (acts n)).1 = _
    rw [asks, step_next]
    rfl
  rw [next'] at goes ⊢
  exact next_out _ goes

theorem answer_falls {n : Nat} {st : AutoCaptureStep} {result : StepResult}
    (inv : Inv c es (after (sequence c).machine (begin c) acts n))
    (goes : (after (sequence c).machine (begin c) acts n).isFinished = false)
    (out : (sequence c).awaiting (after (sequence c).machine (begin c) acts n) = some st)
    (replies : acts n = .apply result)
    (leadIn : ¬ LeadInRead c (report (sequence c).machine (begin c) acts n))
    (way : ¬ OnItsWay c (report (sequence c).machine (begin c) acts n)) :
    rank c (after (sequence c).machine (begin c) acts (n + 1)) <
      rank c (after (sequence c).machine (begin c) acts n) := by
  have step : (sequence c).step (after (sequence c).machine (begin c) acts n) (acts n) =
      (AutoCapture.apply c (after (sequence c).machine (begin c) acts n) result,
        .answered st result) := by
    rw [replies]
    exact step_answered out
  change ¬ LeadInRead c ((sequence c).step _ (acts n)).2 at leadIn
  change ¬ OnItsWay c ((sequence c).step _ (acts n)).2 at way
  change rank c ((sequence c).step _ (acts n)).1 < _
  rw [step] at leadIn way ⊢
  have pending : (after (sequence c).machine (begin c) acts n).pending = some st := by
    change awaiting _ = _ at out
    simpa [awaiting, goes] using out
  exact apply_rank inv goes pending leadIn way

/-- Asked and answered again and again, with only finitely many of the two answers that put the
end off, the sequence comes to an end; and it is completed only where a reading was at the end of
the plan or in the lead-out. -/
theorem capture_ends (c : Settings) (attended : Attended acts)
    (leadIn : {n | LeadInRead c (report (sequence c).machine (begin c) acts n)}.Finite)
    (way : {n | OnItsWay c (report (sequence c).machine (begin c) acts n)}.Finite) :
    (∃ n, (after (sequence c).machine (begin c) acts n).isFinished = true) ∧
      ∀ n, (after (sequence c).machine (begin c) acts n).outcome = .completed →
        ∃ k, k < n ∧ EndRead c (report (sequence c).machine (begin c) acts k) := by
  have run (n : Nat) : CaptureLog c _ (after (sequence c).machine (begin c) acts n) := run_after n
  constructor
  · obtain ⟨N, noLeadIn⟩ := quiet_from leadIn
    obtain ⟨M, noWay⟩ := quiet_from way
    refine @halts _ _ _ _ _ _ (rank c) (fun s => s.isFinished = true) (max N M) ?_ ?_
    · intro n late
      exact step_rank (inv_of_run (run n)) (acts n)
        (noLeadIn n (le_trans (le_max_left _ _) late))
        (noWay n (le_trans (le_max_right _ _) late))
    · intro never n
      simp only [Bool.not_eq_true] at never
      obtain ⟨k, late, st, result, out, replies⟩ :=
        answered_again (fun s _ => cancel_awaiting s) attended
          (fun n asks => asked_out asks (never (n + 1))) (max n (max N M))
      have quiet : max N M ≤ k := le_trans (le_max_right _ _) late
      refine ⟨k, le_trans (le_max_left _ _) late, ?_⟩
      exact answer_falls (inv_of_run (run k)) (never k) out replies
        (noLeadIn k (le_trans (le_max_left _ _) quiet))
        (noWay k (le_trans (le_max_right _ _) quiet))
  · intro n done
    have earned := (run n).invariant_events (fun es s => Inv c es s ∧ Earned c es s)
      ⟨begin_inv, Earned.start⟩ fun _ _ a h _ => ⟨step_inv h.1 a, h.2.step h.1 a⟩
    obtain ⟨finishing, reason⟩ := earned.2.outcome done
    obtain ⟨e, member, read⟩ := earned.2.reason finishing reason
    obtain ⟨k, before, rfl⟩ := List.mem_map.mp member
    exact ⟨k, List.mem_range.mp before, read⟩

open CaptureSafety (wholeSide accepted)

/-- Asked and answered in turn, by a player that accepts everything and says nothing. -/
def inTurn (n : Nat) : Dialogue.Action CaptureCall StepResult :=
  if n % 2 = 0 then .next else .apply accepted

theorem inTurn_attended : Attended inTurn :=
  ⟨fun n => ⟨2 * n, by omega, by simp [inTurn]⟩,
    fun n => ⟨2 * n + 1, by omega, accepted, by simp [inTurn, Nat.add_mod]⟩⟩

theorem inTurn_answers {n : Nat} {st : AutoCaptureStep} {result : StepResult}
    (answers : report (sequence wholeSide).machine (begin wholeSide) inTurn n =
      .answered st result) : result = accepted := by
  have sent := answered_applies (Prod.ext rfl answers)
  unfold inTurn at sent
  split_ifs at sent
  cases sent
  rfl

theorem capture_ends_inTurn :
    ∃ n, (after (sequence wholeSide).machine (begin wholeSide) inTurn n).isFinished = true := by
  refine (capture_ends wholeSide inTurn_attended ?_ ?_).1
  · refine Set.finite_empty.subset fun n leadIn => ?_
    simp only [Set.mem_ofPred_eq, LeadInRead] at leadIn
    split at leadIn
    next st result answers =>
      cases inTurn_answers answers
      exact absurd leadIn.2.2 (by decide)
    · exact leadIn.elim
  · refine Set.finite_empty.subset fun n way => ?_
    simp only [Set.mem_ofPred_eq, OnItsWay] at way
    split at way
    next st result answers =>
      cases inTurn_answers answers
      exact absurd way.2.2 (by decide)
    · exact way.elim

end CaptureTermination
