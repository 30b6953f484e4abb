import DomesdayDuplicator.Player.CaptureRun

/-!
# What an automatic capture leaves behind

Each step handed out is judged by the log before it. When a run is over, nothing it
started is left running, except over a link that failed.
-/

namespace CaptureSafety

open Player AutoCapture Dialogue EventLog Execution CaptureRun

variable {c : Settings} {es : List CaptureEvent} {s : AutoCaptureSequence}

def GivesPlay (e : CaptureEvent) : Prop :=
  ∃ st, e.given = some st ∧ st.action = .sendCommand ∧
    (st.command = .play ∨ st.command = .playWithoutStopCodes)

def GivesCommand (e : CaptureEvent) : Prop :=
  ∃ st, e.given = some st ∧ st.action = .sendCommand

/-- The stop command, which a Pioneer player takes as Reject. -/
def HandsReject (e : CaptureEvent) : Prop :=
  ∃ st, e = .handed st ∧ st.action = .sendCommand ∧ st.command = .stop

theorem play_after_start (inv : Inv c es s) («open» : s.isFinished = false)
    (command : (stepFor c s.stage).command = .play ∨
      (stepFor c s.stage).command = .playWithoutStopCodes) :
    Happened StartAcknowledged es := by
  have here := (stage_of_command (c := c) s.stage rfl).2.2 command
  rw [← inv.told.started]
  rcases inv.phase with refused | head | tail
  · simp [refused.closed] at «open»
  · rw [head.started, here]
    rfl
  · have inside := tail.stage
    simp [here, inTail] at inside

theorem command_over_link (inv : Inv c es s) («open» : s.isFinished = false)
    (command : (stepFor c s.stage).action = .sendCommand) : ¬ Happened LinkLost es := by
  rw [← inv.link]
  intro down
  rcases inv.phase with refused | head | tail
  · simp [refused.closed] at «open»
  · simp [head.link] at down
  · have inside := tail.stage
    rcases tail.settled with ⟨-, done, -⟩ | ⟨-, -, applies⟩
    · simp only [AutoCaptureSequence.isFinished, bne_eq_false_iff_eq] at «open»
      exact tail.reason (done.symm.trans «open»)
    · cases here : s.stage <;> simp [here, inTail, stepFor] at inside command <;>
        simp [here, teardownStepApplies, wouldStopPlayer, down] at applies

theorem stop_of_running (inv : Inv c es s) («open» : s.isFinished = false)
    (free : s.pending = none) (here : s.stage = .stoppingCapture) :
    Happened StartAcknowledged es ∧ ¬ Happened HandsStop es := by
  rcases inv.phase with refused | head | tail
  · simp [refused.closed] at «open»
  · have inside := head.stage
    simp [here, inHead] at inside
  · rcases tail.settled with ⟨done, -⟩ | ⟨-, -, applies⟩
    · simp [here] at done
    simp only [here, teardownStepApplies, AutoCaptureSequence.captureRunning, Bool.and_eq_true,
      Bool.not_eq_true'] at applies
    refine ⟨inv.told.started.mp applies.1.1, fun handed => ?_⟩
    rcases inv.stopOnce handed with stopped | ⟨-, out⟩
    · simp [stopped] at applies
    · simp [free] at out

/-- The rules for one event, given what the log held before it. -/
structure Rules (c : Settings) (before : List CaptureEvent) (e : CaptureEvent) : Prop where
  stop : HandsStop e → Happened StartAcknowledged before ∧ ¬ Happened HandsStop before
  play : GivesPlay e → Happened StartAcknowledged before
  command : GivesCommand e → ¬ Happened LinkLost before
  reject : HandsReject e → Asked c before

theorem rules_of_silent {e : CaptureEvent} (silent : e.given = none) : Rules c es e := by
  refine ⟨fun h => ?_, ?_, ?_, ?_⟩
  · cases e <;> simp [Event.given, HandsStop] at silent h
  · rintro ⟨st, given, -⟩
    simp [silent] at given
  · rintro ⟨st, given, -⟩
    simp [silent] at given
  · rintro ⟨st, rfl, -⟩
    simp [Event.given] at silent

theorem step_rules (inv : Inv c es s) (a : Dialogue.Action CaptureCall StepResult) :
    Rules c es ((sequence c).step s a).2 := by
  rcases (sequence c).step_cases s a with ⟨st, out, step⟩ | ⟨idle, st, t, given, -, step⟩ |
      ⟨-, t, -, -, step⟩ | ⟨st, result, -, step⟩ | ⟨result, -, step⟩ | ⟨which, -, step⟩ <;>
    rw [step]
  · change awaiting s = some st at out
    unfold awaiting at out
    split_ifs at out with finished
    have «open» : s.isFinished = false := by simpa using finished
    obtain rfl := inv.pending st out
    refine ⟨fun h => h.elim, ?_, ?_, ?_⟩
    · rintro ⟨st, given, -, command⟩
      cases given
      exact play_after_start inv «open» command
    · rintro ⟨st, given, command⟩
      cases given
      exact command_over_link inv «open» command
    · rintro ⟨st, handed, -⟩
      cases handed
  · rcases next_inv inv idle with ⟨u, none', -⟩ | ⟨u, inv', open', free, stops, handed⟩
    · cases given.symm.trans none'
    cases given.symm.trans handed
    refine ⟨fun h => ?_, ?_, ?_, ?_⟩
    · exact stop_of_running inv' open' free (stepFor_stop h)
    · rintro ⟨st, given, -, command⟩
      cases given
      exact play_after_start inv' open' command
    · rintro ⟨st, given, command⟩
      cases given
      exact command_over_link inv' open' command
    · rintro ⟨st, same, -, command⟩
      cases same
      exact stops ((stage_of_command (c := c) u.stage rfl).2.1 command)
  all_goals exact rules_of_silent rfl

theorem rules_of_run (run : CaptureLog c es s) : Each (Rules c) es :=
  each_of_run (Inv c) run begin_inv (fun _ _ a inv _ => step_inv inv a)
    fun _ _ a inv _ => step_rules inv a

/-- A writer was attached and has not been detached. -/
def StillRunning (es : List CaptureEvent) : Prop :=
  Happened StartAcknowledged es ∧ ¬ Happened StopAnswered es

theorem finished_cases (inv : Inv c es s) (ended : s.isFinished = true) :
    Refused s ∨ (Tail c s ∧ s.stage = .finished ∧ s.outcome = s.pendingOutcome) := by
  rcases inv.phase with refused | head | tail
  · exact Or.inl refused
  · simp [AutoCaptureSequence.isFinished, head.open] at ended
  · rcases tail.settled with ⟨done, outcome, -⟩ | ⟨-, running, -⟩
    · exact Or.inr ⟨tail, done, outcome⟩
    · simp [AutoCaptureSequence.isFinished, running] at ended

/-- A capture that is still being written when the run is over was left to the user. -/
theorem left_running (inv : Inv c es s) (ended : s.isFinished = true)
    (running : StillRunning es) :
    s.outcome = .linkFailed := by
  rw [StillRunning, ← inv.told.started, ← inv.told.stopped] at running
  rcases finished_cases inv ended with refused | ⟨tail, done, outcome⟩
  · simp [refused.started] at running
  rw [outcome]
  by_contra reason
  have ahead := tail.capture (by simpa [AutoCaptureSequence.captureRunning] using running) reason
  rw [done] at ahead
  simp only [place] at ahead
  split at ahead <;> omega

theorem unlocked_at_end (inv : Inv c es s) (ended : s.isFinished = true)
    (owing : Owing LockAcknowledged HandsUnlock es) :
    Happened LinkLost es ∨ c.has .keyLockOff = false := by
  rcases finished_cases inv ended with refused | ⟨tail, done, -⟩
  · have taken := inv.told.locked owing
    simp [refused.lock] at taken
  by_contra neither
  simp only [not_or, Bool.not_eq_false] at neither
  rw [← inv.link, Bool.not_eq_true] at neither
  have ahead := (inv.unlock owing tail.finishing neither.1 neither.2).1
  rw [done] at ahead
  simp [place] at ahead


/-- Whatever a caller does, in whatever order the replies come: a capture outlives its run
only where the link ended it; the writer is detached at most once, and only after it was
attached; a lock that was taken is released; nothing plays before the writer is attached;
and no command follows a dead link. -/
theorem nothing_abandoned (c : Settings) {es : List CaptureEvent} {s : AutoCaptureSequence}
    (run : CaptureLog c es s) :
    (s.isFinished = true → StillRunning es → s.outcome = .linkFailed) ∧
    Each (fun before e => HandsStop e →
      Happened StartAcknowledged before ∧ ¬ Happened HandsStop before) es ∧
    (s.isFinished = true → Owing LockAcknowledged HandsUnlock es →
      Happened LinkLost es ∨ c.has .keyLockOff = false) ∧
    Each (fun before e => GivesPlay e → Happened StartAcknowledged before) es ∧
    Each (fun before e => GivesCommand e → ¬ Happened LinkLost before) es := by
  have inv := inv_of_run run
  have rules := rules_of_run run
  refine ⟨left_running inv, ?_, unlocked_at_end inv, ?_, ?_⟩
  · exact fun before e after split => (rules before e after split).stop
  · exact fun before e after split => (rules before e after split).play
  · exact fun before e after split => (rules before e after split).command

/-! ## A cancelled whole side -/

/-- A player with every command, that reports playing and parked. -/
def benchPlayer : PlayerDefinition where
  commands := fun _ => { start := ['C'] }
  stateDecode := { start := ['P'], mappings := [⟨['P', '0', '4'], .playing⟩, ⟨['P', '0', '1'], .parked⟩] }

def wholeSide : Settings where
  definition := benchPlayer
  firmware := []
  plan := { startAddress := 1, endAddress := 500, keyLock := true }
  disc := { discType := ⟨.cav, .reported⟩, programmeEnd := ⟨500, .measured⟩ }

def accepted : StepResult := { reply := { status := .ok, text := ['R'] } }

def playing : StepResult := { reply := { status := .ok, text := ['P', '0', '4'] } }

/-- The lock, the disc, the transport, the stop, the capture; then a cancel. -/
def cancelledRun : List (Dialogue.Action CaptureCall StepResult) :=
  [.next, .apply accepted, .next, .apply accepted, .next, .apply playing, .next, .apply accepted,
    .next, .apply accepted, .call .cancel, .next, .apply accepted, .next, .apply accepted]

theorem cancelled_run_put_back :
    ¬ StillRunning ((sequence wholeSide).machine.trace (begin wholeSide) cancelledRun).1 := by
  have run : CaptureLog wholeSide
      ((sequence wholeSide).machine.trace (begin wholeSide) cancelledRun).1
      ((sequence wholeSide).machine.trace (begin wholeSide) cancelledRun).2 :=
    Run.of_trace _ (fun _ _ => true) _ _ (Machine.passes_of_all _ (fun _ _ => rfl) _)
      fun _ _ _ => trivial
  intro running
  have link := (nothing_abandoned wholeSide run).1 (by decide +kernel) running
  exact absurd link (by decide +kernel)

end CaptureSafety
