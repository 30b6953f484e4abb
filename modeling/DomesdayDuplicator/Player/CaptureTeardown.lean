import DomesdayDuplicator.Player.AutoCaptureSequence

/-!
# The tail of the automatic capture

The tail is walked in one direction, stops at the first step that applies and passes
none that does. No reply, whatever it is, leaves a step out; so the sequence is a
procedure that hands out one step at a time.
-/

namespace AutoCapture

open Player Dialogue

inductive CaptureCall where
  | cancel
  deriving DecidableEq

variable (c : Settings)

def awaiting (s : AutoCaptureSequence) : Option AutoCaptureStep :=
  if s.isFinished then none else s.pending

/-! ## The tail, in order -/

def inTail : AutoCaptureStage → Bool
  | .checkingBeforeStopping | .stoppingCapture | .stoppingPlayer | .unlockingFrontPanel
  | .finished => true
  | _ => false

/-- The place of a stage in the tail of this shape. -/
def place : AutoCaptureStage → Nat
  | .checkingBeforeStopping => if endsWithSpinDown c.plan.shape then 0 else 1
  | .stoppingPlayer => if endsWithSpinDown c.plan.shape then 1 else 2
  | .stoppingCapture => if endsWithSpinDown c.plan.shape then 2 else 0
  | .unlockingFrontPanel => 3
  | _ => 4

theorem place_successor {stage : AutoCaptureStage} (tail : inTail stage = true)
    (open' : stage ≠ .finished) :
    inTail (teardownSuccessor c stage) = true ∧
      place c (teardownSuccessor c stage) = place c stage + 1 := by
  cases stage <;> simp only [inTail, reduceCtorEq, ne_eq, not_true_eq_false] at tail open' <;>
    cases h : endsWithSpinDown c.plan.shape <;> simp [teardownSuccessor, place, inTail, h]

theorem place_inj {a b : AutoCaptureStage} (ha : inTail a = true) (hb : inTail b = true)
    (same : place c a = place c b) : a = b := by
  cases a <;> simp only [inTail, reduceCtorEq] at ha <;>
    cases b <;> simp only [inTail, reduceCtorEq] at hb <;>
    cases h : endsWithSpinDown c.plan.shape <;> simp [place, h] at same ⊢

theorem place_first : inTail (firstTeardownStage c) = true ∧ place c (firstTeardownStage c) = 0 := by
  cases h : endsWithSpinDown c.plan.shape <;> simp [firstTeardownStage, place, inTail, h]

theorem place_check : place c .stoppingPlayer = place c .checkingBeforeStopping + 1 := by
  cases h : endsWithSpinDown c.plan.shape <;> simp [place, h]

theorem place_lt_finished {stage : AutoCaptureStage} (tail : inTail stage = true) :
    place c stage ≤ 3 ↔ stage ≠ .finished := by
  cases stage <;> simp only [inTail, reduceCtorEq] at tail <;>
    cases h : endsWithSpinDown c.plan.shape <;> simp [place, h]

/-- Where the walk ends. -/
def settle (s : AutoCaptureSequence) (stage : AutoCaptureStage) : AutoCaptureSequence :=
  { s with
    stage := stage
    outcome := if stage = .finished then s.pendingOutcome else s.outcome }

/-- The walk stops at the first stage that applies, and passes none that does. -/
theorem walk_spec {s : AutoCaptureSequence} (tail : inTail s.stage = true) {fuel : Nat}
    (enough : 4 < fuel + place c s.stage) :
    ∃ stage, walk c fuel s = settle s stage ∧ inTail stage = true ∧
      place c s.stage ≤ place c stage ∧
      (stage = .finished ∨ teardownStepApplies c s stage = true) ∧
      ∀ k, inTail k = true → teardownStepApplies c s k = true → place c s.stage ≤ place c k →
        place c stage ≤ place c k := by
  induction fuel generalizing s with
  | zero =>
    have : place c s.stage ≤ 4 := by
      cases s.stage <;> simp only [place] <;> (try split) <;> omega
    omega
  | succ fuel ih =>
    by_cases done : s.stage = .finished
    · refine ⟨.finished, by simp [walk, settle, done], rfl, by simp [done], Or.inl rfl, ?_⟩
      intro k _ _ far
      rwa [done] at far
    by_cases applies : teardownStepApplies c s s.stage = true
    · refine ⟨s.stage, ?_, tail, le_rfl, Or.inr applies, fun k _ _ far => far⟩
      simp [walk, settle, done, applies]
    obtain ⟨tail', further⟩ := place_successor c tail done
    obtain ⟨stage, walked, inside, later, stops, first⟩ :=
      ih (s := { s with stage := teardownSuccessor c s.stage }) tail' (by
        change 4 < fuel + place c (teardownSuccessor c s.stage)
        omega)
    change place c (teardownSuccessor c s.stage) ≤ place c stage at later
    refine ⟨stage, ?_, inside, by omega, stops, ?_⟩
    · simpa [walk, done, applies, settle] using walked
    · intro k inside' applies' far
      refine first k inside' applies' ?_
      change place c (teardownSuccessor c s.stage) ≤ place c k
      have : place c s.stage ≠ place c k := by
        intro same
        rw [place_inj c tail inside' same] at applies
        exact applies applies'
      omega

/-! ## The sequence as a procedure -/

@[simp] theorem walk_pending (fuel : Nat) (s : AutoCaptureSequence) :
    (walk c fuel s).pending = s.pending := by
  induction fuel generalizing s with
  | zero => rfl
  | succ fuel ih =>
    unfold walk
    split_ifs
    · rfl
    · rfl
    · exact ih _

theorem finish_pending {s : AutoCaptureSequence} (h : s.pending = none)
    (outcome : AutoCaptureOutcome) : (finish c s outcome).pending = none := by
  unfold finish advanceTeardown
  split_ifs
  · exact h
  · rw [walk_pending]

theorem honourCancel_pending {s : AutoCaptureSequence} (h : s.pending = none) :
    (honourCancel c s).pending = none := by
  unfold honourCancel
  split_ifs
  · exact finish_pending c h _
  · exact h

@[simp] theorem completeTeardownStep_pending (s : AutoCaptureSequence) (stage : AutoCaptureStage) :
    (completeTeardownStep c s stage).pending = s.pending := by
  simp [completeTeardownStep, advanceTeardown]

@[simp] theorem applyCheckingTransport_pending (s : AutoCaptureSequence) (reply : Reply) :
    (applyCheckingTransport c s reply).pending = s.pending := by
  unfold applyCheckingTransport
  split_ifs <;> rfl

theorem applyWatching_pending {s : AutoCaptureSequence} (h : s.pending = none) (reply : Reply) :
    (applyWatching c s reply).pending = none := by
  simp only [applyWatching]
  split_ifs <;> first | exact h | exact finish_pending c (by exact h) _

theorem applyReply_pending {s : AutoCaptureSequence} (h : s.pending = none)
    (stage : AutoCaptureStage) (reply : Reply) : (applyReply c s stage reply).pending = none := by
  unfold applyReply
  split
  · exact h
  · simp only [applyConfirmingDisc]
    split_ifs <;> first | exact h | exact finish_pending c h _
  · simpa [applyCheckingTransportAndAdvance, advance] using h
  · exact h
  · simp only [applySeekingStart]
    split_ifs <;> first | exact h | exact finish_pending c h _
  · simp only [applySpinningUp]
    split_ifs <;> first | exact h | exact finish_pending c h _
  · exact applyWatching_pending c h reply
  · simp only [applyCheckingStall]
    split <;> first | exact h | exact finish_pending c h _
  · exact h

theorem applyCommand_pending {s : AutoCaptureSequence} (h : s.pending = none)
    (stage : AutoCaptureStage) (reply : Reply) :
    (applyCommand c s stage reply).pending = none := by
  unfold applyCommand
  split_ifs
  · simpa using h
  · exact finish_pending c h _
  split
  · simpa using h
  · simpa using h
  · simpa using h
  · exact honourCancel_pending c (applyReply_pending c h stage reply)

theorem apply_pending {s : AutoCaptureSequence} (result : StepResult)
    (unfinished : s.isFinished = false) : (apply c s result).pending = none := by
  unfold apply
  rw [unfinished]
  split
  · contradiction
  split
  · assumption
  dsimp only
  split
  · unfold applyStart
    split_ifs
    · exact finish_pending c rfl _
    · rfl
  · simp [applyStop]
  · exact applyCommand_pending c rfl _ _

theorem skips_eq (s : AutoCaptureSequence) : skips c s = { s with stage := (skips c s).stage } := by
  simp only [skips, skipLock, skipUnless, advance]
  split_ifs <;> rfl

theorem hand_outcome (s : AutoCaptureSequence) : (hand c (skips c s)).outcome = s.outcome := by
  rw [skips_eq]
  rfl

def sequence : Procedure AutoCaptureSequence CaptureCall AutoCaptureStep StepResult where
  awaiting := awaiting
  next := next c
  apply := apply c
  call := fun _ => cancel c
  next_awaiting := by
    intro s st h
    unfold awaiting at h
    split_ifs at h with finished
    simp [next, finished, h]
  next_fresh := by
    intro s h
    unfold next
    split_ifs with finished
    · exact h
    have free : s.pending = none := by simpa [awaiting, finished] using h
    simp only [free]
    generalize honourCancel c s = t
    split_ifs with stopped
    · simp [awaiting, stopped]
    · simp [awaiting, AutoCaptureSequence.isFinished, hand_outcome] at stopped ⊢
      simp [stopped]
  apply_idle := by
    intro s r h
    unfold awaiting at h
    unfold apply
    split_ifs at h ⊢ with finished
    · rfl
    · simp [h]
  apply_answers := by
    intro s st r h
    unfold awaiting at h ⊢
    split_ifs at h with finished
    split_ifs
    · rfl
    · exact apply_pending c r (by simpa using finished)
  call_awaiting := by
    intro k s
    unfold cancel
    split_ifs with finished
    · exact Or.inl rfl
    dsimp only
    split_ifs with idle
    · simp only [Bool.and_eq_true, Option.isNone_iff_eq_none] at idle
      refine Or.inr ?_
      unfold awaiting
      split_ifs
      · rfl
      · exact finish_pending c (by exact idle.1) _
    · exact Or.inl rfl

end AutoCapture
